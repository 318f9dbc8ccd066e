import Mathlib.Data.List.Infix
import TemplateScript.Wrappers

namespace TemplateScript

/-!
# The language of templates

A template is literal text with directives in it.  Literal text goes on up to
the first `<%`, and a directive goes on up to the first `%>`; nothing is nested
and nothing is escaped.  So the parts of a template are determined by its
source, and a text that is no template is one that breaks off inside a
directive.

The script of a template is given here part by part, without any reference to
how a text is scanned.
-/

/-- The mark that opens a directive. -/
def opener : List Char := ['<', '%']

/-- The mark that closes a directive. -/
def closer : List Char := ['%', '>']

/-! ## Marks of two different characters -/

section Marks

variable {x y : Char}

/-- A mark that occurs in a text occurs in it for a first time. -/
theorem exists_first_mark {text : List Char} (occurs : [x, y] <:+: text) :
    ∃ before after, text = before ++ x :: y :: after ∧ ¬ [x, y] <:+: before := by
  induction text with
  | nil => exact absurd (List.infix_nil.mp occurs) (by simp)
  | cons c rest ih =>
    by_cases here : [x, y] <+: c :: rest
    · rcases here with ⟨after, same⟩
      exact ⟨[], after, same.symm, by simp⟩
    · rcases List.infix_cons_iff.mp occurs with now | later
      · exact absurd now here
      · rcases ih later with ⟨before, after, same, first⟩
        refine ⟨c :: before, after, by rw [same]; rfl, ?_⟩
        intro earlier
        rcases List.infix_cons_iff.mp earlier with front | inside
        · apply here
          rw [same]
          exact front.trans (List.prefix_append (c :: before) _)
        · exact first inside

/-- The first occurrence of a mark is in one place only.  The characters of the
mark differ, so that two occurrences cannot overlap. -/
theorem eq_of_first_mark (different : x ≠ y) {before after front back : List Char}
    (first : ¬ [x, y] <:+: before) (alsoFirst : ¬ [x, y] <:+: front)
    (same : before ++ x :: y :: after = front ++ x :: y :: back) :
    before = front ∧ after = back := by
  induction before generalizing front with
  | nil =>
    cases front with
    | nil =>
      simp only [List.nil_append, List.cons.injEq, true_and] at same
      exact ⟨rfl, same⟩
    | cons c front =>
      -- The mark at the beginning would reach into the other text.
      cases front with
      | nil =>
        simp only [List.nil_append, List.cons_append, List.cons.injEq] at same
        exact absurd same.2.1.symm different
      | cons d front =>
        simp only [List.nil_append, List.cons_append, List.cons.injEq] at same
        rcases same with ⟨rfl, rfl, -⟩
        exact absurd (List.infix_append [] [x, y] front) alsoFirst
  | cons c before ih =>
    cases front with
    | nil =>
      cases before with
      | nil =>
        simp only [List.nil_append, List.cons_append, List.cons.injEq] at same
        exact absurd same.2.1 different
      | cons d before =>
        simp only [List.nil_append, List.cons_append, List.cons.injEq] at same
        rcases same with ⟨rfl, rfl, -⟩
        exact absurd (List.infix_append [] [c, d] before) first
    | cons d front =>
      simp only [List.cons_append, List.cons.injEq] at same
      rcases same with ⟨rfl, rest⟩
      have parts := ih (fun inside => first (List.infix_cons inside))
        (fun inside => alsoFirst (List.infix_cons inside)) rest
      exact ⟨by rw [parts.1], parts.2⟩

end Marks

/-! ## The parts of a template -/

/-- Text outside of directives. -/
structure Literal where
  text : List Char
  unopened : ¬ opener <:+: text
  deriving DecidableEq

/-- A directive that is closed. -/
inductive Directive where
  /-- Code, which an equals sign at its beginning would turn into an expression. -/
  | code (body : List Char) (unclosed : ¬ closer <:+: body) (plain : body.head? ≠ some '=')
  | expression (body : List Char) (unclosed : ¬ closer <:+: body)
  deriving DecidableEq

/-- Literal text, and any number of directives with literal text after each. -/
structure Template where
  first : Literal
  rest : List (Directive × Literal)
  deriving DecidableEq

namespace Literal

/-- A character as it stands in a quoted string of the script.  A newline also
splits the statement. -/
def escape (w : Wrappers) (c : Char) : List Char :=
  if c = '"' then ['\\', '"']
  else if c = '\n' then ['\\', 'n'] ++ w.outputEnd.toList ++ w.outputStart.toList
  else [c]

/-- The statement that writes the text out. -/
def statement (w : Wrappers) (l : Literal) : List Char :=
  w.outputStart.toList ++ l.text.flatMap (escape w) ++ w.outputEnd.toList

end Literal

namespace Directive

/-- What stands between the marks. -/
def inside : Directive → List Char
  | .code body _ _ => body
  | .expression body _ => '=' :: body

/-- The directive in a template. -/
def source (d : Directive) : List Char := opener ++ d.inside ++ closer

/-- The directive in the script: code as it is, an expression in its wrappers. -/
def script (w : Wrappers) : Directive → List Char
  | .code body _ _ => body
  | .expression body _ => w.exprStart.toList ++ body ++ w.exprEnd.toList

end Directive

namespace Template

/-- The text of a template. -/
def source (t : Template) : List Char :=
  t.first.text ++ t.rest.flatMap fun part => part.1.source ++ part.2.text

/-- The statement of the text before the first directive.  A template that
begins with a directive has none. -/
def opening (w : Wrappers) (t : Template) : List Char :=
  if t.first.text = [] ∧ t.rest ≠ [] then [] else t.first.statement w

/-- The script of a template. -/
def script (w : Wrappers) (t : Template) : List Char :=
  t.opening w ++ t.rest.flatMap fun part => part.1.script w ++ part.2.statement w

end Template

/-! ## The parts are determined by the source -/

namespace Directive

/-- The equals sign of an expression is no part of a mark. -/
theorem inside_unclosed (d : Directive) : ¬ closer <:+: d.inside := by
  cases d with
  | code body unclosed plain => exact unclosed
  | expression body unclosed =>
    intro occurs
    rcases List.infix_cons_iff.mp occurs with front | later
    · exact absurd (List.cons_prefix_cons.mp front).1 (by decide)
    · exact unclosed later

/-- The kind of a directive is told by what stands between its marks. -/
theorem inside_injective {d e : Directive} (same : d.inside = e.inside) : d = e := by
  cases d with
  | code body unclosed plain =>
    cases e with
    | code body' unclosed' plain' =>
      change body = body' at same
      subst same
      rfl
    | expression body' unclosed' =>
      change body = '=' :: body' at same
      exact absurd (by rw [same]; rfl) plain
  | expression body unclosed =>
    cases e with
    | code body' unclosed' plain' =>
      change '=' :: body = body' at same
      exact absurd (by rw [← same]; rfl) plain'
    | expression body' unclosed' =>
      change '=' :: body = '=' :: body' at same
      cases same
      rfl

/-- Every text without a closing mark is the inside of a directive. -/
theorem exists_inside_eq {text : List Char} (unclosed : ¬ closer <:+: text) :
    ∃ d : Directive, d.inside = text := by
  by_cases plain : text.head? = some '='
  · rcases List.head?_eq_some_iff.mp plain with ⟨body, rfl⟩
    exact ⟨.expression body fun occurs => unclosed (List.infix_cons occurs), rfl⟩
  · exact ⟨.code text unclosed plain, rfl⟩

end Directive

namespace Template

/-- A template is a first text, and if anything follows it, a directive and a
template whose first text stands behind that directive. -/
theorem source_cons (first : Literal) (d : Directive) (l : Literal)
    (rest : List (Directive × Literal)) :
    source ⟨first, (d, l) :: rest⟩ =
      first.text ++ '<' :: '%' :: (d.inside ++ '%' :: '>' :: source ⟨l, rest⟩) := by
  simp [source, Directive.source, opener, closer]

theorem source_nil (first : Literal) : source ⟨first, []⟩ = first.text := by
  simp [source]

/-- A source with a directive in it is no literal text. -/
theorem opener_infix_source_cons (first : Literal) (part : Directive × Literal)
    (rest : List (Directive × Literal)) : opener <:+: source ⟨first, part :: rest⟩ := by
  rw [source_cons]
  exact ⟨first.text, _, by rw [opener, List.append_assoc]; rfl⟩

/-- Two templates with the same source are the same, part by part. -/
theorem source_injective {t u : Template} (same : t.source = u.source) : t = u := by
  rcases t with ⟨first, rest⟩
  rcases u with ⟨first', rest'⟩
  induction rest generalizing first first' rest' with
  | nil =>
    cases rest' with
    | nil =>
      rw [source_nil, source_nil] at same
      rcases first with ⟨text, unopened⟩
      rcases first' with ⟨text', unopened'⟩
      change text = text' at same
      subst same
      rfl
    | cons part rest' =>
      rw [source_nil] at same
      exact absurd (same ▸ opener_infix_source_cons first' part rest') first.unopened
  | cons part rest ih =>
    cases rest' with
    | nil =>
      rw [source_nil first'] at same
      exact absurd (same ▸ opener_infix_source_cons first part rest) first'.unopened
    | cons part' rest' =>
      rcases part with ⟨d, l⟩
      rcases part' with ⟨d', l'⟩
      rw [source_cons, source_cons] at same
      rcases eq_of_first_mark (by decide) first.unopened first'.unopened same with
        ⟨sameFirst, behindOpener⟩
      rcases eq_of_first_mark (by decide) d.inside_unclosed d'.inside_unclosed behindOpener with
        ⟨sameInside, behindCloser⟩
      have sameRest := ih l l' rest' behindCloser
      rcases first with ⟨text, unopened⟩
      rcases first' with ⟨text', unopened'⟩
      change text = text' at sameFirst
      subst sameFirst
      cases sameRest
      rw [Directive.inside_injective sameInside]

/-! ## Every text is a template or breaks off in a directive -/

/-- A text that follows a template up to an opening mark that is never closed. -/
def BreaksOff (t : Template) (rest text : List Char) : Prop :=
  text = t.source ++ opener ++ rest ∧ ¬ closer <:+: rest

theorem exists_source_or_breaksOff (text : List Char) :
    (∃ t : Template, t.source = text) ∨ ∃ t rest, BreaksOff t rest text := by
  -- What stands behind the first directive is shorter.
  induction size : text.length using Nat.strong_induction_on generalizing text with
  | _ n ih =>
    by_cases opened : opener <:+: text
    · rcases exists_first_mark opened with ⟨before, behind, split, unopened⟩
      by_cases closed : closer <:+: behind
      · rcases exists_first_mark closed with ⟨inside, after, splitBehind, unclosed⟩
        rcases Directive.exists_inside_eq unclosed with ⟨d, rfl⟩
        have shorter : after.length < n := by
          rw [← size, split, splitBehind]
          simp only [List.length_append, List.length_cons]
          omega
        rcases ih after.length shorter after rfl with
          ⟨⟨l, parts⟩, source⟩ | ⟨⟨l, parts⟩, rest, broken, never⟩
        · refine .inl ⟨⟨⟨before, unopened⟩, (d, l) :: parts⟩, ?_⟩
          rw [source_cons, source, split, splitBehind]
        · refine .inr ⟨⟨⟨before, unopened⟩, (d, l) :: parts⟩, rest, ?_, never⟩
          rw [source_cons, split, splitBehind, broken]
          simp only [List.append_assoc, List.cons_append]
      · refine .inr ⟨⟨⟨before, unopened⟩, []⟩, behind, ?_, closed⟩
        rw [source_nil, split, opener, List.append_assoc]
        rfl
    · exact .inl ⟨⟨⟨text, opened⟩, []⟩, source_nil _⟩

end Template

end TemplateScript

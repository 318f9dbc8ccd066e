import TemplateScript.Proofs.Traces

namespace TemplateScript

/-!
# Templates that are put together around a directive

Two templates with a directive between them are a template, and its script is
put together from theirs.  The two ends of a template are treated differently:
text at the beginning of a template gets a statement only if there is some, but
text behind a directive always gets one.  So a first template that is empty
drops out, and a second one that begins with a directive is preceded by an empty
statement.

If the second text is no template, the whole is none either, for the same reason
and at the same place, counted from where the second text begins.
-/

namespace Template

/-- A template, a directive behind it, and another template behind that. -/
def join (t : Template) (d : Directive) (u : Template) : Template :=
  ⟨t.first, t.rest ++ (d, u.first) :: u.rest⟩

theorem source_join (t : Template) (d : Directive) (u : Template) :
    (t.join d u).source = t.source ++ d.source ++ u.source := by
  simp [source, join]

/-- Only a template that is empty up to a directive has no statement before it. -/
theorem opening_eq_ite (w : Wrappers) (t : Template) :
    t.opening w = if t.first.text = [] ∧ t.rest ≠ [] then [] else t.first.statement w := rfl

/-- The first script stays as it is, unless there is nothing in its template. -/
theorem script_join (w : Wrappers) (t : Template) (d : Directive) (u : Template) :
    (t.join d u).script w =
      (if t.source = [] then [] else t.script w) ++ d.script w ++
        (u.first.statement w ++ u.rest.flatMap fun part => part.1.script w ++ part.2.statement w) := by
  have opened : (t.join d u).opening w =
      if t.first.text = [] then [] else t.first.statement w := by
    simp [opening, join]
  rw [script, opened, script, opening_eq_ite]
  rcases t with ⟨first, rest⟩
  cases rest with
  | nil =>
    have source : source ⟨first, []⟩ = first.text := source_nil first
    rw [source]
    by_cases empty : first.text = []
    · simp [empty, join]
    · simp [empty, join]
  | cons part rest =>
    have source : source ⟨first, part :: rest⟩ ≠ [] := by
      rw [source_cons]
      simp
    rw [if_neg source]
    simp [join]

/-- A source begins with an opening mark exactly if no text stands before the
first directive. -/
theorem opener_prefix_source_iff (t : Template) :
    opener <+: t.source ↔ t.first.text = [] ∧ t.rest ≠ [] := by
  rcases t with ⟨first, rest⟩
  constructor
  · rintro ⟨behind, same⟩
    cases rest with
    | nil =>
      rw [source_nil] at same
      exact absurd (same ▸ List.infix_append [] opener behind) first.unopened
    | cons part rest =>
      rw [source_cons] at same
      have front : [] ++ '<' :: '%' :: behind = _ := same
      have parts := eq_of_first_mark (by decide) (by simp) first.unopened front
      exact ⟨parts.1.symm, by simp⟩
  · rintro ⟨empty, nonempty⟩
    cases rest with
    | nil => exact absurd rfl nonempty
    | cons part rest =>
      change first.text = [] at empty
      rw [source_cons, empty]
      exact ⟨_, rfl⟩

/-- Text behind a directive gets a statement, also if it is empty. -/
theorem statement_append_eq (w : Wrappers) (u : Template) :
    (u.first.statement w ++ u.rest.flatMap fun part => part.1.script w ++ part.2.statement w) =
      (if opener <+: u.source then w.outputStart.toList ++ w.outputEnd.toList else []) ++
        u.script w := by
  simp only [opener_prefix_source_iff, script, opening_eq_ite]
  split_ifs with empty
  · simp [Literal.statement, empty.1]
  · rfl

theorem BreaksOff.join {u : Template} {rest text : List Char} (broken : u.BreaksOff rest text)
    (t : Template) (d : Directive) :
    (t.join d u).BreaksOff rest (t.source ++ d.source ++ text) := by
  refine ⟨?_, broken.2⟩
  rw [source_join, broken.1]
  simp

end Template

/-! ## Places -/

namespace Position

/-- A place that is counted from another one instead of from the beginning. -/
def counted (p q : Position) : Position :=
  ⟨p.line + (q.line - 1), if 1 < q.line then q.column else p.column + (q.column - 1)⟩

theorem one_le_advanceAll_origin (text : List Char) :
    1 ≤ (origin.advanceAll text).line ∧ 1 ≤ (origin.advanceAll text).column := by
  rw [advanceAll_origin]
  exact ⟨Nat.le_add_right 1 _, Nat.le_add_right 1 _⟩

theorem counted_advance (p : Position) {q : Position} (line : 1 ≤ q.line) (column : 1 ≤ q.column)
    (c : Char) : (p.counted q).advance c = p.counted (q.advance c) := by
  by_cases newline : c = '\n'
  · simp only [advance, counted, if_pos newline]
    rw [if_pos (by omega)]
    congr 1
    omega
  · simp only [advance, counted, if_neg newline]
    split_ifs
    · rfl
    · congr 1
      omega

/-- A text leads from a place to where it leads from the beginning, counted from
that place. -/
theorem advanceAll_eq_counted (p : Position) (text : List Char) :
    p.advanceAll text = p.counted (origin.advanceAll text) := by
  induction text using List.reverseRecOn with
  | nil => simp [counted, origin]
  | append_singleton text c ih =>
    rcases one_le_advanceAll_origin text with ⟨line, column⟩
    rw [advanceAll_append, advanceAll_append, ih]
    exact counted_advance p line column c

end Position

namespace Scan

theorem count_newline_normalize (text : List Char) :
    (normalize text).count '\n' = text.count '\n' := by
  unfold normalize
  rw [List.count_filter]
  decide

/-- A carriage return does not end a line. -/
theorem rtakeWhile_normalize (text : List Char) :
    ((normalize text).rtakeWhile fun c => c ≠ '\n') =
      normalize (text.rtakeWhile fun c => c ≠ '\n') := by
  induction text using List.reverseRecOn with
  | nil => rfl
  | append_singleton text c ih =>
    rw [normalize_append, List.rtakeWhile_concat]
    by_cases carriage : c = '\r'
    · subst carriage
      have dropped : normalize ['\r'] = [] := by decide
      rw [if_pos (by decide), normalize_append, dropped, List.append_nil, List.append_nil]
      exact ih
    · have kept : normalize [c] = [c] := by simp [normalize, carriage]
      rw [kept, List.rtakeWhile_concat]
      by_cases newline : c = '\n'
      · rw [if_neg (by simp [newline]), if_neg (by simp [newline])]
        rfl
      · rw [if_pos (by simp [newline]), if_pos (by simp [newline]), normalize_append, kept, ih]

theorem normalize_eq_nil_iff (text : List Char) :
    normalize text = [] ↔ text.all (· = '\r') := by
  simp [normalize, List.filter_eq_nil_iff]

end Scan

namespace Wrappers

open Scan

theorem exists_source_of_ok {w : Wrappers} {text : List Char} {script : String}
    (succeeds : (w.transpile text).result = .ok script) :
    ∃ t : Template, t.source = normalize text ∧ script = String.ofList (t.script w) := by
  rcases Template.exists_source_or_breaksOff (normalize text) with ⟨t, source⟩ | ⟨t, rest, broken⟩
  · rw [w.transpile_source source] at succeeds
    exact ⟨t, source, (Except.ok.inj succeeds).symm⟩
  · rw [w.transpile_breaksOff broken] at succeeds
    cases succeeds

theorem exists_breaksOff_of_error {w : Wrappers} {text : List Char} {failure : Failure}
    (fails : (w.transpile text).result = .error failure) :
    ∃ (t : Template) (rest : List Char), t.BreaksOff rest (normalize text) ∧
      failure = .malformedTemplate
        (if rest.head? = some '=' then .unterminatedExpression else .unterminatedCode)
        (Position.origin.advanceAll t.source) := by
  rcases Template.exists_source_or_breaksOff (normalize text) with ⟨t, source⟩ | ⟨t, rest, broken⟩
  · rw [w.transpile_source source] at fails
    cases fails
  · rw [w.transpile_breaksOff broken, ← Position.advanceAll_origin] at fails
    exact ⟨t, rest, broken, (Except.error.inj fails).symm⟩

/-- A text around a directive is a template if both its parts are, and its script
is put together from theirs.  If the second part is no template, the failure is
that of the second part, with its place counted in the whole. -/
theorem transpile_around_directive (w : Wrappers) (before inserted after : List Char)
    (d : Directive) (directive : normalize inserted = d.source) (script : String)
    (succeeds : (w.transpile before).result = .ok script) :
    (∀ rest : String, (w.transpile after).result = .ok rest →
      (w.transpile (before ++ inserted ++ after)).result =
        .ok ((if before.all (· = '\r') then "" else script) ++ String.ofList (d.script w) ++
          ((if opener <+: normalize after then w.outputStart ++ w.outputEnd else "") ++ rest))) ∧
    ∀ failure : Failure, (w.transpile after).result = .error failure →
      ∃ (reason : Malformation) (line column : Nat),
        failure = .malformedTemplate reason ⟨line, column⟩ ∧
        (w.transpile (before ++ inserted ++ after)).result =
          .error (.malformedTemplate reason
            ⟨line + (before ++ inserted).count '\n',
              if 1 < line then column
              else column +
                (normalize ((before ++ inserted).rtakeWhile fun c => c ≠ '\n')).length⟩) := by
  rcases exists_source_of_ok succeeds with ⟨t, source, rfl⟩
  have front : normalize (before ++ inserted) = t.source ++ d.source := by
    rw [normalize_append, source, directive]
  constructor
  · intro rest alsoSucceeds
    rcases exists_source_of_ok alsoSucceeds with ⟨u, sourceAfter, rfl⟩
    have whole : (t.join d u).source = normalize (before ++ inserted ++ after) := by
      rw [normalize_append, front, ← sourceAfter, Template.source_join]
    rw [w.transpile_source whole, Template.script_join, Template.statement_append_eq]
    simp only [← normalize_eq_nil_iff, ← source, ← sourceAfter]
    split_ifs <;> simp [String.ofList_append, String.append_assoc]
  · intro failure fails
    rcases exists_breaksOff_of_error fails with ⟨u, rest, broken, rfl⟩
    have whole : (t.join d u).BreaksOff rest (normalize (before ++ inserted ++ after)) := by
      rw [normalize_append, front]
      exact broken.join t d
    rcases Position.one_le_advanceAll_origin u.source with ⟨oneLine, oneColumn⟩
    refine ⟨_, (Position.origin.advanceAll u.source).line,
      (Position.origin.advanceAll u.source).column, rfl, ?_⟩
    rw [w.transpile_breaksOff whole, ← Position.advanceAll_origin, Template.source_join,
      Position.advanceAll_append, Position.advanceAll_eq_counted, ← front,
      Position.advanceAll_origin (normalize (before ++ inserted)), count_newline_normalize,
      rtakeWhile_normalize]
    congr 2
    simp only [Position.counted, Position.mk.injEq]
    constructor
    · omega
    · split_ifs
      · rfl
      · omega

theorem transpile_around_directive_behind_tag :
    let w : Wrappers := ⟨"[", "]", "(", ")"⟩
    let before := "a\n<\r".toList
    let inserted := "<\r%=x%%>".toList
    (w.transpile before).result = .ok "[a\\n][<]" ∧
      (w.transpile "<%y%>".toList).result = .ok "y[]" ∧
      (w.transpile (before ++ inserted ++ "<%y%>".toList)).result = .ok "[a\\n][<](x%)[]y[]" ∧
      (w.transpile "<%y".toList).result = .error (.malformedTemplate .unterminatedCode ⟨1, 1⟩) ∧
      (w.transpile (before ++ inserted ++ "<%y".toList)).result =
        .error (.malformedTemplate .unterminatedCode ⟨2, 9⟩) := by
  intro w before inserted
  have directive : normalize inserted = (Directive.expression ['x', '%'] (by decide)).source := rfl
  have first : (w.transpile before).result = .ok "[a\\n][<]" := by decide +kernel
  have second : (w.transpile "<%y%>".toList).result = .ok "y[]" := by decide +kernel
  have broken : (w.transpile "<%y".toList).result =
      .error (.malformedTemplate .unterminatedCode ⟨1, 1⟩) := by decide +kernel
  have joined := (transpile_around_directive w before inserted _ _ directive _ first).1 _ second
  rcases (transpile_around_directive w before inserted _ _ directive _ first).2 _ broken with
    ⟨reason, line, column, same, failed⟩
  cases same
  exact ⟨first, second, joined.trans (by decide +kernel), broken, failed⟩

end Wrappers

end TemplateScript

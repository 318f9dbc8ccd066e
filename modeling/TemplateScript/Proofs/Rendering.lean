import Mathlib.Data.List.DropRight
import TemplateScript.Proofs.Regions

namespace TemplateScript

/-!
# Templates and their scripts

A scan gives a script exactly for the texts that are templates, and the script
is the one of the template's parts.  All other texts break off in a directive;
for these the scan reports the kind of the directive and the place where it was
opened.

Both results come from following a scan over the parts of a template.  The
beginning of a template needs care: its first statement is opened only when
there is something to put into it.
-/

namespace Scan

theorem expand_literal (w : Wrappers) (text : List Char) :
    Token.expand w (text.flatMap Region.literal.emit) = text.flatMap (Literal.escape w) := by
  induction text with
  | nil => rfl
  | cons c text ih =>
    have here : Token.expand w (Region.literal.emit c) = Literal.escape w c := by
      by_cases quote : c = '"' <;> by_cases newline : c = '\n' <;>
        simp [Region.emit, Literal.escape, quote, newline, Token.text, Wrappers.get]
    rw [List.flatMap_cons, Token.expand_append, here, ih, List.flatMap_cons]

theorem expand_body (w : Wrappers) {r : Region} (directive : r ≠ .literal) (text : List Char) :
    Token.expand w (text.flatMap r.emit) = text := by
  have plain : r.emit = fun c => [.char c] := by
    cases r with
    | literal => exact absurd rfl directive
    | code => rfl
    | expression => rfl
  induction text with
  | nil => rfl
  | cons c text ih =>
    rw [List.flatMap_cons, Token.expand_append, ih, plain]
    rfl

namespace Outline

/-- The text of what is written and due. -/
def outputText (w : Wrappers) (p : Outline) : List Char := Token.expand w p.output

/-- The script up to a directive that is opened now.  At the beginning of a
template there is no statement to be closed. -/
def textBeforeDirective (w : Wrappers) (p : Outline) : List Char :=
  if p.state = .start then Token.expand w p.written.toList
  else p.outputText w ++ w.outputEnd.toList

theorem outputText_of_settled (w : Wrappers) {p : Outline} (settled : p.state.due = []) :
    p.outputText w = Token.expand w p.written.toList := by
  rw [outputText, output, settled, List.append_nil]

theorem outputText_stays (w : Wrappers) {r : Region} {p q : Outline} {text : List Char}
    (stays : Stays r p q text) :
    q.outputText w = p.outputText w ++ Token.expand w (text.flatMap r.emit) := by
  rw [outputText, stays.output, Token.expand_append]
  rfl

theorem expand_opens (w : Wrappers) {p q : Outline} (opens : Opens p q) :
    Token.expand w q.written.toList = p.textBeforeDirective w := by
  rw [opens.written, textBeforeDirective]
  split_ifs
  · rfl
  · rw [Token.expand_append]
    simp only [outputText, Token.expand_cons, Token.expand_nil, Token.text, Wrappers.get,
      List.append_nil]

theorem expand_closes (w : Wrappers) {r : Region} {p q : Outline} (closes : Closes r p q) :
    Token.expand w q.written.toList = p.outputText w ++ Token.expand w r.closing := by
  rw [closes.written, Token.expand_append]
  rfl

/-- The body of a directive, from a state that holds nothing, and its closing mark. -/
theorem feedAll_body (w : Wrappers) {r : Region} (directive : r ≠ .literal) {p : Outline}
    {body : List Char} (inside : p.state.region? = some r) (holdsNothing : p.state.held = [])
    (settled : p.state.due = []) (unclosed : ¬ closer <:+: body)
    (plain : p.state = .directiveOpened → body.head? ≠ some '=') :
    (p.feedAll (body ++ closer)).state = .literal ∧
      Token.expand w (p.feedAll (body ++ closer)).written.toList =
        Token.expand w p.written.toList ++ body ++ Token.expand w r.closing := by
  have unmarked : ¬ r.mark <:+: p.state.held ++ body := by
    rw [holdsNothing]
    cases r with
    | literal => exact absurd rfl directive
    | code => exact unclosed
    | expression => exact unclosed
  have stays := feedAll_stays inside unmarked plain
  have closes := feedAll_closer stays.region directive
  rw [feedAll_append]
  refine ⟨closes.state, ?_⟩
  rw [expand_closes w closes, outputText_stays w stays, outputText_of_settled w settled,
    expand_body w directive]

theorem feedAll_directive (w : Wrappers) (d : Directive) {p : Outline}
    (inside : p.state.region? = some .literal) :
    (p.feedAll d.source).state = .literal ∧
      Token.expand w (p.feedAll d.source).written.toList =
        p.textBeforeDirective w ++ d.script w ++ w.outputStart.toList := by
  have opens := feedAll_opener inside
  rw [Directive.source, List.append_assoc, feedAll_append, ← expand_opens w opens]
  generalize p.feedAll opener = q at opens
  cases d with
  | code body unclosed plain =>
    have result := feedAll_body w (r := .code) Region.noConfusion (p := q)
      (by rw [opens.state]; rfl) (by rw [opens.state]; rfl) (by rw [opens.state]; rfl)
      unclosed (fun _ => plain)
    refine ⟨result.1, ?_⟩
    rw [Directive.inside, result.2]
    simp [Region.closing, Directive.script, Token.text, Wrappers.get]
  | expression body unclosed =>
    rcases feed_equals opens.state with ⟨state, written, -, -⟩
    have result := feedAll_body w (r := .expression) Region.noConfusion (p := q.feed '=')
      (by rw [state]; rfl) (by rw [state]; rfl) (by rw [state]; rfl)
      unclosed (by rw [state]; exact State.noConfusion)
    refine ⟨result.1, ?_⟩
    rw [Directive.inside, List.cons_append, feedAll_cons, result.2, written]
    simp [Region.closing, Directive.script, Token.text, Wrappers.get]

/-- Literal text behind a closing mark. -/
theorem feedAll_literal (l : Literal) {p : Outline} (state : p.state = .literal) :
    Stays .literal p (p.feedAll l.text) l.text := by
  apply feedAll_stays
  · rw [state]
    rfl
  · rw [state]
    exact l.unopened
  · rw [state]
    exact State.noConfusion

/-- A directive and the literal text behind it. -/
theorem feedAll_part (w : Wrappers) (d : Directive) (l : Literal) {p : Outline}
    (inside : p.state.region? = some .literal) :
    (p.feedAll (d.source ++ l.text)).state.region? = some .literal ∧
      (p.feedAll (d.source ++ l.text)).state ≠ .start ∧
      (p.feedAll (d.source ++ l.text)).outputText w ++ w.outputEnd.toList =
        p.textBeforeDirective w ++ d.script w ++ l.statement w := by
  rcases feedAll_directive w d inside with ⟨state, written⟩
  have stays := feedAll_literal l state
  have started : (p.feedAll (d.source ++ l.text)).state ≠ .start := by
    apply state_feedAll_ne_start
    simp [Directive.source, opener]
  refine ⟨by rw [feedAll_append]; exact stays.region, started, ?_⟩
  rw [feedAll_append, outputText_stays w stays, outputText_of_settled w (by rw [state]; rfl),
    written, expand_literal]
  simp only [Literal.statement, List.append_assoc]

/-- The parts of a template behind its first literal text. -/
theorem feedAll_parts (w : Wrappers) (parts : List (Directive × Literal)) {p : Outline}
    (inside : p.state.region? = some .literal) (started : p.state ≠ .start) :
    let q := p.feedAll (parts.flatMap fun part => part.1.source ++ part.2.text)
    q.state.region? = some .literal ∧
      q.outputText w ++ w.outputEnd.toList =
        p.outputText w ++ w.outputEnd.toList ++
          parts.flatMap fun part => part.1.script w ++ part.2.statement w := by
  intro q
  induction parts generalizing p with
  | nil => exact ⟨inside, (List.append_nil _).symm⟩
  | cons part parts ih =>
    rcases feedAll_part w part.1 part.2 inside with ⟨region, moved, text⟩
    have rest := ih region moved
    have split : q = (p.feedAll (part.1.source ++ part.2.text)).feedAll
        (parts.flatMap fun part => part.1.source ++ part.2.text) := feedAll_append ..
    rw [split]
    refine ⟨rest.1, ?_⟩
    rw [rest.2, text, textBeforeDirective, if_neg started]
    simp only [List.flatMap_cons, List.append_assoc]

/-- A whole template ends in literal text, with its script as what is written and
due, up to the closing of the last statement. -/
theorem feedAll_source (w : Wrappers) (t : Template) :
    (({} : Outline).feedAll t.source).state.region? = some .literal ∧
      (({} : Outline).feedAll t.source).outputText w ++ w.outputEnd.toList = t.script w := by
  rcases t with ⟨first, parts⟩
  have stays : Stays .literal {} (({} : Outline).feedAll first.text) first.text :=
    feedAll_stays rfl first.unopened State.noConfusion
  have begun : (({} : Outline).feedAll first.text).outputText w ++ w.outputEnd.toList =
      first.statement w := by
    rw [outputText_stays w stays, expand_literal]
    simp [outputText, output, State.due, Token.text, Wrappers.get, Literal.statement]
  rw [Template.source, feedAll_append, Template.script, Template.opening]
  by_cases empty : first.text = []
  · cases parts with
    | nil =>
      refine ⟨stays.region, ?_⟩
      simpa using begun
    | cons part parts =>
      -- The first directive is met before any statement is opened.
      rcases feedAll_part w part.1 part.2 (p := {}) rfl with ⟨region, started, text⟩
      have rest := feedAll_parts w parts region started
      rw [empty, feedAll_nil, List.flatMap_cons, feedAll_append]
      refine ⟨rest.1, ?_⟩
      rw [rest.2, text]
      simp [textBeforeDirective]
  · have rest := feedAll_parts w parts stays.region (state_feedAll_ne_start _ empty)
    refine ⟨rest.1, ?_⟩
    rw [rest.2, begun, if_neg (fun both => empty both.1)]

/-- After an opening mark that is not closed, the scan is in a directive whose kind
is told by the next character.  It remembers where the mark stands, and it has
noted this mark and no other. -/
theorem feedAll_unclosed {p : Outline} (inside : p.state.region? = some .literal)
    {rest : List Char} (unclosed : ¬ closer <:+: rest) :
    let q := p.feedAll (opener ++ rest)
    q.state.region? = some (if rest.head? = some '=' then .expression else .code) ∧
      q.tag = p.position ∧ q.openers = p.openers.push (p.position.advance '<') := by
  intro q
  have opens := feedAll_opener inside
  have split : q = (p.feedAll opener).feedAll rest := feedAll_append ..
  rw [split, ← opens.openers, ← opens.tag]
  generalize p.feedAll opener = opened at opens
  by_cases equals : rest.head? = some '='
  · rcases List.head?_eq_some_iff.mp equals with ⟨body, rfl⟩
    rcases feed_equals opens.state with ⟨state, -, tag, openers⟩
    have stays : Stays .expression (opened.feed '=') ((opened.feed '=').feedAll body) body := by
      apply feedAll_stays
      · rw [state]
        rfl
      · rw [state]
        exact fun occurs => unclosed (List.infix_cons occurs)
      · rw [state]
        exact State.noConfusion
    rw [if_pos equals]
    exact ⟨stays.region, (stays.tag Region.noConfusion).trans tag, stays.openers.trans openers⟩
  · have stays : Stays .code opened (opened.feedAll rest) rest := by
      apply feedAll_stays
      · rw [opens.state]
        rfl
      · rw [opens.state]
        exact unclosed
      · exact fun _ => equals
    rw [if_neg equals]
    exact ⟨stays.region, stays.tag Region.noConfusion, stays.openers⟩

end Outline

end Scan

/-! ## Places -/

/-- The place behind a text, counted in the text itself. -/
theorem Position.advanceAll_origin (text : List Char) :
    Position.origin.advanceAll text =
      ⟨1 + text.count '\n', 1 + (text.rtakeWhile fun c => c ≠ '\n').length⟩ := by
  induction text using List.reverseRecOn with
  | nil => rfl
  | append_singleton text c ih =>
    rw [Position.advanceAll_append, ih, List.count_append, List.rtakeWhile_concat]
    by_cases newline : c = '\n'
    · subst newline
      simp [Position.advance, Nat.add_assoc]
    · simp [Position.advance, newline, Nat.add_assoc]

namespace Wrappers

open Scan

/-! ## Exact results -/

theorem transpile_source (w : Wrappers) {text : List Char} {t : Template}
    (source : t.source = normalize text) :
    (w.transpile text).result = .ok (String.ofList (t.script w)) := by
  rcases Outline.feedAll_source w t with ⟨region, script⟩
  rw [transpile_result, Outline.script, outline, ← source,
    State.ending_literal region, ← script]
  simp [Outline.outputText, Outline.output, Token.text, Wrappers.get]

theorem transpile_breaksOff (w : Wrappers) {text rest : List Char} {t : Template}
    (broken : t.BreaksOff rest (normalize text)) :
    (w.transpile text).result = .error (.malformedTemplate
      (if rest.head? = some '=' then .unterminatedExpression else .unterminatedCode)
      ⟨1 + t.source.count '\n', 1 + (t.source.rtakeWhile fun c => c ≠ '\n').length⟩) := by
  rcases broken with ⟨split, unclosed⟩
  rcases Outline.feedAll_unclosed (Outline.feedAll_source w t).1 unclosed with ⟨region, tag, -⟩
  have place : Position.origin.advanceAll t.source = _ := Position.advanceAll_origin t.source
  rw [transpile_result, Outline.script, outline, split, List.append_assoc,
    Outline.feedAll_append]
  rw [Outline.position_feedAll, place] at tag
  by_cases equals : rest.head? = some '='
  · rw [if_pos equals] at region ⊢
    rw [State.ending_expression region]
    simp only [Outline.place, tag]
  · rw [if_neg equals] at region ⊢
    rw [State.ending_code region]
    simp only [Outline.place, tag]

/-- A text has a script exactly if it is a template.  The parts of a template are
determined by its text, and its script is put together from them. -/
theorem transpile_ok_iff_template (w : Wrappers) (text : List Char) :
    ((∃ script, (w.transpile text).result = .ok script) ↔
        ∃ t : Template, t.source = text.filter (· ≠ '\r')) ∧
      (∀ t u : Template, t.source = text.filter (· ≠ '\r') →
        u.source = text.filter (· ≠ '\r') → t = u) ∧
      ∀ t : Template, t.source = text.filter (· ≠ '\r') →
        (w.transpile text).result = .ok (String.ofList (t.script w)) := by
  refine ⟨⟨?_, ?_⟩, ?_, fun t source => w.transpile_source source⟩
  · rintro ⟨script, succeeds⟩
    rcases Template.exists_source_or_breaksOff (normalize text) with found | ⟨t, rest, broken⟩
    · exact found
    · rw [w.transpile_breaksOff broken] at succeeds
      cases succeeds
  · rintro ⟨t, source⟩
    exact ⟨_, w.transpile_source source⟩
  · intro t u source alsoSource
    exact Template.source_injective (source.trans alsoSource.symm)

/-- A text has no script exactly if it breaks off in a directive.  The failure
tells the kind of the directive and the place of its opening mark; a character
without a rule is never met. -/
theorem transpile_error_iff_breaksOff (w : Wrappers) (text : List Char) (f : Failure) :
    ((w.transpile text).result = .error f ↔
        ∃ (t : Template) (rest : List Char), t.BreaksOff rest (text.filter (· ≠ '\r')) ∧
          f = .malformedTemplate
            (if rest.head? = some '=' then .unterminatedExpression else .unterminatedCode)
            ⟨1 + t.source.count '\n', 1 + (t.source.rtakeWhile fun c => c ≠ '\n').length⟩) ∧
      ∀ place, (w.transpile text).result ≠ .error (.malformedTemplate .noTransition place) := by
  refine ⟨⟨?_, ?_⟩, ?_⟩
  · intro fails
    rcases Template.exists_source_or_breaksOff (normalize text) with ⟨t, source⟩ | ⟨t, rest, broken⟩
    · rw [w.transpile_source source] at fails
      cases fails
    · rw [w.transpile_breaksOff broken] at fails
      exact ⟨t, rest, broken, (Except.error.inj fails).symm⟩
  · rintro ⟨t, rest, broken, rfl⟩
    exact w.transpile_breaksOff broken
  · intro place fails
    rcases Template.exists_source_or_breaksOff (normalize text) with ⟨t, source⟩ | ⟨t, rest, broken⟩
    · rw [w.transpile_source source] at fails
      cases fails
    · rw [w.transpile_breaksOff broken] at fails
      split_ifs at fails <;> cases fails

end Wrappers

end TemplateScript

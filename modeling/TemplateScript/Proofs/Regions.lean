import TemplateScript.Proofs.Outlines
import TemplateScript.Proofs.Template

namespace TemplateScript
namespace Scan

/-!
# The regions of a template

Every state but the invalid one stands in one of three regions: literal text,
code, or an expression.  A region is left by its mark and by nothing else, so a
scan is followed region by region.

The first character of a mark is not written before the next one is known, and
neither is the beginning of the first statement.  What is written at a given
moment is therefore not a function of the text so far; what is written together
with what is due is.  All statements below are about that sum.
-/

/-- A kind of text that a template consists of. -/
inductive Region where
  | literal
  | code
  | expression
  deriving DecidableEq

namespace Region

/-- The mark that ends a region. -/
def mark : Region → List Char
  | .literal => opener
  | .code | .expression => closer

/-- What a character of a region comes to in the script. -/
def emit : Region → Char → List Token
  | .literal, c =>
    if c = '"' then [.char '\\', .char '"']
    else if c = '\n' then
      [.char '\\', .char 'n', .slot .outputEnd, .slot .outputStart]
    else [.char c]
  | .code, c | .expression, c => [.char c]

/-- What stands in the script at the end of a directive's body. -/
def closing : Region → List Token
  | .literal => []
  | .code => [.slot .outputStart]
  | .expression => [.slot .exprEnd, .slot .outputStart]

end Region

namespace State

/-- The region that a state stands in. -/
def region? : State → Option Region
  | .start | .literal | .tagPending | .firstTagPending => some .literal
  | .directiveOpened | .code | .codeClosePending => some .code
  | .expression | .expressionClosePending => some .expression
  | .invalid => none

/-- The character that may turn out to begin a mark. -/
def held : State → List Char
  | .tagPending | .firstTagPending => ['<']
  | .codeClosePending | .expressionClosePending => ['%']
  | _ => []

/-- What has to be written before anything else of the region is. -/
def due : State → List Token
  | .start => [.slot .outputStart]
  | .firstTagPending => [.slot .outputStart, .char '<']
  | .tagPending => [.char '<']
  | .codeClosePending | .expressionClosePending => [.char '%']
  | _ => []

theorem holdsTag_of_directive {s : State} {r : Region} (inside : s.region? = some r)
    (directive : r ≠ .literal) : s.holdsTag = false := by
  cases r with
  | literal => exact absurd rfl directive
  | code => cases s <;> cases inside <;> rfl
  | expression => cases s <;> cases inside <;> rfl

/-- At the end of literal text its statement is closed. -/
theorem ending_literal {s : State} (inside : s.region? = some .literal) :
    s.ending = .ok (s.due ++ [.slot .outputEnd]) := by
  cases s <;> cases inside <;> rfl

theorem ending_code {s : State} (inside : s.region? = some .code) :
    s.ending = .error .unterminatedCode := by
  cases s <;> cases inside <;> rfl

theorem ending_expression {s : State} (inside : s.region? = some .expression) :
    s.ending = .error .unterminatedExpression := by
  cases s <;> cases inside <;> rfl

end State

/-! ## One character -/

/-- A move that reads `c` inside a region, with the tokens `owed` from before. -/
structure Move.Inside (r : Region) (owed : List Token) (c : Char) (m : Move) : Prop where
  region : m.next.region? = some r
  output : m.written ++ m.next.due = owed ++ r.emit c
  /-- Only the character itself may begin a mark. -/
  held : m.next.held = [] ∨ m.next.held = [c]
  notOpening : m.next ≠ .directiveOpened

namespace Move.Inside

variable {r : Region} {owed : List Token} {c : Char} {m : Move}

theorem writingFirst (inside : m.Inside r [] c) (tokens : List Token) :
    (m.writingFirst tokens).Inside r tokens c where
  region := inside.region
  output := by
    rw [written_writingFirst, next_writingFirst, List.append_assoc, inside.output]
    rfl
  held := inside.held
  notOpening := inside.notOpening

end Move.Inside

theorem literalMove_inside (c : Char) : (literalMove c).Inside .literal [] c := by
  unfold literalMove
  by_cases tag : c = '<'
  · subst tag
    exact ⟨rfl, rfl, .inr rfl, State.noConfusion⟩
  · rw [if_neg tag]
    by_cases newline : c = '\n'
    · subst newline
      exact ⟨rfl, rfl, .inl rfl, State.noConfusion⟩
    · rw [if_neg newline]
      by_cases quote : c = '"'
      · subst quote
        exact ⟨rfl, rfl, .inl rfl, State.noConfusion⟩
      · rw [if_neg quote]
        refine ⟨rfl, ?_, .inl rfl, State.noConfusion⟩
        simp only [Region.emit, if_neg quote, if_neg newline]
        rfl

theorem codeMove_inside (c : Char) : (codeMove c).Inside .code [] c := by
  unfold codeMove
  by_cases percent : c = '%'
  · subst percent
    exact ⟨rfl, rfl, .inr rfl, State.noConfusion⟩
  · rw [if_neg percent]
    exact ⟨rfl, rfl, .inl rfl, State.noConfusion⟩

theorem expressionMove_inside (c : Char) : (expressionMove c).Inside .expression [] c := by
  unfold expressionMove
  by_cases percent : c = '%'
  · subst percent
    exact ⟨rfl, rfl, .inr rfl, State.noConfusion⟩
  · rw [if_neg percent]
    exact ⟨rfl, rfl, .inl rfl, State.noConfusion⟩

/-- A held character and the one that completes its mark are a mark. -/
theorem ne_of_unmarked {x y c : Char} (unmarked : ¬ [x, y] <:+: [x] ++ [c]) : c ≠ y := by
  intro same
  subst same
  exact unmarked (List.infix_refl [x, c])

/-- A character that does not complete the mark of a region is read inside it.
After `<%` an equals sign is a case of its own. -/
theorem State.move_inside {s : State} {r : Region} {c : Char} (inside : s.region? = some r)
    (unmarked : ¬ r.mark <:+: s.held ++ [c]) (plain : s = .directiveOpened → c ≠ '=') :
    (s.move c).Inside r s.due c := by
  cases s with
  | start =>
    cases inside
    by_cases tag : c = '<'
    · subst tag
      exact ⟨rfl, rfl, .inr rfl, State.noConfusion⟩
    · simp only [move, if_neg tag]
      exact (literalMove_inside c).writingFirst _
  | literal =>
    cases inside
    exact literalMove_inside c
  | tagPending =>
    cases inside
    simp only [move, if_neg (ne_of_unmarked unmarked)]
    exact (literalMove_inside c).writingFirst _
  | firstTagPending =>
    cases inside
    simp only [move, if_neg (ne_of_unmarked unmarked)]
    exact (literalMove_inside c).writingFirst _
  | directiveOpened =>
    cases inside
    simp only [move, if_neg (plain rfl)]
    exact codeMove_inside c
  | code =>
    cases inside
    exact codeMove_inside c
  | codeClosePending =>
    cases inside
    simp only [move, if_neg (ne_of_unmarked unmarked)]
    exact (codeMove_inside c).writingFirst _
  | expression =>
    cases inside
    exact expressionMove_inside c
  | expressionClosePending =>
    cases inside
    simp only [move, if_neg (ne_of_unmarked unmarked)]
    exact (expressionMove_inside c).writingFirst _
  | invalid => cases inside

/-- Nothing leads back to the beginning. -/
theorem State.move_next_ne_start (s : State) (c : Char) : (s.move c).next ≠ .start := by
  cases s with
  | invalid => exact State.noConfusion
  | _ =>
    simp only [move, literalMove, codeMove, expressionMove, Move.writingFirst]
    split_ifs <;> exact State.noConfusion

/-! ## A run of characters -/

namespace Outline

/-- The position moves on with the text, whatever the scan makes of it. -/
theorem position_feedAll (p : Outline) (cs : List Char) :
    (p.feedAll cs).position = p.position.advanceAll cs := by
  induction cs generalizing p with
  | nil => rfl
  | cons c cs ih =>
    rw [feedAll_cons, ih]
    rfl

/-- A scan that has read something has begun. -/
theorem state_feedAll_ne_start (p : Outline) {cs : List Char} (nonempty : cs ≠ []) :
    (p.feedAll cs).state ≠ .start := by
  induction cs generalizing p with
  | nil => exact absurd rfl nonempty
  | cons c cs ih =>
    rw [feedAll_cons]
    by_cases last : cs = []
    · subst last
      exact State.move_next_ne_start p.state c
    · exact ih (p.feed c) last

/-- What is written and what is due. -/
def output (p : Outline) : List Token := p.written.toList ++ p.state.due

/-- From `p` to `q` the scan reads `text` inside the region `r`. -/
structure Stays (r : Region) (p q : Outline) (text : List Char) : Prop where
  region : q.state.region? = some r
  output : q.output = p.output ++ text.flatMap r.emit
  /-- In a directive a `<` opens nothing. -/
  tag : r ≠ .literal → q.tag = p.tag
  openers : q.openers = p.openers

theorem Stays.trans {r : Region} {p q v : Outline} {front back : List Char}
    (first : Stays r p q front) (second : Stays r q v back) : Stays r p v (front ++ back) where
  region := second.region
  output := by
    rw [second.output, first.output, List.flatMap_append, List.append_assoc]
  tag := fun directive => (second.tag directive).trans (first.tag directive)
  openers := second.openers.trans first.openers

theorem feed_stays {r : Region} {p : Outline} {c : Char}
    (inside : (p.state.move c).Inside r p.state.due c) : Stays r p (p.feed c) [c] where
  region := inside.region
  output := by
    simp only [Outline.output, feed, Array.toList_appendList]
    rw [List.append_assoc, inside.output, ← List.append_assoc]
    simp only [List.flatMap_cons, List.flatMap_nil, List.append_nil]
  tag := by
    intro directive
    have untagged := State.holdsTag_of_directive inside.region directive
    simp only [feed, untagged, Bool.false_eq_true, if_false]
  openers := by
    simp only [feed, if_neg inside.notOpening]

/-- A text without the mark of a region is read inside the region.  What counts
is the text together with the character held from before. -/
theorem feedAll_stays {r : Region} {p : Outline} {text : List Char}
    (inside : p.state.region? = some r) (unmarked : ¬ r.mark <:+: p.state.held ++ text)
    (plain : p.state = .directiveOpened → text.head? ≠ some '=') :
    Stays r p (p.feedAll text) text := by
  induction text generalizing p with
  | nil =>
    refine ⟨inside, ?_, fun _ => rfl, rfl⟩
    simp only [feedAll_nil, List.flatMap_nil, List.append_nil]
  | cons c rest ih =>
    have step : (p.state.move c).Inside r p.state.due c := by
      apply State.move_inside inside
      · intro occurs
        apply unmarked
        rw [← List.singleton_append, ← List.append_assoc]
        exact List.infix_append_of_infix_left occurs
      · intro opened same
        exact plain opened (by rw [same]; rfl)
    have first : Stays r p (p.feed c) [c] := feed_stays step
    have second : Stays r (p.feed c) ((p.feed c).feedAll rest) rest := by
      apply ih first.region
      · -- Of what was read, only `c` may still be held.
        intro occurs
        apply unmarked
        apply List.infix_append_of_infix_right
        rcases step.held with nothing | one
        · have later : r.mark <:+: rest := by simpa [feed, nothing] using occurs
          exact List.infix_cons later
        · simpa [feed, one] using occurs
      · intro opened
        exact absurd opened step.notOpening
    exact first.trans second

/-! ## Marks -/

/-- From `p` to `q` the scan reads an opening mark. -/
structure Opens (p q : Outline) : Prop where
  state : q.state = .directiveOpened
  /-- The statement before a directive is closed, if there is one. -/
  written : q.written.toList =
    if p.state = .start then p.written.toList else p.output ++ [.slot .outputEnd]
  tag : q.tag = p.position
  openers : q.openers = p.openers.push (p.position.advance '<')

/-- An opening mark is read as one also where a `<` is held already. -/
theorem feedAll_opener {p : Outline} (inside : p.state.region? = some .literal) :
    Opens p (p.feedAll opener) := by
  rcases p with ⟨state, written, position, tag, openers, consumed⟩
  cases state <;> cases inside <;> refine ⟨rfl, ?_, rfl, rfl⟩ <;>
    simp [opener, feed, output, State.move, State.due, literalMove, Move.writingFirst]

/-- From `p` to `q` the scan reads the closing mark of the region `r`. -/
structure Closes (r : Region) (p q : Outline) : Prop where
  state : q.state = .literal
  written : q.written.toList = p.output ++ r.closing
  openers : q.openers = p.openers

/-- A closing mark is read as one also where a `%` is held already. -/
theorem feedAll_closer {r : Region} {p : Outline} (inside : p.state.region? = some r)
    (directive : r ≠ .literal) : Closes r p (p.feedAll closer) := by
  rcases p with ⟨state, written, position, tag, openers, consumed⟩
  cases r with
  | literal => exact absurd rfl directive
  | code =>
    cases state <;> cases inside <;> refine ⟨rfl, ?_, rfl⟩ <;>
      simp [closer, feed, output, State.move, State.due, codeMove, Move.writingFirst,
        Region.closing]
  | expression =>
    cases state <;> cases inside <;> refine ⟨rfl, ?_, rfl⟩ <;>
      simp [closer, feed, output, State.move, State.due, expressionMove, Move.writingFirst,
        Region.closing]

/-- After an opening mark an equals sign begins an expression. -/
theorem feed_equals {p : Outline} (opened : p.state = .directiveOpened) :
    (p.feed '=').state = .expression ∧
      (p.feed '=').written.toList = p.written.toList ++ [.slot .exprStart] ∧
      (p.feed '=').tag = p.tag ∧ (p.feed '=').openers = p.openers := by
  have move : p.state.move '=' = ⟨.expression, [.slot .exprStart]⟩ := by rw [opened]; rfl
  simp [feed, move, State.holdsTag]

end Outline

end Scan
end TemplateScript

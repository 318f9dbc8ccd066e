import Mathlib.Tactic.SplitIfs
import TemplateScript.Transpile

namespace TemplateScript

/-!
# The outline of a script

A scan writes characters and wrapper strings.  With a symbol in the place of
each wrapper string, what is written becomes a list of tokens: the outline of
the script, which has no wrappers in it.  The moves below give the outline one
character at a time, and each step of a scan turns out to be a move whose tokens
are written out.

So a scan with any wrappers can be followed through its outline.  The outline
never reaches the invalid state, which is why the scan never stops before the
delivery does.
-/

/-- A character, or the place of a wrapper string. -/
inductive Token where
  | char (c : Char)
  | slot (s : Slot)
  deriving DecidableEq

namespace Token

/-- The text that a token stands for. -/
def text (w : Wrappers) : Token → List Char
  | .char c => [c]
  | .slot s => (w.get s).toList

/-- The text of a list of tokens. -/
def expand (w : Wrappers) (tokens : List Token) : List Char :=
  tokens.flatMap (text w)

@[simp] theorem expand_nil (w : Wrappers) : expand w [] = [] := rfl

@[simp] theorem expand_cons (w : Wrappers) (t : Token) (tokens : List Token) :
    expand w (t :: tokens) = t.text w ++ expand w tokens := by
  simp only [expand, List.flatMap_cons]

@[simp] theorem expand_append (w : Wrappers) (front back : List Token) :
    expand w (front ++ back) = expand w front ++ expand w back := by
  simp only [expand, List.flatMap_append]

end Token

namespace Scan

/-! ## Moves -/

/-- The outcome of a move: where it leads and what it writes. -/
structure Move where
  next : State
  written : List Token
  deriving DecidableEq

namespace Move

/-- Write something before the move's own tokens. -/
def writingFirst (tokens : List Token) (m : Move) : Move :=
  ⟨m.next, tokens ++ m.written⟩

@[simp] theorem next_writingFirst (tokens : List Token) (m : Move) :
    (m.writingFirst tokens).next = m.next := rfl

@[simp] theorem written_writingFirst (tokens : List Token) (m : Move) :
    (m.writingFirst tokens).written = tokens ++ m.written := rfl

/-- The move made with some wrappers, behind a script. -/
def after (w : Wrappers) (m : Move) (script : String) : State × String :=
  (m.next, script ++ String.ofList (Token.expand w m.written))

/-- What a move leaves, letter by letter. -/
theorem eq_after {w : Wrappers} {next : State} {written : List Token} {script longer : String}
    (appended : longer.toList = script.toList ++ Token.expand w written) :
    (next, longer) = Move.after w ⟨next, written⟩ script := by
  have same : longer = script ++ String.ofList (Token.expand w written) := by
    rw [← String.toList_inj, appended, String.toList_append, String.toList_ofList]
  rw [same]
  rfl

theorem after_writingFirst (w : Wrappers) (tokens : List Token) (m : Move) (script : String) :
    (m.writingFirst tokens).after w script =
      m.after w (script ++ String.ofList (Token.expand w tokens)) := by
  simp only [after, next_writingFirst, written_writingFirst, Token.expand_append,
    String.ofList_append, String.append_assoc]

end Move

/-- Literal text is escaped, and a newline splits the statement. -/
def literalMove (c : Char) : Move :=
  if c = '<' then ⟨.tagPending, []⟩
  else if c = '\n' then
    ⟨.literal, [.char '\\', .char 'n', .slot .outputEnd, .slot .outputStart]⟩
  else if c = '"' then ⟨.literal, [.char '\\', .char '"']⟩
  else ⟨.literal, [.char c]⟩

def codeMove (c : Char) : Move :=
  if c = '%' then ⟨.codeClosePending, []⟩ else ⟨.code, [.char c]⟩

def expressionMove (c : Char) : Move :=
  if c = '%' then ⟨.expressionClosePending, []⟩ else ⟨.expression, [.char c]⟩

namespace State

/-- Read one character. -/
def move : State → Char → Move
  | .start, c =>
    if c = '<' then ⟨.firstTagPending, []⟩
    else (literalMove c).writingFirst [.slot .outputStart]
  | .literal, c => literalMove c
  | .tagPending, c =>
    if c = '%' then ⟨.directiveOpened, [.slot .outputEnd]⟩
    else (literalMove c).writingFirst [.char '<']
  | .firstTagPending, c =>
    if c = '%' then ⟨.directiveOpened, []⟩
    else (literalMove c).writingFirst [.slot .outputStart, .char '<']
  | .directiveOpened, c =>
    if c = '=' then ⟨.expression, [.slot .exprStart]⟩ else codeMove c
  | .code, c => codeMove c
  | .codeClosePending, c =>
    if c = '>' then ⟨.literal, [.slot .outputStart]⟩
    else (codeMove c).writingFirst [.char '%']
  | .expression, c => expressionMove c
  | .expressionClosePending, c =>
    if c = '>' then ⟨.literal, [.slot .exprEnd, .slot .outputStart]⟩
    else (expressionMove c).writingFirst [.char '%']
  | .invalid, _ => ⟨.invalid, []⟩

/-- End of the template: the tokens that are still to be written, or why there is
no script. -/
def ending : State → Except Malformation (List Token)
  | .start => .ok [.slot .outputStart, .slot .outputEnd]
  | .literal => .ok [.slot .outputEnd]
  | .tagPending => .ok [.char '<', .slot .outputEnd]
  | .firstTagPending => .ok [.slot .outputStart, .char '<', .slot .outputEnd]
  | .directiveOpened | .code | .codeClosePending => .error .unterminatedCode
  | .expression | .expressionClosePending => .error .unterminatedExpression
  | .invalid => .error .noTransition

/-- The state after a run of characters. -/
def run (s : State) (cs : List Char) : State :=
  cs.foldl (fun s c => (s.move c).next) s

/-- All tokens written over a run of characters. -/
def written : State → List Char → List Token
  | _, [] => []
  | s, c :: cs => (s.move c).written ++ written (s.move c).next cs

@[simp] theorem run_nil (s : State) : s.run [] = s := rfl

@[simp] theorem run_cons (s : State) (c : Char) (cs : List Char) :
    s.run (c :: cs) = (s.move c).next.run cs := rfl

/-- What a run writes is written by its parts, one after the other. -/
theorem written_append (s : State) (front back : List Char) :
    s.written (front ++ back) = s.written front ++ (s.run front).written back := by
  induction front generalizing s with
  | nil => rfl
  | cons c front ih =>
    simp only [List.cons_append, written, run_cons, List.append_assoc]
    rw [ih]

end State

/-! ## Steps are moves -/

theorem literalStep_eq (w : Wrappers) (script : String) (c : Char) :
    literalStep w script c = (literalMove c).after w script := by
  unfold literalStep literalMove
  split_ifs <;>
    (apply Move.eq_after
     simp [Token.text, Wrappers.get])

theorem codeStep_eq (w : Wrappers) (script : String) (c : Char) :
    codeStep script c = (codeMove c).after w script := by
  unfold codeStep codeMove
  split_ifs <;>
    (apply Move.eq_after
     simp [Token.text])

theorem expressionStep_eq (w : Wrappers) (script : String) (c : Char) :
    expressionStep script c = (expressionMove c).after w script := by
  unfold expressionStep expressionMove
  split_ifs <;>
    (apply Move.eq_after
     simp [Token.text])

/-- A character that is written before the rule of another state is applied. -/
theorem push_eq (w : Wrappers) (script : String) (c : Char) :
    script.push c = script ++ String.ofList (Token.expand w [.char c]) := by
  apply String.toList_inj.mp
  simp [Token.text]

/-- A wrapper string that is written before the rule of another state is applied. -/
theorem append_slot_eq (w : Wrappers) (script : String) (slot : Slot) :
    script ++ w.get slot = script ++ String.ofList (Token.expand w [.slot slot]) := by
  apply String.toList_inj.mp
  simp [Token.text]

/-- Whatever has been written, and whatever the wrappers are, a step leads where
the move leads, and appends what the tokens of the move stand for. -/
theorem State.step_eq (w : Wrappers) (s : State) (script : String) (c : Char) :
    s.step w script c = (s.move c).after w script := by
  cases s with
  | start =>
    simp only [step, move]
    split_ifs
    · apply Move.eq_after
      simp
    · rw [literalStep_eq, Move.after_writingFirst, ← append_slot_eq]
      rfl
  | literal => exact literalStep_eq w script c
  | tagPending =>
    simp only [step, move]
    split_ifs
    · apply Move.eq_after
      simp [Token.text, Wrappers.get]
    · rw [literalStep_eq, Move.after_writingFirst, ← push_eq]
  | firstTagPending =>
    simp only [step, move]
    split_ifs
    · apply Move.eq_after
      simp
    · rw [literalStep_eq, Move.after_writingFirst]
      congr 1
      apply String.toList_inj.mp
      simp [Token.text, Wrappers.get]
  | directiveOpened =>
    simp only [step, move]
    split_ifs
    · apply Move.eq_after
      simp [Token.text, Wrappers.get]
    · exact codeStep_eq w script c
  | code => exact codeStep_eq w script c
  | codeClosePending =>
    simp only [step, move]
    split_ifs
    · apply Move.eq_after
      simp [Token.text, Wrappers.get]
    · rw [codeStep_eq w, Move.after_writingFirst, ← push_eq]
  | expression => exact expressionStep_eq w script c
  | expressionClosePending =>
    simp only [step, move]
    split_ifs
    · apply Move.eq_after
      simp [Token.text, Wrappers.get]
    · rw [expressionStep_eq w, Move.after_writingFirst, ← push_eq]
  | invalid =>
    apply Move.eq_after
    simp

/-- The script ends with what the tokens of the ending stand for. -/
theorem State.finish_eq (w : Wrappers) (s : State) (script : String) :
    s.finish w script =
      s.ending.map fun rest => script ++ String.ofList (Token.expand w rest) := by
  cases s <;> simp only [finish, ending, Except.map]
  all_goals
    congr 1
    apply String.toList_inj.mp
    simp [Token.text, Wrappers.get]

/-- Every character has a rule. -/
theorem State.move_next_ne_invalid {s : State} (valid : s ≠ .invalid) (c : Char) :
    (s.move c).next ≠ .invalid := by
  cases s with
  | invalid => exact absurd rfl valid
  | _ =>
    simp only [move, literalMove, codeMove, expressionMove, Move.writingFirst]
    split_ifs <;> exact State.noConfusion

/-! ## A scan through its outline -/

/-- A scan without wrappers: it keeps tokens in the place of a script. -/
structure Outline where
  state : State := .start
  written : Array Token := #[]
  position : Position := .origin
  tag : Position := .origin
  openers : Array Position := #[]
  consumed : Nat := 0

/-- The template itself: a text without its carriage returns. -/
def normalize (cs : List Char) : List Char :=
  cs.filter (fun c => decide (c ≠ '\r'))

theorem normalize_append (front back : List Char) :
    normalize (front ++ back) = normalize front ++ normalize back :=
  List.filter_append ..

namespace Outline

/-- Read one character. -/
def feed (o : Outline) (c : Char) : Outline :=
  let move := o.state.move c
  { state := move.next
    written := o.written ++ move.written
    position := o.position.advance c
    tag := if move.next.holdsTag then o.position else o.tag
    openers := if move.next = .directiveOpened then o.openers.push o.position else o.openers
    consumed := o.consumed + 1 }

/-- Read a run of characters. -/
def feedAll (o : Outline) (cs : List Char) : Outline := cs.foldl feed o

@[simp] theorem feedAll_nil (o : Outline) : o.feedAll [] = o := rfl

@[simp] theorem feedAll_cons (o : Outline) (c : Char) (cs : List Char) :
    o.feedAll (c :: cs) = (o.feed c).feedAll cs := rfl

theorem feedAll_append (o : Outline) (front back : List Char) :
    o.feedAll (front ++ back) = (o.feedAll front).feedAll back := by
  simp only [feedAll, List.foldl_append]

/-- The scan with some wrappers that has this outline. -/
def progress (w : Wrappers) (o : Outline) : Progress where
  state := o.state
  script := String.ofList (Token.expand w o.written.toList)
  position := o.position
  tag := o.tag
  openers := o.openers
  consumed := o.consumed

/-- One step of a scan is one step of its outline. -/
theorem feed_progress (w : Wrappers) (o : Outline) (c : Char) :
    (o.progress w).feed w c = (o.feed c).progress w := by
  have step : (o.progress w).state.step w (o.progress w).script c = _ := State.step_eq ..
  rw [Progress.feed, step]
  simp only [Move.after, progress, feed, Array.toList_appendList, Token.expand_append,
    String.ofList_append]
  rfl

/-- The place that a malformation is reported at. -/
def place (o : Outline) : Malformation → Position
  | .unterminatedCode | .unterminatedExpression => o.tag
  | .noTransition => o.position

/-- The script of a template that ends here, or why there is none. -/
def script (w : Wrappers) (o : Outline) : Except Failure String :=
  match o.state.ending with
  | .ok rest => .ok (String.ofList (Token.expand w (o.written.toList ++ rest)))
  | .error reason => .error (.malformedTemplate reason (o.place reason))

/-- The records of the directives opened so far. -/
def records (o : Outline) : List Log.Record :=
  o.openers.toList.map .directiveOpened

/-- What comes of a delivery that ends here. -/
def outcome (w : Wrappers) (failure : Option IoFailure) (o : Outline) : Outcome String :=
  match failure with
  | some cause => ⟨o.records, .error (.unreadableInput cause)⟩
  | none =>
    match o.script w with
    | .error f => ⟨o.records, .error f⟩
    | .ok script => ⟨o.records ++ [.transpiled o.consumed script.utf8ByteSize], .ok script⟩

theorem finish_progress (w : Wrappers) (o : Outline) :
    (o.progress w).finish w = o.outcome w none := by
  have ends := State.finish_eq w o.state (o.progress w).script
  simp only [Progress.finish, outcome, script, progress] at ends ⊢
  rw [ends]
  cases o.state.ending with
  | ok rest =>
    simp only [Except.map, Token.expand_append, String.ofList_append]
    rfl
  | error reason => cases reason <;> rfl

/-- Over a whole delivery, a scan that can go on reads all of it but the carriage
returns. -/
theorem drive_progress (w : Wrappers) (failure : Option IoFailure) {o : Outline}
    (valid : o.state ≠ .invalid) (cs : List Char) :
    (o.progress w).drive w failure cs = (o.feedAll (normalize cs)).outcome w failure := by
  induction cs generalizing o with
  | nil =>
    cases failure with
    | some cause => rfl
    | none => exact o.finish_progress w
  | cons c cs ih =>
    rw [Progress.drive]
    by_cases carriage : c = '\r'
    · rw [if_pos carriage, ih valid, carriage]
      rfl
    · have kept : normalize (c :: cs) = c :: normalize cs := by simp [normalize, carriage]
      rw [if_neg carriage, if_neg (show ¬ (o.progress w).state = .invalid from valid),
        feed_progress, ih (State.move_next_ne_invalid valid c), kept, feedAll_cons]

end Outline

/-- The outline of a text, from the beginning. -/
def outline (cs : List Char) : Outline := ({} : Outline).feedAll (normalize cs)

end Scan

namespace Wrappers

open Scan

/-- What is delivered is scanned through its outline. -/
theorem transpileDelivery_eq (w : Wrappers) (d : Delivery) :
    w.transpileDelivery d = (outline d.text).outcome w d.failure := by
  have valid : ({} : Outline).state ≠ .invalid := State.noConfusion
  exact Outline.drive_progress w d.failure valid d.text

theorem transpile_result (w : Wrappers) (text : List Char) :
    (w.transpile text).result = (outline text).script w := by
  rw [transpile, transpileDelivery_eq]
  simp only [Outline.outcome]
  cases (outline text).script w <;> rfl

end Wrappers

end TemplateScript

import TemplateScript.Proofs.Rendering

namespace TemplateScript
namespace Scan

/-!
# What a scan passes through

A step is given the wrappers and the script so far, but it only appends: where
it leads depends on the state and the character.  So two runs over one text pass
through the same states, and what they append differs in nothing but the strings
that stand at the slots.

The scan of a template is such a run from an empty script, over the template
without its carriage returns.  Whether there is a script, and where it breaks
off if there is none, is therefore the same for all wrappers, and wrapper
strings that look like marks, quotes or newlines come out as they are.
-/

namespace State

/-- The state and the script after a run of characters. -/
def runText (w : Wrappers) (s : State) (script : String) (cs : List Char) : State × String :=
  cs.foldl (fun reached c => reached.1.step w reached.2 c) (s, script)

/-- The states and scripts that a run passes through, one after each character. -/
def trace (w : Wrappers) (s : State) (script : String) : List Char → List (State × String)
  | [] => []
  | c :: cs =>
    let reached := s.step w script c
    reached :: trace w reached.1 reached.2 cs

/-- The states alone, which the wrappers have no part in. -/
def states (s : State) : List Char → List State
  | [] => []
  | c :: cs => (s.move c).next :: states (s.move c).next cs

theorem map_fst_trace (w : Wrappers) (s : State) (script : String) (cs : List Char) :
    (s.trace w script cs).map Prod.fst = s.states cs := by
  induction cs generalizing s script with
  | nil => rfl
  | cons c cs ih =>
    simp only [trace, states, List.map_cons]
    rw [ih, step_eq]
    rfl

/-- A run reaches the state that its characters lead to, and appends the tokens
that they cause to be written. -/
theorem runText_eq (w : Wrappers) (s : State) (script : String) (cs : List Char) :
    s.runText w script cs =
      (s.run cs, script ++ String.ofList (Token.expand w (s.written cs))) := by
  induction cs generalizing s script with
  | nil => simp [runText, written]
  | cons c cs ih =>
    have rest := ih (s.step w script c).1 (s.step w script c).2
    change (s.step w script c).1.runText w (s.step w script c).2 cs = _
    rw [rest, step_eq]
    simp only [Move.after, run_cons, written, Token.expand_append, String.ofList_append,
      String.append_assoc]

end State

/-! ## The scan of a template as a run -/

namespace Outline

theorem state_feedAll (p : Outline) (cs : List Char) : (p.feedAll cs).state = p.state.run cs := by
  induction cs generalizing p with
  | nil => rfl
  | cons c cs ih =>
    rw [feedAll_cons, ih]
    rfl

theorem written_feedAll (p : Outline) (cs : List Char) :
    (p.feedAll cs).written.toList = p.written.toList ++ p.state.written cs := by
  induction cs generalizing p with
  | nil => simp [State.written]
  | cons c cs ih =>
    rw [feedAll_cons, ih]
    simp only [feed, State.written, Array.toList_appendList, List.append_assoc]

theorem script_of_finish {p : Outline} {rest : List Token} (finished : p.state.ending = .ok rest)
    (w : Wrappers) :
    p.script w = .ok (String.ofList (Token.expand w (p.written.toList ++ rest))) := by
  simp only [script, finished]

theorem script_of_unfinished {p : Outline} {reason : Malformation}
    (unfinished : p.state.ending = .error reason) (w : Wrappers) :
    p.script w = .error (.malformedTemplate reason (p.place reason)) := by
  simp only [script, unfinished]

end Outline

/-- The tokens of a template's script, if it has one. -/
theorem transpile_of_finish {text : List Char} {rest : List Token}
    (finished : (State.start.run (normalize text)).ending = .ok rest) (w : Wrappers) :
    (w.transpile text).result =
      .ok (String.ofList (Token.expand w (State.start.written (normalize text) ++ rest))) := by
  have state : (outline text).state.ending = .ok rest := by
    rw [outline, Outline.state_feedAll]
    exact finished
  rw [w.transpile_result, Outline.script_of_finish state, outline,
    Outline.written_feedAll]
  rfl

/-- The failure of a template that has no script. -/
theorem transpile_of_unfinished {text : List Char} {reason : Malformation}
    (unfinished : (State.start.run (normalize text)).ending = .error reason) (w : Wrappers) :
    (w.transpile text).result =
      .error (.malformedTemplate reason ((outline text).place reason)) := by
  have state : (outline text).state.ending = .error reason := by
    rw [outline, Outline.state_feedAll]
    exact unfinished
  rw [w.transpile_result, Outline.script_of_unfinished state]

/-- Two runs from one state over the same characters differ in their wrapper
strings only, and so do two scans of one template.  What a scan has written at
any moment is the beginning of the script that it ends with. -/
theorem runs_differ_in_wrappers_only :
    (∀ (s : State) (cs : List Char),
      (∀ (w v : Wrappers) (script other : String),
        (s.trace w script cs).map Prod.fst = (s.trace v other cs).map Prod.fst) ∧
      ∃ tokens : List Token, ∀ (w : Wrappers) (script : String),
        (s.runText w script cs).2 = script ++ String.ofList (Token.expand w tokens)) ∧
    ∀ text : List Char,
      (∃ tokens : List Token, ∀ w : Wrappers,
        (w.transpile text).result = .ok (String.ofList (Token.expand w tokens)) ∧
        ∀ n, (State.start.runText w "" ((text.take n).filter (· ≠ '\r'))).2.toList <+:
          Token.expand w tokens) ∨
      ∃ (reason : Malformation) (place : Position), ∀ w : Wrappers,
        (w.transpile text).result = .error (.malformedTemplate reason place) := by
  constructor
  · intro s cs
    constructor
    · intro w v script other
      rw [State.map_fst_trace, State.map_fst_trace]
    · refine ⟨s.written cs, fun w script => ?_⟩
      rw [State.runText_eq]
  · intro text
    cases finished : (State.start.run (normalize text)).ending with
    | ok rest =>
      refine .inl ⟨_, fun w => ⟨transpile_of_finish finished w, fun n => ?_⟩⟩
      have split : normalize text = normalize (text.take n) ++ normalize (text.drop n) := by
        rw [← normalize_append, List.take_append_drop]
      change (State.start.runText w "" (normalize (text.take n))).2.toList <+: _
      rw [State.runText_eq, split, State.written_append, List.append_assoc, Token.expand_append]
      simp
    | error reason =>
      exact .inr ⟨reason, _, transpile_of_unfinished finished⟩

end Scan
end TemplateScript

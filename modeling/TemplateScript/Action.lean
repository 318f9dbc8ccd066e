import TemplateScript.FileTree
import TemplateScript.Outcome

namespace TemplateScript

/-!
# Actions

An action is what a command does with its surroundings: a tree of requests,
each with what is to be done for every answer.  The same action can be carried
out in a `World`, which is a value, or outside, where the answers come from the
system.

In a world reading never fails: standard input and files deliver all their bytes.
Standard output takes whatever it is given.  A write to a file may be refused, and
one that has begun goes as far as the medium of the file lets it.
-/

/-- Requests to the surroundings, up to a result or a failure. -/
inductive Action (α : Type) where
  | done (a : α)
  | fail (f : Failure)
  /-- Is something found at the path? -/
  | probe (p : Path) (next : Bool → Action α)
  /-- Open what the path denotes, and read it if it is a file. -/
  | access (p : Path) (next : Except IoFailure Entry → Action α)
  /-- Take all that is left of standard input, which is read without a failure. -/
  | input (next : Bytes → Action α)
  /-- Open a file for writing and write it. -/
  | store (p : Path) (content : Bytes) (next : Except IoFailure Unit → Action α)
  /-- Is the work at hand done within the limit? -/
  | deadline (limit : Duration) (next : Bool → Action α)
  /-- Write to standard output. -/
  | print (text : String) (next : Action α)
  /-- Add records to the log. -/
  | note (records : List Log.Record) (next : Action α)

/-- Surroundings that are a value. -/
structure World where
  files : FileTree
  /-- What the files lie on. -/
  medium : Location → Medium := fun _ => .keeps
  /-- What is left of standard input. -/
  input : Bytes := []
  /-- Is work done within its limits? -/
  inTime : Bool := true
  /-- What has been written to standard output. -/
  output : String := ""
  log : List Log.Record := []

namespace Action

variable {α β : Type}

/-- Go on with the result. -/
def bind : Action α → (α → Action β) → Action β
  | .done a, f => f a
  | .fail failure, _ => .fail failure
  | .probe p next, f => .probe p fun answer => (next answer).bind f
  | .access p next, f => .access p fun answer => (next answer).bind f
  | .input next, f => .input fun answer => (next answer).bind f
  | .store p content next, f => .store p content fun answer => (next answer).bind f
  | .deadline limit next, f => .deadline limit fun answer => (next answer).bind f
  | .print text next, f => .print text (next.bind f)
  | .note records next, f => .note records (next.bind f)

instance : Monad Action where
  pure := Action.done
  bind := Action.bind

/-- Turn a failure into a result. -/
def attempt : Action α → Action (Except Failure α)
  | .done a => .done (.ok a)
  | .fail failure => .done (.error failure)
  | .probe p next => .probe p fun answer => (next answer).attempt
  | .access p next => .access p fun answer => (next answer).attempt
  | .input next => .input fun answer => (next answer).attempt
  | .store p content next => .store p content fun answer => (next answer).attempt
  | .deadline limit next => .deadline limit fun answer => (next answer).attempt
  | .print text next => .print text next.attempt
  | .note records next => .note records next.attempt

/-- A result that is there already. -/
def ofExcept : Except Failure α → Action α
  | .ok a => .done a
  | .error failure => .fail failure

/-- An outcome, with its records. -/
def ofOutcome (o : Outcome α) : Action α := .note o.log (ofExcept o.result)

/-- Write a line to standard output. -/
def printLine (text : String) : Action Unit := .print (text ++ "\n") (.done ())

/-- Carry out an action in a world. -/
def run : Action α → World → Except Failure α × World
  | .done a, w => (.ok a, w)
  | .fail failure, w => (.error failure, w)
  | .probe p next, w => (next (w.files.has p)).run w
  | .access p next, w => (next (w.files.access p)).run w
  | .input next, w => (next w.input).run { w with input := [] }
  | .store p content next, w =>
    let (files, answer) := w.files.write w.medium p content
    (next answer).run { w with files := files }
  | .deadline _ next, w => (next w.inTime).run w
  | .print text next, w => next.run { w with output := w.output ++ text }
  | .note records next, w => next.run { w with log := w.log ++ records }

/-- An action that goes on with a result is carried out in two parts. -/
theorem run_bind (m : Action α) (f : α → Action β) (w : World) :
    (m.bind f).run w =
      match m.run w with
      | (.ok a, after) => (f a).run after
      | (.error failure, after) => (.error failure, after) := by
  induction m generalizing w with
  | done a => rfl
  | fail failure => rfl
  | probe p next ih => exact ih _ w
  | access p next ih => exact ih _ w
  | input next ih => exact ih _ _
  | store p content next ih => exact ih _ _
  | deadline limit next ih => exact ih _ w
  | print text next ih => exact ih _
  | note records next ih => exact ih _

/-- An attempt does to the world what the action does, and never fails. -/
theorem run_attempt (m : Action α) (w : World) :
    m.attempt.run w = (.ok (m.run w).1, (m.run w).2) := by
  induction m generalizing w with
  | done a => rfl
  | fail failure => rfl
  | probe p next ih => exact ih _ w
  | access p next ih => exact ih _ w
  | input next ih => exact ih _ _
  | store p content next ih => exact ih _ _
  | deadline limit next ih => exact ih _ w
  | print text next ih => exact ih _
  | note records next ih => exact ih _

end Action

end TemplateScript

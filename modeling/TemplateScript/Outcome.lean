import TemplateScript.Failure
import TemplateScript.Log

namespace TemplateScript

/-!
# Outcomes

An operation that reports on its work gives a result and the records it left
on the way; a failure keeps the records made before it.
-/

/-- A result, or why there is none, and what was logged. -/
structure Outcome (α : Type) where
  log : List Log.Record
  result : Except Failure α

namespace Outcome

variable {α : Type}

/-- A result without a word. -/
def pure (a : α) : Outcome α := ⟨[], .ok a⟩

/-- A failure without a word. -/
def fail (f : Failure) : Outcome α := ⟨[], .error f⟩

end Outcome

end TemplateScript

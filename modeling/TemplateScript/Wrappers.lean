namespace TemplateScript

/-!
# Wrapper strings

A script is assembled from pieces of the template and four wrapper strings:
two around every run of literal text and two around every expression.  The
strings are opaque to the scan; only their places in the script matter, and
those places are the slots below.
-/

/-- The places of a script at which a wrapper string stands. -/
inductive Slot where
  | outputStart
  | outputEnd
  | exprStart
  | exprEnd
  deriving DecidableEq

namespace Slot

/-- The slot's name in a configuration. -/
def key : Slot → String
  | .outputStart => "output_start"
  | .outputEnd => "output_end"
  | .exprStart => "expr_start"
  | .exprEnd => "expr_end"

/-- The slot of a name. -/
def ofKey? (name : String) : Option Slot :=
  if name = "output_start" then some .outputStart
  else if name = "output_end" then some .outputEnd
  else if name = "expr_start" then some .exprStart
  else if name = "expr_end" then some .exprEnd
  else none

/-- The slot that follows where the four strings stand in a row. -/
def next? : Slot → Option Slot
  | .outputStart => some .outputEnd
  | .outputEnd => some .exprStart
  | .exprStart => some .exprEnd
  | .exprEnd => none

end Slot

/-- One string for every slot. -/
structure Wrappers where
  outputStart : String
  outputEnd : String
  exprStart : String
  exprEnd : String
  deriving DecidableEq

/-- Strings for some of the slots.  An empty string is a string like any other,
so it is not the same as an absent one. -/
structure PartialWrappers where
  outputStart : Option String := none
  outputEnd : Option String := none
  exprStart : Option String := none
  exprEnd : Option String := none
  deriving DecidableEq

namespace PartialWrappers

/-- The string given for a slot. -/
def get? (o : PartialWrappers) : Slot → Option String
  | .outputStart => o.outputStart
  | .outputEnd => o.outputEnd
  | .exprStart => o.exprStart
  | .exprEnd => o.exprEnd

/-- Give a string for a slot. -/
def set (o : PartialWrappers) (s : String) : Slot → PartialWrappers
  | .outputStart => { o with outputStart := some s }
  | .outputEnd => { o with outputEnd := some s }
  | .exprStart => { o with exprStart := some s }
  | .exprEnd => { o with exprEnd := some s }

/-- Change every given string by `f`. -/
def map (f : String → String) (o : PartialWrappers) : PartialWrappers where
  outputStart := o.outputStart.map f
  outputEnd := o.outputEnd.map f
  exprStart := o.exprStart.map f
  exprEnd := o.exprEnd.map f

/-- All four strings, if all are given. -/
def complete? (o : PartialWrappers) : Option Wrappers :=
  match o.outputStart, o.outputEnd, o.exprStart, o.exprEnd with
  | some a, some b, some c, some d => some ⟨a, b, c, d⟩
  | _, _, _, _ => none

@[simp] theorem get?_set_self (o : PartialWrappers) (s : String) (slot : Slot) :
    (o.set s slot).get? slot = some s := by
  cases slot <;> rfl

theorem get?_set_of_ne (o : PartialWrappers) (s : String) {slot other : Slot}
    (different : other ≠ slot) : (o.set s slot).get? other = o.get? other := by
  cases slot <;> cases other <;> first | rfl | exact absurd rfl different

@[simp] theorem get?_map (f : String → String) (o : PartialWrappers) (slot : Slot) :
    (o.map f).get? slot = (o.get? slot).map f := by
  cases slot <;> rfl

end PartialWrappers

namespace Wrappers

/-- The string that stands at a slot. -/
def get (w : Wrappers) : Slot → String
  | .outputStart => w.outputStart
  | .outputEnd => w.outputEnd
  | .exprStart => w.exprStart
  | .exprEnd => w.exprEnd

/-- The wrappers are determined by what they hold at each slot. -/
theorem ext_get {w v : Wrappers} (same : ∀ slot, w.get slot = v.get slot) : w = v := by
  cases w
  cases v
  have first := same .outputStart
  have second := same .outputEnd
  have third := same .exprStart
  have fourth := same .exprEnd
  simp only [get] at first second third fourth
  rw [first, second, third, fourth]

/-- Replace the strings that are given and keep the others. -/
def override (w : Wrappers) (o : PartialWrappers) : Wrappers where
  outputStart := o.outputStart.getD w.outputStart
  outputEnd := o.outputEnd.getD w.outputEnd
  exprStart := o.exprStart.getD w.exprStart
  exprEnd := o.exprEnd.getD w.exprEnd

/-- Each slot is decided by its own replacement alone. -/
@[simp] theorem get_override (w : Wrappers) (o : PartialWrappers) (slot : Slot) :
    (w.override o).get slot = (o.get? slot).getD (w.get slot) := by
  cases slot <;> rfl

end Wrappers

end TemplateScript

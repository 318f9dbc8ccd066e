namespace TemplateScript

/-!
# Positions in a template

Lines and columns count from one, over the template without its carriage
returns.
-/

/-- A line and a column. -/
structure Position where
  line : Nat
  column : Nat
  deriving DecidableEq

namespace Position

/-- The place of the first character. -/
def origin : Position := ⟨1, 1⟩

/-- The place after a character that stands here. -/
def advance (p : Position) (c : Char) : Position :=
  if c = '\n' then ⟨p.line + 1, 1⟩ else ⟨p.line, p.column + 1⟩

/-- The place after a run of characters that starts here. -/
def advanceAll (p : Position) (cs : List Char) : Position :=
  cs.foldl advance p

@[simp] theorem advanceAll_nil (p : Position) : p.advanceAll [] = p := rfl

@[simp] theorem advanceAll_cons (p : Position) (c : Char) (cs : List Char) :
    p.advanceAll (c :: cs) = (p.advance c).advanceAll cs := rfl

theorem advanceAll_append (p : Position) (front back : List Char) :
    p.advanceAll (front ++ back) = (p.advanceAll front).advanceAll back := by
  simp only [advanceAll, List.foldl_append]

end Position

end TemplateScript

import TemplateScript.Json.Quoted

namespace TemplateScript
namespace Json

/-!
# Writing JSON

A document is written over several lines: every element and member on a line
of its own, two blanks deeper than its bracket.
-/

/-- A value to be written. -/
inductive Document where
  | null
  | text (s : String)
  | array (items : List Document)
  | object (members : List (String × Document))

namespace Document

/-- The break before a line at the given depth. -/
def newline (depth : Nat) : List Char := '\n' :: List.replicate (2 * depth) ' '

mutual

/-- A document whose brackets stand at the given depth. -/
def write (depth : Nat) : Document → List Char
  | .null => ['n', 'u', 'l', 'l']
  | .text s => Quoted.write s.toList
  | .array [] => ['[', ']']
  | .array (first :: rest) =>
    '[' :: newline (depth + 1) ++ write (depth + 1) first ++ writeItems (depth + 1) rest ++
      newline depth ++ [']']
  | .object [] => ['\x7b', '\x7d']
  | .object ((key, value) :: rest) =>
    '\x7b' :: newline (depth + 1) ++ Quoted.write key.toList ++ [':', ' '] ++
      write (depth + 1) value ++ writeMembers (depth + 1) rest ++ newline depth ++ ['\x7d']

/-- The elements after the first. -/
def writeItems (depth : Nat) : List Document → List Char
  | [] => []
  | item :: rest => ',' :: newline depth ++ write depth item ++ writeItems depth rest

/-- The members after the first. -/
def writeMembers (depth : Nat) : List (String × Document) → List Char
  | [] => []
  | (key, value) :: rest =>
    ',' :: newline depth ++ Quoted.write key.toList ++ [':', ' '] ++ write depth value ++
      writeMembers depth rest

end

/-- The document's text. -/
def render (d : Document) : String := String.ofList (d.write 0)

end Document

end Json
end TemplateScript

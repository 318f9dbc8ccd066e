namespace TemplateScript
namespace Escape

/-!
# Escapes in wrapper strings given as arguments

A wrapper string may be given with backslash escapes for the characters that
are awkward to type.  An escape that has no meaning is kept as it is written.
-/

/-- The character that a letter after a backslash stands for. -/
def meaning? (c : Char) : Option Char :=
  if c = 'n' then some '\n'
  else if c = 't' then some '\t'
  else if c = 'r' then some '\r'
  else if c = '\\' then some '\\'
  else if c = '"' then some '"'
  else none

/-- Read a text with escapes, character by character. -/
def decodeChars : List Char → List Char
  | [] => []
  | '\\' :: c :: rest =>
    match meaning? c with
    | some e => e :: decodeChars rest
    | none => '\\' :: c :: decodeChars rest
  | c :: rest => c :: decodeChars rest

/-- Read a text with escapes. -/
def decode (s : String) : String := String.ofList (decodeChars s.toList)

end Escape
end TemplateScript

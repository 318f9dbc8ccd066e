namespace TemplateScript
namespace Quotation

/-!
# Strings shown to people

Where a string is shown as a value, it stands in quotes, and what would be
mistaken or not be seen is escaped.  Text that may end up on a terminal keeps
its quotes and line ends, but the characters that steer a terminal are spelled
out in it.
-/

/-- A character as it is shown. -/
def escape (c : Char) : List Char :=
  if c = '"' then ['\\', '"']
  else if c = '\\' then ['\\', '\\']
  else if c = '\n' then ['\\', 'n']
  else if c = '\r' then ['\\', 'r']
  else if c = '\t' then ['\\', 't']
  else [c]

/-- A string in quotes. -/
def quote (s : String) : String :=
  String.ofList ('"' :: s.toList.flatMap escape ++ ['"'])

/-- The two lower-case hexadecimal digits of a number below 256. -/
def hex (n : Nat) : List Char := [Nat.digitChar (n / 16), Nat.digitChar (n % 16)]

/-- Bell, backspace, form feed, escape and delete. -/
def steering : List Char := ['\x07', '\x08', '\x0c', '\x1b', '\x7f']

/-- Is the character one of the control characters of eight bits? -/
def isHighControl (c : Char) : Bool := 0x80 ≤ c.toNat ∧ c.toNat ≤ 0x9f

/-- A character as a terminal may be given it. -/
def spellOut (c : Char) : List Char :=
  if c ∈ steering then '\\' :: 'x' :: hex c.toNat
  else if isHighControl c then '\\' :: 'u' :: '\x7b' :: hex c.toNat ++ ['\x7d']
  else [c]

/-- Text that steers no terminal. -/
def harmless (s : String) : String := String.ofList (s.toList.flatMap spellOut)

end Quotation
end TemplateScript

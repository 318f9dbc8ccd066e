import TemplateScript.Json.Fault

namespace TemplateScript
namespace Json

/-!
# Strings in JSON

Writing escapes quotes, backslashes and control characters and nothing else.
Reading goes character by character.  A string whose text is used must be
proper text, so an escaped half of a surrogate pair has to come with its other
half; a string that is skipped only has to be delimited.
-/

/-- Is a value's content needed, or only its extent? -/
inductive Care where
  | used
  | skipped
  deriving DecidableEq

namespace Quoted

/-! ## Writing -/

/-- A character as it stands in a string. -/
def escape (c : Char) : List Char :=
  if c = '"' then ['\\', '"']
  else if c = '\\' then ['\\', '\\']
  else if c = '\x08' then ['\\', 'b']
  else if c = '\x0c' then ['\\', 'f']
  else if c = '\n' then ['\\', 'n']
  else if c = '\r' then ['\\', 'r']
  else if c = '\t' then ['\\', 't']
  else if c.toNat < 32 then
    ['\\', 'u', '0', '0', Nat.digitChar (c.toNat / 16), Nat.digitChar (c.toNat % 16)]
  else [c]

/-- A text in quotes. -/
def write (text : List Char) : List Char :=
  '"' :: text.flatMap escape ++ ['"']

/-! ## Reading -/

/-- Where the reading of a string stands. -/
inductive Mode where
  | plain
  /-- After a backslash. -/
  | escaped
  /-- Inside the four digits of an escape, of which `seen` bytes have been met.
  `value` is lost once one of them is no digit; `high` is the first half of a
  pair whose second half is being read. -/
  | digits (high : Option Nat) (seen : Nat) (value : Option Nat)
  /-- After the first half of a pair: a backslash must follow. -/
  | halfPair (high : Nat)
  /-- After the first half of a pair and a backslash: a `u` must follow. -/
  | halfPairEscaped (high : Nat)
  deriving DecidableEq

/-- A string that is being read: its characters so far, last first. -/
structure Reading where
  chars : List Char
  mode : Mode
  deriving DecidableEq

/-- A string after its opening quote. -/
def Reading.begin : Reading := ⟨[], .plain⟩

/-- What a character does to a string that is being read. -/
inductive Progress where
  | more (r : Reading)
  | closed (text : String)
  deriving DecidableEq

/-- The value of a hexadecimal digit. -/
def hexDigit? (c : Char) : Option Nat :=
  if '0' ≤ c ∧ c ≤ '9' then some (c.toNat - 48)
  else if 'a' ≤ c ∧ c ≤ 'f' then some (c.toNat - 87)
  else if 'A' ≤ c ∧ c ≤ 'F' then some (c.toNat - 55)
  else none

/-- The character of an escape of one letter. -/
def shortEscape? (c : Char) : Option Char :=
  if c = '"' then some '"'
  else if c = '\\' then some '\\'
  else if c = '/' then some '/'
  else if c = 'b' then some '\x08'
  else if c = 'f' then some '\x0c'
  else if c = 'n' then some '\n'
  else if c = 'r' then some '\r'
  else if c = 't' then some '\t'
  else none

/-- Is this number the first half of a pair? -/
def isHigh (n : Nat) : Bool := 0xD800 ≤ n ∧ n ≤ 0xDBFF

/-- Is this number the second half of a pair? -/
def isLow (n : Nat) : Bool := 0xDC00 ≤ n ∧ n ≤ 0xDFFF

/-- The character that a pair of halves stands for. -/
def joinPair (high low : Nat) : Char :=
  Char.ofNat (0x10000 + (high - 0xD800) * 0x400 + (low - 0xDC00))

namespace Reading

/-- Add a character; the text of a skipped string is not kept. -/
def push (care : Care) (chars : List Char) (c : Char) : Progress :=
  match care with
  | .used => .more ⟨c :: chars, .plain⟩
  | .skipped => .more ⟨chars, .plain⟩

/-- All four digits of an escape are read. -/
def complete (care : Care) (chars : List Char) (high : Option Nat) (n : Nat) :
    Except Fault Progress :=
  match care, high with
  | .skipped, _ => .ok (.more ⟨chars, .plain⟩)
  | .used, none =>
    if isLow n then .error .malformed
    else if isHigh n then .ok (.more ⟨chars, .halfPair n⟩)
    else .ok (push .used chars (Char.ofNat n))
  | .used, some high =>
    if isLow n then .ok (push .used chars (joinPair high n)) else .error .malformed

/-- Read one character of a string. -/
def step (care : Care) (r : Reading) (c : Char) : Except Fault Progress :=
  match r.mode with
  | .plain =>
    if c = '"' then .ok (.closed (String.ofList r.chars.reverse))
    else if c = '\\' then .ok (.more ⟨r.chars, .escaped⟩)
    else if c.toNat < 32 then .error .malformed
    else .ok (push care r.chars c)
  | .escaped =>
    if c = 'u' then .ok (.more ⟨r.chars, .digits none 0 (some 0)⟩)
    else
      match shortEscape? c with
      | some e => .ok (push care r.chars e)
      | none => .error .malformed
  | .digits high seen value =>
    -- The four bytes after the `u` are judged together, once all are there.
    let seen := seen + c.utf8Size
    let value := value.bind fun v => (hexDigit? c).map (v * 16 + ·)
    if seen < 4 then .ok (.more ⟨r.chars, .digits high seen value⟩)
    else
      match value with
      | some n => complete care r.chars high n
      | none => .error .malformed
  | .halfPair high =>
    if c = '\\' then .ok (.more ⟨r.chars, .halfPairEscaped high⟩) else .error .malformed
  | .halfPairEscaped high =>
    if c = 'u' then .ok (.more ⟨r.chars, .digits (some high) 0 (some 0)⟩)
    else .error .malformed

end Reading

end Quoted

end Json
end TemplateScript

namespace TemplateScript
namespace Json

/-!
# JSON values and the texts that spell them

A value can be spelled in many ways: blanks stand around its parts as one
likes, a character of a string is written as it is or by one of several
escapes, and the members of an object come in some order, with repetitions if
there are any.  The relations below say which texts spell which values, by the
usual grammar and without any reference to how a text is read.

An object is the list of its members as they stand in the text.  A number is
its numeral, since nothing here depends on more.  The halves of an escaped
surrogate pair come together, so every string is proper text.
-/

/-! ## Numerals -/

/-- At least one decimal digit, and nothing else. -/
def Digits (cs : List Char) : Prop := cs ≠ [] ∧ ∀ c ∈ cs, '0' ≤ c ∧ c ≤ '9'

/-- The exponent of a numeral. -/
structure Exponent where
  mark : Char
  sign : List Char
  digits : List Char
  isMark : mark = 'e' ∨ mark = 'E'
  isSign : sign = [] ∨ sign = ['+'] ∨ sign = ['-']
  areDigits : Digits digits

/-- A number, as it is written. -/
structure Number where
  negative : Bool
  whole : List Char
  fraction : Option (List Char)
  exponent : Option Exponent
  wholeDigits : Digits whole
  /-- A zero at the beginning stands alone. -/
  leadingZero : whole.head? = some '0' → whole = ['0']
  fractionDigits : ∀ digits ∈ fraction, Digits digits

/-- The exponent's text. -/
def Exponent.text (e : Exponent) : List Char := e.mark :: (e.sign ++ e.digits)

/-- The numeral. -/
def Number.text (n : Number) : List Char :=
  (if n.negative then ['-'] else []) ++
    (n.whole ++ (n.fraction.elim [] ('.' :: ·) ++ n.exponent.elim [] Exponent.text))

/-- A JSON value. -/
inductive Value where
  | null
  | boolean (b : Bool)
  | number (n : Number)
  | text (s : String)
  | array (items : List Value)
  | object (members : List (String × Value))

/-! ## Strings -/

/-- A hexadecimal digit, in either case. -/
def HexDigit (n : Nat) (c : Char) : Prop :=
  n < 16 ∧ (c = Nat.digitChar n ∨ c = (Nat.digitChar n).toUpper)

/-- Four hexadecimal digits and their number. -/
inductive FourDigits : Nat → List Char → Prop where
  | mk {a b c d : Nat} {w x y z : Char} : HexDigit a w → HexDigit b x → HexDigit c y →
      HexDigit d z → FourDigits (((a * 16 + b) * 16 + c) * 16 + d) [w, x, y, z]

/-- The letters that stand for a character behind a backslash. -/
def letters : List (Char × Char) :=
  [('"', '"'), ('\\', '\\'), ('/', '/'), ('b', '\x08'), ('f', '\x0c'), ('n', '\n'), ('r', '\r'),
    ('t', '\t')]

/-- A way to write a character in a string. -/
inductive SpellsChar : Char → List Char → Prop where
  | plain {c : Char} : c ≠ '"' → c ≠ '\\' → 32 ≤ c.toNat → SpellsChar c [c]
  | letter {c l : Char} : (l, c) ∈ letters → SpellsChar c ['\\', l]
  | number {c : Char} {digits : List Char} :
      FourDigits c.toNat digits → SpellsChar c ('\\' :: 'u' :: digits)
  | pair {c : Char} {high low : Nat} {first second : List Char} :
      FourDigits high first → 0xD800 ≤ high ∧ high ≤ 0xDBFF →
      FourDigits low second → 0xDC00 ≤ low ∧ low ≤ 0xDFFF →
      c.toNat = 0x10000 + (high - 0xD800) * 0x400 + (low - 0xDC00) →
      SpellsChar c ('\\' :: 'u' :: (first ++ '\\' :: 'u' :: second))

/-- The inside of a string. -/
inductive SpellsChars : List Char → List Char → Prop where
  | nil : SpellsChars [] []
  | cons {c : Char} {text front back : List Char} :
      SpellsChar c front → SpellsChars text back → SpellsChars (c :: text) (front ++ back)

/-- A string in its quotes. -/
inductive SpellsString : String → List Char → Prop where
  | mk {s : String} {body : List Char} :
      SpellsChars s.toList body → SpellsString s ('"' :: (body ++ ['"']))

/-! ## Values -/

/-- Characters that may stand around the parts of a text. -/
def Blank (cs : List Char) : Prop := ∀ c ∈ cs, c = ' ' ∨ c = '\t' ∨ c = '\n' ∨ c = '\r'

/-- The name of a member. -/
inductive SpellsName : String → List Char → Prop where
  | mk {key : String} {before cs after : List Char} :
      Blank before → SpellsString key cs → Blank after → SpellsName key (before ++ (cs ++ after))

mutual

/-- A value without blanks around it. -/
inductive SpellsValue : Value → List Char → Prop where
  | null : SpellsValue .null ['n', 'u', 'l', 'l']
  | true : SpellsValue (.boolean .true) ['t', 'r', 'u', 'e']
  | false : SpellsValue (.boolean .false) ['f', 'a', 'l', 's', 'e']
  | number (n : Number) : SpellsValue (.number n) n.text
  | text {s : String} {cs : List Char} : SpellsString s cs → SpellsValue (.text s) cs
  | emptyArray {blank : List Char} :
      Blank blank → SpellsValue (.array []) ('[' :: (blank ++ [']']))
  | array {items : List Value} {cs : List Char} :
      SpellsElements items cs → SpellsValue (.array items) ('[' :: (cs ++ [']']))
  | emptyObject {blank : List Char} :
      Blank blank → SpellsValue (.object []) ('\x7b' :: (blank ++ ['\x7d']))
  | object {members : List (String × Value)} {cs : List Char} :
      SpellsMembers members cs → SpellsValue (.object members) ('\x7b' :: (cs ++ ['\x7d']))

/-- A value with blanks around it.  A whole text is one, too. -/
inductive SpellsElement : Value → List Char → Prop where
  | mk {v : Value} {before cs after : List Char} :
      Blank before → SpellsValue v cs → Blank after → SpellsElement v (before ++ (cs ++ after))

/-- At least one element, with commas between them. -/
inductive SpellsElements : List Value → List Char → Prop where
  | one {v : Value} {cs : List Char} : SpellsElement v cs → SpellsElements [v] cs
  | more {v : Value} {items : List Value} {cs rest : List Char} :
      SpellsElement v cs → SpellsElements items rest →
      SpellsElements (v :: items) (cs ++ ',' :: rest)

/-- At least one member, with commas between them. -/
inductive SpellsMembers : List (String × Value) → List Char → Prop where
  | one {key : String} {v : Value} {name cs : List Char} :
      SpellsName key name → SpellsElement v cs → SpellsMembers [(key, v)] (name ++ ':' :: cs)
  | more {key : String} {v : Value} {members : List (String × Value)} {name cs rest : List Char} :
      SpellsName key name → SpellsElement v cs → SpellsMembers members rest →
      SpellsMembers ((key, v) :: members) (name ++ ':' :: (cs ++ ',' :: rest))

end

end Json
end TemplateScript

namespace TemplateScript
namespace Json
namespace Numeral

/-!
# Numbers in JSON

No part of a configuration is a number, so all that is kept of one is what
decides whether it can be read at all: its form, and its size.  The digits
are collected into a significand of 64 bits and a power of ten.
-/

/-- What of a number has been read. -/
inductive Stage where
  /-- A minus sign: a digit must follow. -/
  | sign
  /-- A leading zero: no digit may follow. -/
  | zero
  | whole
  /-- A decimal point: a digit must follow. -/
  | point
  | fraction
  /-- The mark of an exponent: a sign or a digit must follow. -/
  | mark
  /-- An exponent's sign: a digit must follow. -/
  | markSign
  | exponent
  deriving DecidableEq

/-- A number that is being read. -/
structure Reading where
  stage : Stage
  significand : Nat := 0
  /-- The power of ten that the significand is to be multiplied by. -/
  scale : Int := 0
  /-- Further digits of this part no longer fit the significand. -/
  full : Bool := false
  negativeExponent : Bool := false
  exponent : Nat := 0
  deriving DecidableEq

/-- What a character does to a number that is being read. -/
inductive Progress where
  | more (r : Reading)
  /-- The number ended before the character. -/
  | ended
  | malformed
  deriving DecidableEq

/-- The value of a decimal digit. -/
def digit? (c : Char) : Option Nat :=
  if '0' ≤ c ∧ c ≤ '9' then some (c.toNat - 48) else none

namespace Reading

/-- Does another digit fit the significand? -/
def fits (r : Reading) (d : Nat) : Bool := !r.full && r.significand * 10 + d < UInt64.size

/-- A digit before the decimal point. -/
def addWhole (r : Reading) (d : Nat) : Reading :=
  if r.fits d then { r with stage := .whole, significand := r.significand * 10 + d }
  else { r with stage := .whole, scale := r.scale + 1, full := true }

/-- A digit after the decimal point. -/
def addFraction (r : Reading) (d : Nat) : Reading :=
  if r.fits d then
    { r with stage := .fraction, significand := r.significand * 10 + d, scale := r.scale - 1 }
  else { r with stage := .fraction, full := true }

/-- A digit of the exponent. -/
def addExponent (r : Reading) (d : Nat) : Reading :=
  { r with stage := .exponent, exponent := r.exponent * 10 + d }

/-- A number's first digit. -/
def first (d : Nat) : Reading :=
  if d = 0 then ⟨.zero, 0, 0, false, false, 0⟩ else ⟨.whole, d, 0, false, false, 0⟩

/-- What may follow a complete part: a point if `pointAllowed`, or an exponent. -/
def afterPart (r : Reading) (pointAllowed : Bool) (c : Char) : Progress :=
  if c = '.' ∧ pointAllowed then .more { r with stage := .point, full := false }
  else if c = 'e' ∨ c = 'E' then .more { r with stage := .mark }
  else .ended

/-- Read one character of a number. -/
def step (r : Reading) (c : Char) : Progress :=
  match r.stage, digit? c with
  | .sign, some d => .more (first d)
  | .sign, none => .malformed
  | .zero, some _ => .malformed
  | .zero, none => r.afterPart true c
  | .whole, some d => .more (r.addWhole d)
  | .whole, none => r.afterPart true c
  | .point, some d => .more (r.addFraction d)
  | .point, none => .malformed
  | .fraction, some d => .more (r.addFraction d)
  | .fraction, none => r.afterPart false c
  | .mark, some d => .more (r.addExponent d)
  | .mark, none =>
    if c = '+' then .more { r with stage := .markSign }
    else if c = '-' then .more { r with stage := .markSign, negativeExponent := true }
    else .malformed
  | .markSign, some d => .more (r.addExponent d)
  | .markSign, none => .malformed
  | .exponent, some d => .more (r.addExponent d)
  | .exponent, none => .ended

/-- May the number end here? -/
def complete (r : Reading) : Bool :=
  match r.stage with
  | .zero | .whole | .fraction | .exponent => true
  | .sign | .point | .mark | .markSign => false

/-- The power of ten of the whole number. -/
def power (r : Reading) : Int :=
  if r.negativeExponent then r.scale - r.exponent else r.scale + r.exponent

/-- Is the number no larger than the largest one of double precision? -/
def inRange (r : Reading) : Bool :=
  r.significand = 0 || r.power < 0 ||
    (r.power ≤ 308 &&
      !(Float.ofNat r.significand * Float.ofScientific 1 false r.power.toNat).isInf)

end Reading

end Numeral
end Json
end TemplateScript

namespace TemplateScript

/-!
# Durations and their text

A duration is written in the largest of the units s, ms, µs and ns of which it
holds at least one: the whole part, then the exact fraction without trailing
zeros.
-/

/-- A span of time. -/
structure Duration where
  nanoseconds : Nat
  deriving DecidableEq

namespace Duration

/-- A number of milliseconds. -/
def ofMilliseconds (n : Nat) : Duration := ⟨n * 1000000⟩

/-- The decimal digits of `n`, most significant first, padded to `width`. -/
def paddedDigits (width n : Nat) : List Char :=
  match width with
  | 0 => []
  | width + 1 => paddedDigits width (n / 10) ++ [Nat.digitChar (n % 10)]

/-- Drop the zeros at the end. -/
def trimZeros (digits : List Char) : List Char :=
  (digits.reverse.dropWhile (fun c => decide (c = '0'))).reverse

/-- The quotient of `n` by the `places`-th power of ten, as a decimal. -/
def decimal (n places : Nat) : String :=
  let unit := Nat.pow 10 places
  let fraction := trimZeros (paddedDigits places (n % unit))
  if fraction.isEmpty then toString (n / unit)
  else toString (n / unit) ++ "." ++ String.ofList fraction

/-- The duration with its unit. -/
def text (d : Duration) : String :=
  if 1000000000 ≤ d.nanoseconds then decimal d.nanoseconds 9 ++ "s"
  else if 1000000 ≤ d.nanoseconds then decimal d.nanoseconds 6 ++ "ms"
  else if 1000 ≤ d.nanoseconds then decimal d.nanoseconds 3 ++ "µs"
  else decimal d.nanoseconds 0 ++ "ns"

end Duration

end TemplateScript

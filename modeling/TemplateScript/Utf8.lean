namespace TemplateScript

/-- The content of a file or a stream. -/
abbrev Bytes := List UInt8

namespace Utf8

/-!
# UTF-8

A sequence decodes to a character exactly if it is that character's encoding,
so overlong forms, surrogates and numbers beyond the last character are refused
without being listed.
-/

/-- The encoding of a text. -/
def encode (cs : List Char) : Bytes := cs.flatMap String.utf8EncodeChar

@[simp] theorem encode_nil : encode [] = [] := rfl

@[simp] theorem encode_cons (c : Char) (cs : List Char) :
    encode (c :: cs) = String.utf8EncodeChar c ++ encode cs := by
  simp only [encode, List.flatMap_cons]

theorem encode_append (front back : List Char) :
    encode (front ++ back) = encode front ++ encode back := by
  simp only [encode, List.flatMap_append]

/-- The length of the sequence that a first byte announces. -/
def width? (first : UInt8) : Option Nat :=
  if first ≤ 0x7F then some 1
  else if 0xC2 ≤ first ∧ first ≤ 0xDF then some 2
  else if 0xE0 ≤ first ∧ first ≤ 0xEF then some 3
  else if 0xF0 ≤ first ∧ first ≤ 0xF4 then some 4
  else none

/-- The number that the bits of a sequence spell, whether or not the sequence is
well formed. -/
def number : Bytes → Nat
  | [a] => a.toNat
  | [a, b] => a.toNat % 32 * 64 + b.toNat % 64
  | [a, b, c] => a.toNat % 16 * 4096 + b.toNat % 64 * 64 + c.toNat % 64
  | [a, b, c, d] =>
    a.toNat % 8 * 262144 + b.toNat % 64 * 4096 + c.toNat % 64 * 64 + d.toNat % 64
  | _ => 0

/-- The character that a sequence encodes. -/
def decodeChar? (sequence : Bytes) : Option Char :=
  let c := Char.ofNat (number sequence)
  if String.utf8EncodeChar c = sequence then some c else none

/-- Decode the front of `bytes`, of which `fuel` bounds the length, onto the
characters read before. -/
def decodeFrom? : Nat → Bytes → Array Char → Option (List Char)
  | _, [], done => some done.toList
  | 0, _ :: _, _ => none
  | fuel + 1, first :: rest, done =>
    match width? first with
    | none => none
    | some width =>
      match decodeChar? (first :: rest.take (width - 1)) with
      | none => none
      | some c => decodeFrom? fuel (rest.drop (width - 1)) (done.push c)

/-- The text that bytes encode. -/
def decode? (bytes : Bytes) : Option (List Char) :=
  decodeFrom? bytes.length bytes #[]

end Utf8

end TemplateScript

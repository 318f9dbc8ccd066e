import Mathlib.Algebra.Group.Nat.Even
import Mathlib.Data.List.DropRight
import TemplateScript.Escape

namespace TemplateScript
namespace Escape

/-!
# Where a text with escapes may be cut

A backslash is read together with the character behind it, whatever that
character is.  So the parts of a text can be read separately only if no
backslash is parted from its character.  A text that is written out never leaves
a backslash alone, and for any other text the run of backslashes at its end
tells: they are read in pairs, so an even run is closed and an odd one is not.
-/

/-- The text is read to its end without a backslash being left over. -/
inductive Aligned : List Char → Prop where
  | nil : Aligned []
  | plain {c : Char} {rest : List Char} (noBackslash : c ≠ '\\') (further : Aligned rest) :
      Aligned (c :: rest)
  | pair (c : Char) {rest : List Char} (further : Aligned rest) : Aligned ('\\' :: c :: rest)

theorem decodeChars_plain {c : Char} (noBackslash : c ≠ '\\') (rest : List Char) :
    decodeChars (c :: rest) = c :: decodeChars rest := by
  rw [decodeChars]
  intro d behind same
  exact absurd same noBackslash

/-- What is read for a pair does not depend on the text behind it. -/
theorem decodeChars_pair (c : Char) (rest : List Char) :
    decodeChars ('\\' :: c :: rest) = decodeChars ['\\', c] ++ decodeChars rest := by
  simp only [decodeChars]
  cases meaning? c <;> rfl

theorem Aligned.decodeChars_append {front : List Char} (aligned : Aligned front)
    (back : List Char) : decodeChars (front ++ back) = decodeChars front ++ decodeChars back := by
  induction aligned with
  | nil => rfl
  | plain noBackslash further ih =>
    rw [List.cons_append, decodeChars_plain noBackslash, decodeChars_plain noBackslash, ih,
      List.cons_append]
  | pair c further ih =>
    rw [List.cons_append, List.cons_append, decodeChars_pair, ih, ← List.append_assoc,
      ← decodeChars_pair]

/-- At most one backslash is left over, and it is the last character. -/
theorem aligned_or_open (text : List Char) :
    Aligned text ∨ ∃ front, Aligned front ∧ text = front ++ ['\\'] := by
  fun_induction decodeChars text with
  | case1 => exact .inl .nil
  | case2 c rest e meant ih =>
    rcases ih with closed | ⟨front, closed, rfl⟩
    · exact .inl (.pair c closed)
    · exact .inr ⟨'\\' :: c :: front, .pair c closed, rfl⟩
  | case3 c rest unknown ih =>
    rcases ih with closed | ⟨front, closed, rfl⟩
    · exact .inl (.pair c closed)
    · exact .inr ⟨'\\' :: c :: front, .pair c closed, rfl⟩
  | case4 c rest noPair ih =>
    by_cases backslash : c = '\\'
    · cases rest with
      | nil => exact .inr ⟨[], .nil, by rw [backslash]; rfl⟩
      | cons d behind => exact absurd rfl (noPair d behind backslash)
    · rcases ih with closed | ⟨front, closed, rfl⟩
      · exact .inl (.plain backslash closed)
      · exact .inr ⟨c :: front, .plain backslash closed, rfl⟩

theorem Aligned.append {front back : List Char} (first : Aligned front) (second : Aligned back) :
    Aligned (front ++ back) := by
  induction first with
  | nil => exact second
  | plain noBackslash further ih => exact .plain noBackslash ih
  | pair c further ih => exact .pair c ih

theorem Aligned.not_aligned_backslash {front : List Char} (aligned : Aligned front) :
    ¬ Aligned (front ++ ['\\']) := by
  intro closed
  induction aligned with
  | nil =>
    cases closed with
    | plain noBackslash further => exact noBackslash rfl
  | @plain c rest noBackslash further ih =>
    rw [List.cons_append] at closed
    generalize rest ++ ['\\'] = behind at closed ih
    cases closed with
    | plain _ rest => exact ih rest
    | pair c rest => exact noBackslash rfl
  | pair c further ih =>
    cases closed with
    | plain noBackslash rest => exact noBackslash rfl
    | pair _ rest => exact ih rest

/-! ## The backslashes at the end -/

/-- Any character closes a text, except for a backslash behind a closed one. -/
theorem aligned_concat_iff (text : List Char) (c : Char) :
    Aligned (text ++ [c]) ↔ (c = '\\' → ¬ Aligned text) := by
  constructor
  · rintro closed rfl before
    exact before.not_aligned_backslash closed
  · intro apart
    rcases aligned_or_open text with before | ⟨front, before, rfl⟩
    · exact before.append (.plain (fun backslash => apart backslash before) .nil)
    · rw [List.append_assoc]
      exact before.append (.pair c .nil)

theorem aligned_iff_even (text : List Char) :
    Aligned text ↔ Even (text.rtakeWhile (· = '\\')).length := by
  induction text using List.reverseRecOn with
  | nil => exact ⟨fun _ => Even.zero, fun _ => .nil⟩
  | append_singleton text c ih =>
    rw [aligned_concat_iff, List.rtakeWhile_concat]
    by_cases backslash : c = '\\'
    · -- One more backslash changes the parity and closes what was open.
      simp [backslash, Nat.even_add_one, ih]
    · simp [backslash]

/-! ## Texts that are written out -/

/-- Write a character so that reading gives it back. -/
def encodeChar (c : Char) : List Char :=
  if c = '\\' then ['\\', '\\']
  else if c = '\n' then ['\\', 'n']
  else if c = '\t' then ['\\', 't']
  else if c = '\r' then ['\\', 'r']
  else if c = '"' then ['\\', '"']
  else [c]

/-- Write a text so that reading gives it back. -/
def encode (s : String) : String := String.ofList (s.toList.flatMap encodeChar)

theorem aligned_encodeChar (c : Char) :
    Aligned (encodeChar c) ∧ decodeChars (encodeChar c) = [c] := by
  unfold encodeChar
  by_cases backslash : c = '\\'
  · rw [if_pos backslash, backslash]
    exact ⟨.pair _ .nil, rfl⟩
  · rw [if_neg backslash]
    split_ifs with newline tab carriage quote
    · exact ⟨.pair _ .nil, by rw [newline]; rfl⟩
    · exact ⟨.pair _ .nil, by rw [tab]; rfl⟩
    · exact ⟨.pair _ .nil, by rw [carriage]; rfl⟩
    · exact ⟨.pair _ .nil, by rw [quote]; rfl⟩
    · exact ⟨.plain backslash .nil, decodeChars_plain backslash []⟩

theorem decodeChars_encode_append (text rest : List Char) :
    decodeChars (text.flatMap encodeChar ++ rest) = text ++ decodeChars rest := by
  induction text with
  | nil => rfl
  | cons c text ih =>
    rcases aligned_encodeChar c with ⟨aligned, decoded⟩
    rw [List.flatMap_cons, List.append_assoc, aligned.decodeChars_append, decoded, ih]
    rfl

/-- A backslash that is left over takes the next character with it. -/
theorem decodeChars_open_append_ne {front : List Char} (aligned : Aligned front) :
    decodeChars (front ++ ['\\'] ++ ['\\']) ≠
      decodeChars (front ++ ['\\']) ++ decodeChars ['\\'] := by
  intro same
  rw [List.append_assoc, aligned.decodeChars_append, aligned.decodeChars_append] at same
  have lengths := congrArg List.length same
  have one : (decodeChars (['\\'] ++ ['\\'])).length = 1 := by decide
  have alone : (decodeChars ['\\']).length = 1 := by decide
  simp only [List.length_append, one, alone] at lengths
  omega

theorem decodeChars_append_iff (front : List Char) :
    (∀ rest, decodeChars (front ++ rest) = decodeChars front ++ decodeChars rest) ↔
      Aligned front := by
  constructor
  · intro splits
    rcases aligned_or_open front with aligned | ⟨before, aligned, rfl⟩
    · exact aligned
    · exact absurd (splits ['\\']) (decodeChars_open_append_ne aligned)
  · intro aligned rest
    exact aligned.decodeChars_append rest

theorem toList_decode (text : String) : (decode text).toList = decodeChars text.toList :=
  String.toList_ofList

/-- Every string can be written so that it is read back, also in front of other
text.  A text can be read apart from whatever stands behind it exactly if the
run of backslashes at its end has an even length. -/
theorem decode_reads_back_and_splits :
    (∀ text rest : String, decode (encode text ++ rest) = text ++ decode rest) ∧
      ∀ front : String,
        (∀ rest : String, decode (front ++ rest) = decode front ++ decode rest) ↔
          Even (front.toList.rtakeWhile (· = '\\')).length := by
  constructor
  · intro text rest
    apply String.toList_injective
    rw [toList_decode, String.toList_append, String.toList_append, toList_decode, encode,
      String.toList_ofList, decodeChars_encode_append]
  · intro front
    rw [← aligned_iff_even, ← decodeChars_append_iff]
    constructor
    · intro splits rest
      have read := congrArg String.toList (splits (String.ofList rest))
      simpa only [toList_decode, String.toList_append, String.toList_ofList] using read
    · intro splits rest
      apply String.toList_injective
      simpa only [toList_decode, String.toList_append] using splits rest.toList

end Escape
end TemplateScript

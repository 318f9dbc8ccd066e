import Mathlib.Data.List.Basic
import TemplateScript.Utf8

namespace TemplateScript
namespace Utf8

/-!
# Reading back what was encoded

The first byte of a character's encoding announces the length of the encoding,
and the bits of the encoding spell the character.  So a decoder that trusts the
first byte reads every encoded text back, and it reads nothing else, since it
compares each character with its encoding.
-/

/-- There are fewer than 17 planes of characters. -/
theorem toNat_val_lt (c : Char) : c.val.toNat < 0x110000 := by
  have valid : c.val.toNat.isValidChar := c.valid
  unfold Nat.isValidChar at valid
  omega

theorem number_utf8EncodeChar (c : Char) : number (String.utf8EncodeChar c) = c.toNat := by
  have bound := toNat_val_lt c
  change _ = c.val.toNat
  unfold String.utf8EncodeChar
  generalize c.val.toNat = v at bound
  -- One case for each length; the masks and shifts are remainders and quotients.
  simp only
  split_ifs <;> simp only [number, UInt8.toNat_ofNat'] <;> omega

/-- The length of an encoding is announced by its first byte. -/
theorem exists_width?_eq (c : Char) :
    ∃ first rest, String.utf8EncodeChar c = first :: rest ∧
      width? first = some (rest.length + 1) := by
  have bound := toNat_val_lt c
  unfold String.utf8EncodeChar
  generalize c.val.toNat = v at bound
  simp only
  split_ifs
  all_goals
    refine ⟨_, _, rfl, ?_⟩
    simp only [width?, UInt8.le_iff_toNat_le, UInt8.toNat_ofNat', UInt8.reduceToNat]
    split_ifs <;> first | rfl | omega

theorem decodeChar?_eq_some_iff {sequence : Bytes} {c : Char} :
    decodeChar? sequence = some c ↔ sequence = String.utf8EncodeChar c := by
  constructor
  · intro decoded
    simp only [decodeChar?] at decoded
    split_ifs at decoded with same
    cases decoded
    exact same.symm
  · intro encoded
    have spelled : Char.ofNat (number sequence) = c := by
      rw [encoded, number_utf8EncodeChar, Char.ofNat_toNat]
    simp only [decodeChar?]
    rw [spelled, if_pos encoded.symm]

theorem utf8EncodeChar_injective {c d : Char}
    (same : String.utf8EncodeChar c = String.utf8EncodeChar d) : c = d := by
  have decoded := decodeChar?_eq_some_iff.mpr same
  rw [decodeChar?_eq_some_iff.mpr rfl] at decoded
  exact Option.some.inj decoded

/-- No character's encoding is the beginning of another's. -/
theorem utf8EncodeChar_append_inj {c d : Char} {behind after : Bytes}
    (same : String.utf8EncodeChar c ++ behind = String.utf8EncodeChar d ++ after) :
    c = d ∧ behind = after := by
  rcases exists_width?_eq c with ⟨first, rest, encoded, announced⟩
  rcases exists_width?_eq d with ⟨first', rest', encoded', announced'⟩
  rw [encoded, encoded', List.cons_append, List.cons_append, List.cons.injEq] at same
  rcases same with ⟨rfl, same⟩
  have lengths : rest.length = rest'.length := by
    rw [announced] at announced'
    simpa using announced'
  rcases List.append_inj same lengths with ⟨rfl, sameBehind⟩
  exact ⟨utf8EncodeChar_injective (encoded.trans encoded'.symm), sameBehind⟩

/-! ## Encoded text in front of other bytes -/

/-- The bytes begin with no character. -/
def Stuck (bytes : Bytes) : Prop := ∀ c, ¬ String.utf8EncodeChar c <+: bytes

theorem stuck_nil : Stuck [] := by
  intro c encoded
  exact String.utf8EncodeChar_ne_nil (List.prefix_nil.mp encoded)

/-- Bytes are encoded text as far as characters can be read from them. -/
theorem exists_encode_append_stuck (bytes : Bytes) :
    ∃ text rest, bytes = encode text ++ rest ∧ Stuck rest := by
  -- What stands behind the first character is shorter.
  induction size : bytes.length using Nat.strongRecOn generalizing bytes with
  | ind n ih =>
    by_cases begins : ∃ c, String.utf8EncodeChar c <+: bytes
    · rcases begins with ⟨c, behind, split⟩
      have positive := List.length_pos_of_ne_nil (String.utf8EncodeChar_ne_nil (c := c))
      have shorter : behind.length < n := by
        rw [← size, ← split, List.length_append]
        omega
      rcases ih behind.length shorter behind rfl with ⟨text, rest, splitBehind, stuck⟩
      refine ⟨c :: text, rest, ?_, stuck⟩
      rw [← split, splitBehind, encode_cons, List.append_assoc]
    · exact ⟨[], bytes, rfl, not_exists.mp begins⟩

/-- Text that can be read from the front of some bytes is a beginning of all the
text that can be read. -/
theorem prefix_of_stuck {text other : List Char} {rest : Bytes} (stuck : Stuck rest)
    (encoded : encode other <+: encode text ++ rest) : other <+: text := by
  induction text generalizing other with
  | nil =>
    cases other with
    | nil => exact List.prefix_refl []
    | cons c other =>
      rw [encode_cons, encode_nil, List.nil_append] at encoded
      exact absurd ((List.prefix_append _ _).trans encoded) (stuck c)
  | cons d text ih =>
    cases other with
    | nil => exact List.nil_prefix
    | cons c other =>
      rcases encoded with ⟨behind, same⟩
      rw [encode_cons, encode_cons, List.append_assoc, List.append_assoc] at same
      rcases utf8EncodeChar_append_inj same with ⟨rfl, sameBehind⟩
      exact List.cons_prefix_cons.mpr ⟨rfl, ih ⟨behind, sameBehind⟩⟩

theorem encode_prefix_encode_iff {text other : List Char} :
    encode other <+: encode text ↔ other <+: text := by
  constructor
  · intro encoded
    rw [← List.append_nil (encode text)] at encoded
    exact prefix_of_stuck stuck_nil encoded
  · rintro ⟨behind, rfl⟩
    rw [encode_append]
    exact List.prefix_append _ _

/-! ## Decoding whole texts -/

theorem decodeFrom?_encode (text : List Char) (fuel : Nat) (done : Array Char)
    (enough : (encode text).length ≤ fuel) :
    decodeFrom? fuel (encode text) done = some (done.toList ++ text) := by
  induction text generalizing fuel done with
  | nil => simp only [encode_nil, decodeFrom?, List.append_nil]
  | cons c text ih =>
    rcases exists_width?_eq c with ⟨first, rest, encoded, announced⟩
    rw [encode_cons, encoded, List.cons_append, List.length_cons, List.length_append] at enough
    rw [encode_cons, encoded, List.cons_append]
    cases fuel with
    | zero => omega
    | succ fuel =>
      have decoded : decodeChar? (first :: rest) = some c := decodeChar?_eq_some_iff.mpr encoded.symm
      simp only [decodeFrom?, announced, Nat.add_sub_cancel, List.take_left, List.drop_left, decoded]
      rw [ih fuel (done.push c) (by omega)]
      simp only [Array.toList_push, List.append_assoc, List.singleton_append]

@[simp] theorem decode?_encode (text : List Char) : decode? (encode text) = some text :=
  decodeFrom?_encode text _ #[] (Nat.le_refl _)

/-- Only encoded text is decoded. -/
theorem eq_encode_of_decodeFrom? {fuel : Nat} {bytes : Bytes} {done : Array Char}
    {text : List Char} (decoded : decodeFrom? fuel bytes done = some text) :
    ∃ rest, text = done.toList ++ rest ∧ bytes = encode rest := by
  fun_induction decodeFrom? fuel bytes done with
  | case1 fuel done =>
    cases decoded
    exact ⟨[], (List.append_nil _).symm, rfl⟩
  | case2 => cases decoded
  | case3 => cases decoded
  | case4 => cases decoded
  | case5 fuel first rest done width announced c sequence ih =>
    rcases ih decoded with ⟨others, split, behind⟩
    refine ⟨c :: others, ?_, ?_⟩
    · rw [split, Array.toList_push, List.append_assoc, List.singleton_append]
    · rw [encode_cons, ← decodeChar?_eq_some_iff.mp sequence, ← behind, List.cons_append,
        List.take_append_drop]

theorem decode?_eq_some_iff {bytes : Bytes} {text : List Char} :
    decode? bytes = some text ↔ bytes = encode text := by
  constructor
  · intro decoded
    rcases eq_encode_of_decodeFrom? decoded with ⟨rest, split, encoded⟩
    change text = rest at split
    rw [split, encoded]
  · rintro rfl
    exact decode?_encode text

/-! ## Encoded text that is cut off -/

/-- The bytes are the encoding of a text up to somewhere inside a character. -/
structure EndsInside (text : List Char) (bytes : Bytes) (front : List Char) (c : Char)
    (part : Bytes) : Prop where
  inText : front ++ [c] <+: text
  split : bytes = encode front ++ part
  begun : part <+: String.utf8EncodeChar c
  nonempty : part ≠ []
  incomplete : part ≠ String.utf8EncodeChar c

/-- The part of a character's encoding begins with no character at all. -/
theorem EndsInside.stuck {text front : List Char} {bytes part : Bytes} {c : Char}
    (inside : EndsInside text bytes front c part) : Stuck part := by
  intro d encoded
  rcases encoded.trans inside.begun with ⟨behind, same⟩
  rw [← List.append_nil (String.utf8EncodeChar c)] at same
  rcases utf8EncodeChar_append_inj same with ⟨rfl, -⟩
  exact inside.incomplete (inside.begun.eq_of_length_le encoded.length_le)

theorem EndsInside.decode?_eq_none {text front : List Char} {bytes part : Bytes} {c : Char}
    (inside : EndsInside text bytes front c part) : decode? bytes = none := by
  cases decoded : decode? bytes with
  | none => rfl
  | some other =>
    have encoded : encode front ++ part = encode other :=
      inside.split.symm.trans (decode?_eq_some_iff.mp decoded)
    have early : other <+: front :=
      prefix_of_stuck inside.stuck (encoded ▸ List.prefix_refl _)
    have short := (encode_prefix_encode_iff.mpr early).length_le
    have positive := List.length_pos_of_ne_nil inside.nonempty
    rw [← encoded, List.length_append] at short
    omega

/-- Encoded text is cut off between two characters or inside of one. -/
theorem boundary_or_endsInside {text : List Char} {bytes : Bytes} (cut : bytes <+: encode text) :
    (∃ front, front <+: text ∧ bytes = encode front) ∨
      ∃ front c part, EndsInside text bytes front c part := by
  induction text generalizing bytes with
  | nil => exact .inl ⟨[], List.nil_prefix, List.prefix_nil.mp cut⟩
  | cons c text ih =>
    rw [encode_cons] at cut
    rcases List.prefix_or_prefix_of_prefix (List.prefix_append (String.utf8EncodeChar c) _) cut with
      ⟨behind, rfl⟩ | begun
    · rcases ih ((List.prefix_append_right_inj _).mp cut) with
        ⟨front, inText, rfl⟩ | ⟨front, d, part, inside⟩
      · exact .inl ⟨c :: front, List.cons_prefix_cons.mpr ⟨rfl, inText⟩, (encode_cons c front).symm⟩
      · refine .inr ⟨c :: front, d, part, ?_, ?_, inside.begun, inside.nonempty, inside.incomplete⟩
        · exact List.cons_prefix_cons.mpr ⟨rfl, inside.inText⟩
        · rw [encode_cons, inside.split, List.append_assoc]
    · by_cases nothing : bytes = []
      · exact .inl ⟨[], List.nil_prefix, nothing⟩
      · by_cases all : bytes = String.utf8EncodeChar c
        · refine .inl ⟨[c], List.cons_prefix_cons.mpr ⟨rfl, List.nil_prefix⟩, ?_⟩
          rw [all, encode_cons, encode_nil, List.append_nil]
        · refine .inr ⟨[], c, bytes, ?_, rfl, begun, nothing, all⟩
          exact List.cons_prefix_cons.mpr ⟨rfl, List.nil_prefix⟩

end Utf8
end TemplateScript

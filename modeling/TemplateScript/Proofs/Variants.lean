import Mathlib.Data.List.Perm.Basic
import TemplateScript.Proofs.Members

namespace TemplateScript

/-!
# Objects that are the same configuration

The members that describe a configuration are asked for by their names, so
their order does not matter, nor do members of other names.  What is loaded from
a file that holds an object is therefore a matter of its members, up to these,
and not of the text that spells them.
-/

namespace Json

theorem valuesAt_perm {members others : List (String × Value)} (same : members.Perm others)
    (name : String) : (valuesAt name members).Perm (valuesAt name others) :=
  (same.filter _).map _

theorem Optional.perm {α : Type} {holds : Value → α → Prop} {values others : List Value}
    {o : Option α} (optional : Optional holds values o) (same : values.Perm others) :
    Optional holds others o := by
  cases optional with
  | absent =>
    rw [← same.nil_eq]
    exact .absent
  | null =>
    rw [← List.singleton_perm.mp same]
    exact .null
  | given holds =>
    rw [← List.singleton_perm.mp same]
    exact .given holds

end Json

namespace Config

open Json (Value valuesAt optional_singleton_iff optional_cons_iff valuesAt_cons_self
  valuesAt_cons_of_ne)

/-- Members in another order, and with others of unknown names among them. -/
inductive Rearranged (known : String → Prop) :
    List (String × Value) → List (String × Value) → Prop where
  | perm {members others : List (String × Value)} :
      members.Perm others → Rearranged known members others
  | unknown {name : String} (v : Value) (members : List (String × Value)) :
      ¬ known name → Rearranged known members ((name, v) :: members)
  | symm {members others : List (String × Value)} :
      Rearranged known members others → Rearranged known others members
  | trans {members middle others : List (String × Value)} :
      Rearranged known members middle → Rearranged known middle others →
      Rearranged known members others

/-- The same configuration's members, rearranged, also inside its wrappers. -/
inductive Variant : List (String × Value) → List (String × Value) → Prop where
  | rearranged {members others : List (String × Value)} :
      Rearranged (fun name => name = "preset" ∨ name = "delimiters") members others →
      Variant members others
  | inside {inner others : List (String × Value)} (members : List (String × Value)) :
      Rearranged (fun name => ∃ slot : Slot, name = slot.key) inner others →
      Variant (("delimiters", .object inner) :: members) (("delimiters", .object others) :: members)
  | symm {members others : List (String × Value)} : Variant members others → Variant others members
  | trans {members middle others : List (String × Value)} :
      Variant members middle → Variant middle others → Variant members others

theorem Rearranged.valuesAt_perm {known : String → Prop} {members others : List (String × Value)}
    (rearranged : Rearranged known members others) {name : String} (isKnown : known name) :
    (valuesAt name members).Perm (valuesAt name others) := by
  induction rearranged with
  | perm same => exact Json.valuesAt_perm same name
  | unknown v members unknown =>
    rw [valuesAt_cons_of_ne]
    rintro rfl
    exact unknown isKnown
  | symm _ ih => exact ih.symm
  | trans _ _ first second => exact first.trans second

theorem Rearranged.wraps {inner others : List (String × Value)} {w : Wrappers}
    (rearranged : Rearranged (fun name => ∃ slot : Slot, name = slot.key) inner others)
    (wraps : Wraps (.object inner) w) : Wraps (.object others) w := by
  cases wraps with
  | object once =>
    apply Wraps.object
    intro slot
    have same := rearranged.valuesAt_perm ⟨slot, rfl⟩
    rw [once slot] at same
    exact (List.singleton_perm.mp same).symm

theorem Rearranged.describes {members others : List (String × Value)} {c : Config}
    (rearranged :
      Rearranged (fun name => name = "preset" ∨ name = "delimiters") members others)
    (describes : Describes members c) : Describes others c where
  preset := describes.preset.perm (rearranged.valuesAt_perm (.inl rfl))
  wrappers := describes.wrappers.perm (rearranged.valuesAt_perm (.inr rfl))

theorem describes_inside {inner others members : List (String × Value)} {c : Config}
    (rearranged : Rearranged (fun name => ∃ slot : Slot, name = slot.key) inner others)
    (describes : Describes (("delimiters", .object inner) :: members) c) :
    Describes (("delimiters", .object others) :: members) c := by
  rcases describes with ⟨preset, wrappers⟩
  rw [valuesAt_cons_of_ne (by decide)] at preset
  rw [valuesAt_cons_self, optional_cons_iff] at wrappers
  refine ⟨?_, ?_⟩
  · rw [valuesAt_cons_of_ne (by decide)]
    exact preset
  · rw [valuesAt_cons_self, optional_cons_iff]
    refine ⟨?_, wrappers.2⟩
    rcases optional_singleton_iff.mp wrappers.1 with ⟨null, -⟩ | ⟨held, wraps, isHeld⟩
    · cases null
    · exact optional_singleton_iff.mpr (.inr ⟨held, rearranged.wraps wraps, isHeld⟩)

theorem Variant.describes_iff {members others : List (String × Value)}
    (variant : Variant members others) (c : Config) :
    Describes members c ↔ Describes others c := by
  induction variant with
  | rearranged rearranged => exact ⟨rearranged.describes, rearranged.symm.describes⟩
  | inside _ rearranged =>
    exact ⟨describes_inside rearranged, describes_inside rearranged.symm⟩
  | symm _ ih => exact ih.symm
  | trans _ _ first second => exact first.trans second

/-! ## Objects in files -/

theorem ofBytes_encode_eq (p : Path) (text : List Char) :
    ofBytes p (Utf8.encode text) =
      (parse text).mapError fun fault => .invalidConfig p.spelling fault text := by
  simp only [ofBytes, Utf8.decode?_encode]
  cases parse text <;> rfl

theorem load_eq_ok_iff {members : List (String × Value)} {text : List Char}
    (spelled : Json.SpellsElement (.object members) text) {p : Path} {w : World}
    (stored : w.files.access p = .ok (.file (Utf8.encode text))) (c : Config) :
    (load p).run w = (.ok c, w) ↔ Describes members c := by
  rw [run_load_file stored, ofBytes_encode_eq, ← parse_eq_ok_iff spelled]
  cases parse text <;> simp [Except.mapError]

/-- A stored object is loaded exactly if its members describe a configuration, which is then
the one that is loaded; any other object is refused as invalid.  So the result is that of
every other text of the same members, and of the members rearranged, wherever it is stored. -/
theorem load_spelled_object {members : List (String × Value)} {text : List Char}
    (spelled : Json.SpellsElement (.object members) text) {p : Path} {w : World}
    (stored : w.files.access p = .ok (.file (Utf8.encode text))) :
    (∀ c, (load p).run w = (.ok c, w) ↔ Describes members c) ∧
    ((¬ ∃ c, Describes members c) ↔
      ∃ fault, (load p).run w = (.error (.invalidConfig p.spelling fault text), w)) ∧
    ∀ others, Variant members others → ∀ spelling, Json.SpellsElement (.object others) spelling →
      ∀ (q : Path) (v : World), v.files.access q = .ok (.file (Utf8.encode spelling)) →
        ∀ c, (load q).run v = (.ok c, v) ↔ (load p).run w = (.ok c, w) := by
  refine ⟨load_eq_ok_iff spelled stored, ?_, ?_⟩
  · simp only [← parse_eq_ok_iff spelled]
    rw [run_load_file stored, ofBytes_encode_eq]
    cases parse text <;> simp [Except.mapError]
  · intro others variant spelling spelledToo q v storedToo c
    rw [load_eq_ok_iff spelledToo storedToo, load_eq_ok_iff spelled stored,
      variant.describes_iff]

theorem load_spelled_object_escaped :
    let n : Json.Number :=
      ⟨true, ['1'], none, none, by simp [Json.Digits], by simp, by simp⟩
    let members : List (String × Value) := [("n", .array [.number n]), ("preset", .text "😀")]
    let text := "\x7b \"n\":[-1],\"\\u0070reset\":\"\\ud83D\\uDE00\"\x7d".toList
    let w : World := { files := ⟨[(["c.json"], .file (Utf8.encode text))], []⟩ }
    Json.SpellsElement (.object members) text ∧
      w.files.access ⟨"c.json"⟩ = .ok (.file (Utf8.encode text)) ∧
      (load ⟨"c.json"⟩).run w = (.ok ⟨some "😀", none⟩, w) := by
  intro n members text w
  have unblank : Json.Blank [] := nofun
  have blank : Json.Blank [' '] := by
    simp [Json.Blank]
  have plain {c : Char} (unquoted : c ≠ '"' ∧ c ≠ '\\' ∧ 32 ≤ c.toNat) : Json.SpellsChar c [c] :=
    .plain unquoted.1 unquoted.2.1 unquoted.2.2
  have escaped : Json.FourDigits 'p'.toNat ['0', '0', '7', '0'] :=
    .mk (a := 0) (b := 0) (c := 7) (d := 0) ⟨by decide, .inl rfl⟩ ⟨by decide, .inl rfl⟩
      ⟨by decide, .inl rfl⟩ ⟨by decide, .inl rfl⟩
  have high : Json.FourDigits 0xD83D ['d', '8', '3', 'D'] :=
    .mk (a := 13) (b := 8) (c := 3) (d := 13) ⟨by decide, .inl rfl⟩ ⟨by decide, .inl rfl⟩
      ⟨by decide, .inl rfl⟩ ⟨by decide, .inr (by decide)⟩
  have low : Json.FourDigits 0xDE00 ['D', 'E', '0', '0'] :=
    .mk (a := 13) (b := 14) (c := 0) (d := 0) ⟨by decide, .inr (by decide)⟩
      ⟨by decide, .inr (by decide)⟩ ⟨by decide, .inl rfl⟩ ⟨by decide, .inl rfl⟩
  have noteName : Json.SpellsString "n" ['"', 'n', '"'] :=
    @Json.SpellsString.mk "n" ['n'] (.cons (plain (c := 'n') (by decide)) .nil)
  have presetName : Json.SpellsString "preset" "\"\\u0070reset\"".toList :=
    @Json.SpellsString.mk "preset" "\\u0070reset".toList
      (.cons (.number escaped) (.cons (plain (c := 'r') (by decide))
        (.cons (plain (c := 'e') (by decide)) (.cons (plain (c := 's') (by decide))
          (.cons (plain (c := 'e') (by decide)) (.cons (plain (c := 't') (by decide)) .nil))))))
  have preset : Json.SpellsString "😀" "\"\\ud83D\\uDE00\"".toList :=
    @Json.SpellsString.mk "😀" "\\ud83D\\uDE00".toList
      (.cons (.pair high (by decide) low (by decide) (by decide)) .nil)
  have spelled : Json.SpellsElement (.object members) text :=
    @Json.SpellsElement.mk _ [] text [] unblank
      (.object (.more (@Json.SpellsName.mk _ [' '] _ [] blank noteName unblank)
        (@Json.SpellsElement.mk _ [] _ [] unblank
          (.array (.one (@Json.SpellsElement.mk _ [] _ [] unblank (.number n) unblank))) unblank)
        (.one (@Json.SpellsName.mk _ [] _ [] unblank presetName unblank)
          (@Json.SpellsElement.mk _ [] _ [] unblank (.text preset) unblank)))) unblank
  have stored : w.files.access ⟨"c.json"⟩ = .ok (.file (Utf8.encode text)) := rfl
  exact ⟨spelled, stored, ((load_spelled_object spelled stored).1 _).mpr ⟨.given rfl, .absent⟩⟩

end Config

end TemplateScript

import TemplateScript.Proofs.Streams

namespace TemplateScript

/-!
# Which characters are handed out

Some bytes are followed by the end of the input.  The characters that are handed
out for them are the longest text whose encoding the bytes begin with.  If there
are bytes behind it, they begin with no character; one failure says so, and it
says whether the end came too early for the sequence that they announce.

Sequences are not looked into before they are complete, so a sequence that is
cut off is never called invalid, whatever its bytes are.
-/

namespace Utf8

/-- The longest text that is encoded at the beginning of some bytes. -/
structure LongestText (bytes : Bytes) (text : List Char) : Prop where
  encoded : encode text <+: bytes
  longest : ∀ other, encode other <+: bytes → (encode other).length ≤ (encode text).length

/-- The length of a sequence of several bytes, by its first byte. -/
def leadWidth (first : UInt8) : Nat :=
  if first < 0xE0 then 2 else if first < 0xF0 then 3 else 4

/-- What is wrong with the bytes behind the longest text, which start at an offset. -/
def fault? (offset : Nat) : Bytes → Option IoFailure
  | [] => none
  | first :: more =>
    if 0xC2 ≤ first ∧ first ≤ 0xF4 ∧ more.length + 1 < leadWidth first then
      some ⟨.invalidData, "truncated UTF-8 sequence at byte " ++ toString offset⟩
    else some ⟨.invalidData, "invalid UTF-8 sequence at byte " ++ toString offset⟩

/-- The bytes are fewer than their first one announces. -/
def Begun : Bytes → Prop
  | [] => False
  | first :: more => 0xC2 ≤ first ∧ first ≤ 0xF4 ∧ more.length + 1 < leadWidth first

theorem isSome_fault?_cons (offset : Nat) (first : UInt8) (more : Bytes) :
    (fault? offset (first :: more)).isSome = true := by
  simp only [fault?]
  split <;> rfl

theorem width?_eq_leadWidth {first : UInt8} (low : 0xC2 ≤ first) (high : first ≤ 0xF4) :
    width? first = some (leadWidth first) := by
  simp only [UInt8.le_iff_toNat_le, UInt8.reduceToNat] at low high
  simp only [width?, leadWidth, UInt8.le_iff_toNat_le, UInt8.lt_iff_toNat_lt, UInt8.reduceToNat]
  split_ifs <;> first | rfl | omega

/-- A first byte that announces several bytes is a lead byte. -/
theorem lead_of_width? {first : UInt8} {width : Nat} (announced : width? first = some width)
    (several : 1 < width) : 0xC2 ≤ first ∧ first ≤ 0xF4 := by
  simp only [width?, UInt8.le_iff_toNat_le, UInt8.reduceToNat] at announced ⊢
  split_ifs at announced <;> simp only [Option.some.injEq] at announced <;> omega

theorem longestText_of_stuck (text : List Char) {rest : Bytes} (stuck : Stuck rest) :
    LongestText (encode text ++ rest) text := by
  refine ⟨List.prefix_append _ _, ?_⟩
  intro other encoded
  exact (encode_prefix_encode_iff.mpr (prefix_of_stuck stuck encoded)).length_le

/-- There is only one longest text, since of two texts that are encoded at the
beginning of the same bytes one begins with the other. -/
theorem LongestText.unique {bytes : Bytes} {text other : List Char}
    (first : LongestText bytes text) (second : LongestText bytes other) : other = text := by
  have sameLength : (encode other).length = (encode text).length :=
    Nat.le_antisymm (first.longest other second.encoded) (second.longest text first.encoded)
  have same : encode other = encode text :=
    (List.prefix_of_prefix_length_le second.encoded first.encoded (Nat.le_of_eq sameLength)).eq_of_length
      sameLength
  have decoded := decode?_encode other
  rw [same, decode?_encode] at decoded
  exact (Option.some.inj decoded).symm

end Utf8

/-! ## What a request takes from the signals -/

namespace ByteStream

theorem next_eq_byte {s rest : ByteStream} {b : UInt8} (read : s.next = (.byte b, rest)) :
    s.signals = .byte b :: rest.signals ∧ rest.offset = s.offset + 1 := by
  rcases s.next_spec with ⟨first, later, offset⟩
  rw [read] at first later offset
  refine ⟨?_, offset⟩
  cases pending : s.signals with
  | nil =>
    rw [pending] at first
    cases first
  | cons signal more =>
    rw [pending] at first later
    rw [show rest.signals = more from later, show ByteRead.byte b = signal from first]

theorem next_eq_stop {s rest : ByteStream} (read : s.next = (.stop, rest)) :
    s.signals.headD .stop = .stop ∧ rest.signals = s.signals.tail ∧ rest.offset = s.offset := by
  rcases s.next_spec with ⟨first, later, offset⟩
  rw [read] at first later offset
  exact ⟨first.symm, later, offset⟩

theorem take_eq_ok {cut : IoFailure} {n : Nat} {done sequence : Bytes} {s rest : ByteStream}
    (taken : s.take cut n done = (.ok sequence, rest)) :
    ∃ bytes, sequence = done ++ bytes ∧ s.signals = bytes.map .byte ++ rest.signals ∧
      rest.offset = s.offset + bytes.length := by
  induction n generalizing s done with
  | zero =>
    cases taken
    exact ⟨[], (List.append_nil _).symm, rfl, rfl⟩
  | succ n ih =>
    rcases answered : s.next with ⟨answer, middle⟩
    rw [take, answered] at taken
    cases answer with
    | stop => cases taken
    | failed cause => cases taken
    | byte b =>
      rcases next_eq_byte answered with ⟨signals, offset⟩
      rcases ih taken with ⟨bytes, whole, behind, finalOffset⟩
      refine ⟨b :: bytes, ?_, ?_, ?_⟩
      · rw [whole, List.append_assoc, List.singleton_append]
      · rw [signals, behind, List.map_cons, List.cons_append]
      · rw [finalOffset, offset, List.length_cons]
        omega

end ByteStream

namespace CharSource

theorem decode_eq_ok {start : Nat} {first : UInt8} {s rest : ByteStream} {c : Char}
    (decoded : decode start first s = (.ok c, rest)) :
    .byte first :: s.signals = (String.utf8EncodeChar c).map .byte ++ rest.signals ∧
      rest.offset + 1 = s.offset + (String.utf8EncodeChar c).length := by
  unfold decode at decoded
  cases announced : Utf8.width? first with
  | none =>
    rw [announced] at decoded
    cases decoded
  | some width =>
    rw [announced] at decoded
    rcases taken : s.take (.truncatedSequence start) (width - 1) [first] with
      ⟨cause | sequence, after⟩
    · simp only [taken] at decoded
      cases decoded
    · simp only [taken] at decoded
      rcases ByteStream.take_eq_ok taken with ⟨bytes, whole, signals, offset⟩
      cases found : Utf8.decodeChar? sequence with
      | none =>
        rw [found] at decoded
        cases decoded
      | some d =>
        rw [found] at decoded
        cases decoded
        rw [← Utf8.decodeChar?_eq_some_iff.mp found, whole, signals, offset]
        refine ⟨rfl, ?_⟩
        rw [List.length_append, List.length_singleton]
        omega

theorem next_eq_char {s rest : CharSource} {c : Char} (sound : s.failed = false)
    (read : s.next = (.char c, rest)) :
    s.bytes.signals = (String.utf8EncodeChar c).map .byte ++ rest.bytes.signals ∧
      rest.failed = false ∧
      rest.bytes.offset = s.bytes.offset + (String.utf8EncodeChar c).length := by
  rcases answered : s.bytes.next with ⟨answer, middle⟩
  simp only [next, sound, Bool.false_eq_true, if_false, answered] at read
  cases answer with
  | stop => cases read
  | failed cause => cases read
  | byte first =>
    rcases ByteStream.next_eq_byte answered with ⟨signals, offset⟩
    rcases decoded : decode s.bytes.offset first middle with ⟨cause | d, after⟩
    · simp only [decoded] at read
      cases read
    · simp only [decoded] at read
      cases read
      rcases decode_eq_ok decoded with ⟨split, moved⟩
      refine ⟨signals.trans split, rfl, ?_⟩
      change after.offset = _
      omega

theorem next_eq_stop {s rest : CharSource} (sound : s.failed = false)
    (read : s.next = (.stop, rest)) :
    s.bytes.signals.headD .stop = .stop ∧ rest.bytes.signals = s.bytes.signals.tail ∧
      rest.failed = false ∧ rest.bytes.offset = s.bytes.offset := by
  rcases answered : s.bytes.next with ⟨answer, middle⟩
  simp only [next, sound, Bool.false_eq_true, if_false, answered] at read
  cases answer with
  | failed cause => cases read
  | stop =>
    cases read
    rcases ByteStream.next_eq_stop answered with ⟨ends, later, offset⟩
    exact ⟨ends, later, rfl, offset⟩
  | byte first =>
    rcases decoded : decode s.bytes.offset first middle with ⟨cause | d, after⟩
    all_goals
      simp only [decoded] at read
      cases read

/-- A source has failed afterwards exactly if it says so. -/
theorem failed_next_iff {s : CharSource} (sound : s.failed = false) :
    s.next.2.failed = true ↔ ∃ cause, s.next.1 = .failed cause := by
  rcases answered : s.bytes.next with ⟨answer, rest⟩
  cases answer with
  | stop => simp [next, sound, answered]
  | failed cause => simp [next, sound, answered]
  | byte first =>
    rcases decoded : decode s.bytes.offset first rest with ⟨cause | c, after⟩ <;>
      simp [next, sound, answered, decoded]

/-! ## Streams that end for good -/

/-- The source is about to read these bytes, and nothing but ends behind them. -/
structure Over (s : CharSource) (bytes : Bytes) : Prop where
  sound : s.failed = false
  signals : ∃ ends, s.bytes.signals = bytes.map .byte ++ List.replicate ends .stop

theorem Over.delivered {s : CharSource} {bytes : Bytes} (covers : s.Over bytes) :
    s.bytes.delivered = bytes ∧ s.bytes.failure? = none := by
  rcases covers.signals with ⟨ends, signals⟩
  unfold ByteStream.delivered ByteStream.failure?
  rw [signals]
  exact ⟨ByteRead.delivered_bytes bytes ends, ByteRead.failure?_bytes bytes ends⟩

theorem Over.follows {s : CharSource} {bytes : Bytes} (covers : s.Over bytes) :
    s.Follows (front s.bytes.offset none bytes) := by
  rcases covers.delivered with ⟨delivered, intact⟩
  have follows := next_follows covers.sound
  rw [delivered, intact] at follows
  exact follows

theorem Over.next_char {s : CharSource} {c : Char} {behind : Bytes}
    (covers : s.Over (String.utf8EncodeChar c ++ behind)) :
    s.next.1 = .char c ∧ s.next.2.Over behind ∧
      s.next.2.bytes.offset = s.bytes.offset + (String.utf8EncodeChar c).length := by
  have follows := covers.follows
  rw [front_encodeChar] at follows
  have read : s.next.1 = .char c := follows.read
  rcases next_eq_char covers.sound (Prod.ext read rfl) with ⟨split, sound, offset⟩
  rcases covers.signals with ⟨ends, signals⟩
  refine ⟨read, ⟨sound, ends, ?_⟩, offset⟩
  apply List.append_cancel_left
  rw [← split, signals, List.map_append, List.append_assoc]

theorem Over.next_nil {s : CharSource} (covers : s.Over []) :
    s.next.1 = .stop ∧ s.next.2.Over [] := by
  have read : s.next.1 = .stop := covers.follows.read
  rcases next_eq_stop covers.sound (Prod.ext read rfl) with ⟨-, later, sound, -⟩
  rcases covers.signals with ⟨ends, signals⟩
  refine ⟨read, sound, ends - 1, ?_⟩
  rw [later, signals]
  exact List.tail_replicate

/-! ## Bytes that begin with no character -/

/-- A sequence that is not all there is not looked into: what comes behind it is
the answer. -/
theorem front_begun {part : Bytes} (begun : Utf8.Begun part) (offset : Nat)
    (failure : Option IoFailure) :
    (front offset failure part).1 = .failed (failure.getD (.truncatedSequence offset)) := by
  cases part with
  | nil => cases begun
  | cons first more =>
    rcases begun with ⟨low, high, short⟩
    have fewer : more.length < Utf8.leadWidth first - 1 := by omega
    simp only [front, Utf8.width?_eq_leadWidth low high, if_pos fewer]

theorem front_invalid {first : UInt8} {more : Bytes} (stuck : Utf8.Stuck (first :: more))
    (complete : ¬ Utf8.Begun (first :: more)) (offset : Nat) (failure : Option IoFailure) :
    (front offset failure (first :: more)).1 = .failed (.invalidSequence offset) := by
  cases announced : Utf8.width? first with
  | none => simp only [front, announced]
  | some width =>
    have enough : ¬ more.length < width - 1 := by
      intro short
      have lead := Utf8.lead_of_width? announced (by omega)
      rw [Utf8.width?_eq_leadWidth lead.1 lead.2] at announced
      cases announced
      exact complete ⟨lead.1, lead.2, by omega⟩
    have undecoded : Utf8.decodeChar? (first :: more.take (width - 1)) = none := by
      cases decoded : Utf8.decodeChar? (first :: more.take (width - 1)) with
      | none => rfl
      | some c =>
        have encoded := Utf8.decodeChar?_eq_some_iff.mp decoded
        refine absurd ⟨more.drop (width - 1), ?_⟩ (stuck c)
        rw [← encoded, List.cons_append, List.take_append_drop]
    simp only [front, announced, if_neg enough, undecoded]

theorem front_stuck {bytes : Bytes} (stuck : Utf8.Stuck bytes) (offset : Nat) :
    (front offset none bytes).1 = (Utf8.fault? offset bytes).elim .stop .failed := by
  cases bytes with
  | nil => rfl
  | cons first more =>
    by_cases begun : 0xC2 ≤ first ∧ first ≤ 0xF4 ∧ more.length + 1 < Utf8.leadWidth first
    · have cutOff : Utf8.Begun (first :: more) := begun
      rw [front_begun cutOff, Utf8.fault?, if_pos begun]
      rfl
    · have complete : ¬ Utf8.Begun (first :: more) := begun
      rw [front_invalid stuck complete, Utf8.fault?, if_neg begun]
      rfl

/-! ## All answers -/

theorem reads_of_failed {s : CharSource} (failed : s.failed = true) (n : Nat) :
    reads n s = List.replicate n .stop := by
  have same : s.next = (.stop, s) := by
    simp only [next, failed, if_true]
  induction n with
  | zero => rfl
  | succ n ih => rw [reads, same, ih, List.replicate_succ]

/-- The first answers are those of a list, and ends behind it. -/
def answers (listed : List CharRead) (n : Nat) : List CharRead :=
  listed.take n ++ List.replicate (n - listed.length) .stop

theorem answers_cons (first : CharRead) (listed : List CharRead) (n : Nat) :
    answers (first :: listed) (n + 1) = first :: answers listed n := by
  simp [answers]

@[simp] theorem answers_zero (listed : List CharRead) : answers listed 0 = [] := by
  simp [answers]

theorem answers_nil (n : Nat) : answers [] n = List.replicate n .stop := by
  simp [answers]

theorem answers_length (listed : List CharRead) : answers listed listed.length = listed := by
  simp [answers]

theorem mem_of_mem_answers {listed : List CharRead} {n : Nat} {answer : CharRead}
    (among : answer ∈ answers listed n) : answer ∈ listed ∨ answer = .stop := by
  rcases List.mem_append.mp among with early | late
  · exact .inl (List.mem_of_mem_take early)
  · exact .inr (List.eq_of_mem_replicate late)

theorem reads_nil {s : CharSource} (covers : s.Over []) (n : Nat) :
    reads n s = List.replicate n .stop := by
  induction n generalizing s with
  | zero => rfl
  | succ n ih =>
    rcases covers.next_nil with ⟨read, goesOn⟩
    rw [reads, read, ih goesOn, List.replicate_succ]

theorem reads_stuck {s : CharSource} {rest : Bytes} (covers : s.Over rest)
    (stuck : Utf8.Stuck rest) (n : Nat) :
    reads n s = answers ((Utf8.fault? s.bytes.offset rest).toList.map .failed) n := by
  have read := covers.follows.read
  rw [front_stuck stuck] at read
  cases rest with
  | nil =>
    rw [reads_nil covers]
    exact (answers_nil n).symm
  | cons first more =>
    rcases Option.isSome_iff_exists.mp (Utf8.isSome_fault?_cons s.bytes.offset first more) with
      ⟨cause, fault⟩
    rw [fault] at read ⊢
    have failed := (failed_next_iff covers.sound).mpr ⟨cause, read⟩
    cases n with
    | zero => rfl
    | succ n =>
      change _ = answers (.failed cause :: []) (n + 1)
      rw [reads, read, reads_of_failed failed, answers_cons, answers_nil]
      rfl

/-- A source over encoded text and bytes that begin with no character hands out
the text, and one failure if there are such bytes. -/
theorem reads_encode (text : List Char) {s : CharSource} {rest : Bytes}
    (covers : s.Over (Utf8.encode text ++ rest)) (stuck : Utf8.Stuck rest) (n : Nat) :
    reads n s = answers (text.map .char ++
      (Utf8.fault? (s.bytes.offset + (Utf8.encode text).length) rest).toList.map .failed) n := by
  induction text generalizing s n with
  | nil => exact reads_stuck covers stuck n
  | cons c text ih =>
    rw [Utf8.encode_cons, List.append_assoc] at covers
    rcases covers.next_char with ⟨read, goesOn, offset⟩
    cases n with
    | zero => exact (answers_zero _).symm
    | succ n =>
      rw [reads, read, ih goesOn n, offset, List.map_cons, List.cons_append, answers_cons,
        Utf8.encode_cons, List.length_append, Nat.add_assoc]

/-- A source over some bytes hands out the longest text that they begin with.
Bytes behind that text give one failure, at the place where they start; nothing
comes after it.  So there is no failure exactly if the bytes are the encoding of
what was handed out. -/
theorem reads_longest_text (bytes : Bytes) (events : List ReadEvent) (ends : Nat)
    (delivers : events.flatMap ReadEvent.signals =
      bytes.map .byte ++ List.replicate ends .stop) :
    ∃ text, Utf8.LongestText bytes text ∧ (∀ other, Utf8.LongestText bytes other → other = text) ∧
      (∀ n, reads n (ofEvents events) =
        answers (text.map .char ++ (Utf8.fault? (Utf8.encode text).length
          (bytes.drop (Utf8.encode text).length)).toList.map .failed) n) ∧
      ((∀ n cause, .failed cause ∉ reads n (ofEvents events)) ↔ bytes = Utf8.encode text) := by
  rcases Utf8.exists_encode_append_stuck bytes with ⟨text, rest, rfl, stuck⟩
  have longest := Utf8.longestText_of_stuck text stuck
  have covers : (ofEvents events).Over (Utf8.encode text ++ rest) := ⟨rfl, ends, delivers⟩
  have all (n : Nat) := reads_encode text covers stuck n
  change ∀ n, _ = answers (_ ++ (Utf8.fault? (0 + _) rest).toList.map _) n at all
  rw [Nat.zero_add] at all
  refine ⟨text, longest, fun other => longest.unique, ?_, ?_⟩
  · intro n
    rw [List.drop_left, all n]
  · constructor
    · intro never
      cases rest with
      | nil => exact List.append_nil _
      | cons first more =>
        rcases Option.isSome_iff_exists.mp
          (Utf8.isSome_fault?_cons (Utf8.encode text).length first more) with ⟨cause, fault⟩
        refine absurd ?_ (never (text.map CharRead.char ++ [CharRead.failed cause]).length cause)
        rw [all, fault, Option.toList_some, List.map_singleton, answers_length]
        exact List.mem_append_right _ (List.mem_singleton_self _)
    · intro same n cause among
      have nothing : rest = [] := List.append_right_eq_self.mp same
      rw [all, nothing] at among
      rcases mem_of_mem_answers among with listed | impossible
      · rcases List.mem_append.mp listed with character | none
        · rcases List.mem_map.mp character with ⟨c, -, impossible⟩
          cases impossible
        · cases none
      · cases impossible

theorem reads_longest_text_before_cut_surrogate :
    let bytes : Bytes := [0x61, 0xE2, 0x82, 0xAC, 0xED, 0xA0]
    let events : List ReadEvent :=
      [.chunk [0x61, 0xE2], .failure ⟨.interrupted, ""⟩, .chunk [0x82, 0xAC, 0xED, 0xA0], .stop]
    events.flatMap ReadEvent.signals = bytes.map .byte ++ List.replicate 1 .stop ∧
      Utf8.LongestText bytes ['a', '€'] ∧
      reads 4 (ofEvents events) =
        [.char 'a', .char '€', .failed ⟨.invalidData, "truncated UTF-8 sequence at byte 4"⟩,
          .stop] := by
  intro bytes events
  have delivers : events.flatMap ReadEvent.signals =
      bytes.map .byte ++ List.replicate 1 .stop := by
    subst bytes events
    decide
  have stuck : Utf8.Stuck [0xED, 0xA0] := by
    rintro c ⟨behind, same⟩
    have read := front_encodeChar 0 none c behind
    rw [same] at read
    cases read
  have longest : Utf8.LongestText bytes ['a', '€'] :=
    Utf8.longestText_of_stuck ['a', '€'] stuck
  rcases reads_longest_text bytes events 1 delivers with ⟨text, -, unique, all, -⟩
  refine ⟨delivers, longest, ?_⟩
  rw [all 4, ← unique _ longest]
  subst bytes
  decide +kernel

end CharSource

end TemplateScript

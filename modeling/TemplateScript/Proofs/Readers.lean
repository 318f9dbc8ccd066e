import Mathlib.Logic.Relation
import TemplateScript.Proofs.Decoding

namespace TemplateScript

/-!
# Asking any reader for characters

A reader may deliver its bytes in chunks of any size, be interrupted, come to an
end and go on, or fail.  What the requests for characters are answered depends
on its signals alone, so neither the cuts between chunks nor interruptions make
a difference.

As long as no answer is a failure, the answers account for the signals that are
used up: a character for the bytes of its encoding and an end for one end.  The
next answer is then read off the signals that are left, and the offset that it
may tell is the length of the characters so far.  Ends do not disturb this
account, so a source goes on behind an end as if nothing had happened.
-/

namespace ReadEvent

/-- A reader that delivers the same in other pieces: a chunk is cut in two, or one
more read is interrupted. -/
inductive Recut : List ReadEvent → List ReadEvent → Prop where
  | cut (before after : List ReadEvent) {front back : Bytes} (nonempty : front ≠ [])
      (alsoNonempty : back ≠ []) :
      Recut (before ++ .chunk (front ++ back) :: after)
        (before ++ .chunk front :: .chunk back :: after)
  | interruption (before after : List ReadEvent) {cause : IoFailure}
      (interrupted : cause.kind = .interrupted) :
      Recut (before ++ after) (before ++ .failure cause :: after)

theorem signals_chunk {bytes : Bytes} (nonempty : bytes ≠ []) :
    (chunk bytes).signals = bytes.map .byte := by
  cases bytes with
  | nil => exact absurd rfl nonempty
  | cons b bs => rfl

theorem Recut.signals_eq {events other : List ReadEvent} (recut : Recut events other) :
    other.flatMap signals = events.flatMap signals := by
  cases recut with
  | cut before after nonempty alsoNonempty =>
    simp only [List.flatMap_append, List.flatMap_cons, signals_chunk nonempty,
      signals_chunk alsoNonempty, signals_chunk (List.append_ne_nil_of_left_ne_nil nonempty _),
      List.map_append, List.append_assoc]
  | interruption before after interrupted =>
    simp only [List.flatMap_append, List.flatMap_cons, signals, if_pos interrupted,
      List.nil_append]

/-- Pieces may be put together as well as cut, as often as one likes. -/
theorem signals_eq_of_recut {events other : List ReadEvent}
    (recut : Relation.EqvGen Recut events other) :
    other.flatMap signals = events.flatMap signals := by
  induction recut with
  | rel events other step => exact step.signals_eq
  | refl events => rfl
  | symm events other _ ih => exact ih.symm
  | trans events middle other _ _ first second => exact second.trans first

end ReadEvent

/-! ## The account of the signals -/

namespace CharRead

/-- The bytes of the character that is handed out, if there is one. -/
def bytes : CharRead → Bytes
  | .char c => String.utf8EncodeChar c
  | .stop | .failed _ => []

/-- The signals that an answer stands for.  A failure stands for none, since it is
the last answer that tells anything. -/
def spelled : CharRead → List ByteRead
  | .char c => (String.utf8EncodeChar c).map .byte
  | .stop => [.stop]
  | .failed _ => []

end CharRead

namespace CharSource

/-- From `s` to `t` a source gives these answers, none of which is a failure.  When
the signals are used up, ends come from nowhere. -/
structure Leads (s : CharSource) (answers : List CharRead) (t : CharSource) : Prop where
  sound : t.failed = false
  signals : ∃ ends, s.bytes.signals ++ List.replicate ends .stop =
    answers.flatMap CharRead.spelled ++ t.bytes.signals
  offset : t.bytes.offset = s.bytes.offset + (answers.flatMap CharRead.bytes).length

theorem Leads.trans {s t u : CharSource} {front back : List CharRead}
    (first : s.Leads front t) (second : t.Leads back u) : s.Leads (front ++ back) u where
  sound := second.sound
  signals := by
    rcases first.signals with ⟨ends, account⟩
    rcases second.signals with ⟨more, further⟩
    refine ⟨ends + more, ?_⟩
    rw [List.replicate_add, ← List.append_assoc, account, List.append_assoc, further,
      List.flatMap_append, List.append_assoc]
  offset := by
    rw [second.offset, first.offset, List.flatMap_append, List.length_append, Nat.add_assoc]

theorem next_leads {s : CharSource} (sound : s.failed = false)
    (goesOn : ∀ cause, s.next.1 ≠ .failed cause) : s.Leads [s.next.1] s.next.2 := by
  rcases answered : s.next with ⟨answer, rest⟩
  rw [answered] at goesOn
  cases answer with
  | failed cause => exact absurd rfl (goesOn cause)
  | char c =>
    rcases next_eq_char sound answered with ⟨signals, stillSound, offset⟩
    refine ⟨stillSound, ⟨0, ?_⟩, ?_⟩
    · rw [List.replicate_zero, List.append_nil, List.flatMap_singleton]
      exact signals
    · rw [List.flatMap_singleton]
      exact offset
  | stop =>
    rcases next_eq_stop sound answered with ⟨ends, later, stillSound, offset⟩
    refine ⟨stillSound, ?_, offset⟩
    change ∃ ends, _ = [.stop] ++ rest.bytes.signals
    rw [later]
    cases pending : s.bytes.signals with
    | nil =>
      -- No signal is left, so this end is one more than the reader told.
      exact ⟨1, rfl⟩
    | cons signal more =>
      rw [pending] at ends
      change signal = .stop at ends
      exact ⟨0, by rw [ends, List.replicate_zero, List.append_nil]; rfl⟩

/-! ## The answer that is due -/

/-- The answer that is due, by the signals that are left and the number of bytes
before them. -/
inductive Due (offset : Nat) : List ByteRead → CharRead → Prop where
  | char (c : Char) (later : List ByteRead) :
      Due offset ((String.utf8EncodeChar c).map .byte ++ later) (.char c)
  /-- An end, or nothing at all. -/
  | stop {signals : List ByteRead} (ends : signals.headD .stop = .stop) : Due offset signals .stop
  | failure (cause : IoFailure) (later : List ByteRead) :
      Due offset (.failed cause :: later) (.failed cause)
  /-- The reader fails before a sequence is complete. -/
  | failureInside {part : Bytes} (begun : Utf8.Begun part) (cause : IoFailure)
      (later : List ByteRead) :
      Due offset (part.map .byte ++ .failed cause :: later) (.failed cause)
  /-- The input ends before a sequence is complete. -/
  | truncated {part : Bytes} (begun : Utf8.Begun part) {later : List ByteRead}
      (ends : later.headD .stop = .stop) :
      Due offset (part.map .byte ++ later) (.failed (.truncatedSequence offset))
  /-- The bytes up to the next end or failure are enough, but they begin with no
  character. -/
  | invalid {first : UInt8} {more : Bytes} (complete : ¬ Utf8.Begun (first :: more))
      (stuck : Utf8.Stuck (first :: more)) {later : List ByteRead}
      (nothing : ByteRead.delivered later = []) :
      Due offset ((first :: more).map .byte ++ later) (.failed (.invalidSequence offset))

end CharSource

namespace ByteRead

theorem delivered_of_ends {later : List ByteRead} (ends : later.headD .stop = .stop) :
    delivered later = [] ∧ failure? later = none := by
  cases later with
  | nil => exact ⟨rfl, rfl⟩
  | cons signal more =>
    change signal = .stop at ends
    rw [ends]
    exact ⟨rfl, rfl⟩

/-- Signals are the bytes that are delivered first, and an end or a failure. -/
theorem exists_delivered_append (signals : List ByteRead) :
    ∃ later, signals = (delivered signals).map .byte ++ later ∧
      (later.headD .stop = .stop ∨ ∃ cause more, later = .failed cause :: more) := by
  induction signals with
  | nil => exact ⟨[], rfl, .inl rfl⟩
  | cons signal signals ih =>
    cases signal with
    | stop => exact ⟨.stop :: signals, rfl, .inl rfl⟩
    | failed cause => exact ⟨.failed cause :: signals, rfl, .inr ⟨cause, signals, rfl⟩⟩
    | byte b =>
      rcases ih with ⟨later, split, behind⟩
      exact ⟨later, congrArg (.byte b :: ·) split, behind⟩

end ByteRead

namespace CharSource

/-- Whatever the signals are, some answer is due. -/
theorem exists_due (offset : Nat) (signals : List ByteRead) :
    ∃ answer, Due offset signals answer := by
  rcases ByteRead.exists_delivered_append signals with ⟨later, split, behind⟩
  rw [split]
  generalize ByteRead.delivered signals = bytes
  -- What comes behind the bytes counts only if they are not enough for a sequence.
  by_cases begins : ∃ c, String.utf8EncodeChar c <+: bytes
  · rcases begins with ⟨c, rest, rfl⟩
    rw [List.map_append, List.append_assoc]
    exact ⟨_, .char c _⟩
  · have stuck : Utf8.Stuck bytes := not_exists.mp begins
    by_cases begun : Utf8.Begun bytes
    · rcases behind with ends | ⟨cause, more, rfl⟩
      · exact ⟨_, .truncated begun ends⟩
      · exact ⟨_, .failureInside begun cause more⟩
    · have nothing : ByteRead.delivered later = [] := by
        rcases behind with ends | ⟨cause, more, rfl⟩
        · exact (ByteRead.delivered_of_ends ends).1
        · rfl
      cases bytes with
      | cons first more => exact ⟨_, .invalid begun stuck nothing⟩
      | nil =>
        rcases behind with ends | ⟨cause, more, rfl⟩
        · exact ⟨_, .stop ends⟩
        · exact ⟨_, .failure cause more⟩

theorem eq_of_due {s : CharSource} (sound : s.failed = false) {answer : CharRead}
    (due : Due s.bytes.offset s.bytes.signals answer) : answer = s.next.1 := by
  rw [(next_follows sound).read]
  unfold ByteStream.delivered ByteStream.failure?
  -- Only the bytes before the first end or failure matter, so that each case is
  -- settled by the front of these bytes.
  generalize s.bytes.signals = signals at due
  cases due with
  | char c later => rw [ByteRead.delivered_append, front_encodeChar]
  | stop ends =>
    rcases ByteRead.delivered_of_ends ends with ⟨nothing, intact⟩
    rw [nothing, intact]
    rfl
  | failure cause later => rfl
  | failureInside begun cause later =>
    rw [ByteRead.delivered_append, ByteRead.failure?_append]
    change _ = (front _ (some cause) (_ ++ [])).1
    rw [List.append_nil, front_begun begun]
    rfl
  | truncated begun ends =>
    rcases ByteRead.delivered_of_ends ends with ⟨nothing, intact⟩
    rw [ByteRead.delivered_append, ByteRead.failure?_append, nothing, intact, List.append_nil,
      front_begun begun]
    rfl
  | invalid complete stuck nothing =>
    rw [ByteRead.delivered_append, nothing, List.append_nil, front_invalid stuck complete]

/-- A source that has not failed gives the answer that is due, and no other is. -/
theorem due_iff {s : CharSource} (sound : s.failed = false) (answer : CharRead) :
    Due s.bytes.offset s.bytes.signals answer ↔ answer = s.next.1 := by
  constructor
  · exact eq_of_due sound
  · rintro rfl
    rcases exists_due s.bytes.offset s.bytes.signals with ⟨answer, due⟩
    exact eq_of_due sound due ▸ due

/-! ## Any number of requests -/

/-- The source after some requests. -/
def after : Nat → CharSource → CharSource
  | 0, s => s
  | n + 1, s => after n s.next.2

theorem reads_succ (n : Nat) (s : CharSource) :
    reads (n + 1) s = reads n s ++ [(after n s).next.1] := by
  induction n generalizing s with
  | zero => rfl
  | succ n ih =>
    rw [reads, ih]
    rfl

theorem after_of_failed {s : CharSource} (failed : s.failed = true) (n : Nat) : after n s = s := by
  have same : s.next.2 = s := by
    simp only [next, failed, if_true]
  induction n with
  | zero => rfl
  | succ n ih => rw [after, same, ih]

theorem next_of_failed {s : CharSource} (failed : s.failed = true) : s.next.1 = .stop := by
  simp only [next, failed, if_true]

/-- A failure among the answers leaves the source failed. -/
theorem failed_after {s : CharSource} (sound : s.failed = false) {n : Nat} {cause : IoFailure}
    (among : .failed cause ∈ reads n s) : (after n s).failed = true := by
  induction n generalizing s with
  | zero => cases among
  | succ n ih =>
    have broken := failed_next_iff sound
    cases failed : s.next.2.failed with
    | true => rw [after, after_of_failed failed, failed]
    | false =>
      rw [failed] at broken
      rcases List.mem_cons.mp among with now | later
      · exact absurd (broken.mpr ⟨cause, now.symm⟩) Bool.false_ne_true
      · exact ih failed later

/-- As long as no answer is a failure, the answers account for all that is used up. -/
theorem reads_leads {s : CharSource} (sound : s.failed = false) {n : Nat}
    (goesOn : ∀ cause, .failed cause ∉ reads n s) : s.Leads (reads n s) (after n s) := by
  induction n generalizing s with
  | zero => exact ⟨sound, ⟨0, List.append_nil _⟩, rfl⟩
  | succ n ih =>
    have step : s.Leads [s.next.1] s.next.2 := by
      apply next_leads sound
      intro cause failed
      exact goesOn cause (List.mem_cons.mpr (.inl failed.symm))
    apply step.trans
    apply ih step.sound
    intro cause among
    exact goesOn cause (List.mem_cons_of_mem _ among)

/-! ## The same signals to come -/

/-- Two sources that have not failed, with the same signals before them. -/
structure Alike (s t : CharSource) : Prop where
  sound : s.failed = false
  alsoSound : t.failed = false
  signals : s.bytes.signals = t.bytes.signals
  offset : s.bytes.offset = t.bytes.offset

theorem Alike.next_eq {s t : CharSource} (alike : s.Alike t) : s.next.1 = t.next.1 := by
  have due := (due_iff alike.sound s.next.1).mpr rfl
  rw [alike.signals, alike.offset] at due
  exact eq_of_due alike.alsoSound due

theorem Alike.next {s t : CharSource} (alike : s.Alike t)
    (goesOn : ∀ cause, s.next.1 ≠ .failed cause) : s.next.2.Alike t.next.2 := by
  have same := alike.next_eq
  rcases answered : s.next with ⟨answer, rest⟩
  rcases alsoAnswered : t.next with ⟨other, behind⟩
  rw [answered] at goesOn
  rw [answered, alsoAnswered] at same
  change answer = other at same
  subst same
  cases answer with
  | failed cause => exact absurd rfl (goesOn cause)
  | char c =>
    rcases next_eq_char alike.sound answered with ⟨split, sound, offset⟩
    rcases next_eq_char alike.alsoSound alsoAnswered with ⟨alsoSplit, alsoSound, alsoOffset⟩
    refine ⟨sound, alsoSound, ?_, ?_⟩
    · apply List.append_cancel_left
      rw [← split, ← alsoSplit, alike.signals]
    · rw [offset, alsoOffset, alike.offset]
  | stop =>
    rcases next_eq_stop alike.sound answered with ⟨-, later, sound, offset⟩
    rcases next_eq_stop alike.alsoSound alsoAnswered with ⟨-, alsoLater, alsoSound, alsoOffset⟩
    refine ⟨sound, alsoSound, ?_, ?_⟩
    · rw [later, alsoLater, alike.signals]
    · rw [offset, alsoOffset, alike.offset]

theorem Alike.reads_eq {s t : CharSource} (alike : s.Alike t) (n : Nat) :
    reads n s = reads n t := by
  induction n generalizing s t with
  | zero => rfl
  | succ n ih =>
    rw [reads, reads, ← alike.next_eq]
    by_cases failing : ∃ cause, s.next.1 = .failed cause
    · -- Behind a failure the sources may have different signals left, but say nothing.
      rcases failing with ⟨cause, failed⟩
      have here := (failed_next_iff alike.sound).mpr ⟨cause, failed⟩
      have there := (failed_next_iff alike.alsoSound).mpr ⟨cause, alike.next_eq.symm.trans failed⟩
      rw [reads_of_failed here, reads_of_failed there]
    · rw [ih (alike.next (not_exists.mp failing))]

/-- Answers that the first signals spell out are given first, and what comes
behind these signals is answered as if the source began there. -/
theorem reads_spelled {front : List CharRead} (goesOn : ∀ cause, .failed cause ∉ front)
    {s t : CharSource} (sound : s.failed = false) (alsoSound : t.failed = false)
    (signals : s.bytes.signals = front.flatMap CharRead.spelled ++ t.bytes.signals)
    (offset : t.bytes.offset = s.bytes.offset + (front.flatMap CharRead.bytes).length) (n : Nat) :
    reads (front.length + n) s = front ++ reads n t := by
  induction front generalizing s with
  | nil =>
    rw [List.length_nil, Nat.zero_add, List.nil_append]
    exact Alike.reads_eq ⟨sound, alsoSound, signals, offset.symm⟩ n
  | cons answer front ih =>
    have later (cause : IoFailure) (among : .failed cause ∈ front) : False :=
      goesOn cause (List.mem_cons_of_mem _ among)
    rw [List.flatMap_cons, List.append_assoc] at signals
    rw [List.flatMap_cons, List.length_append] at offset
    rw [List.length_cons, Nat.add_right_comm, reads, List.cons_append]
    cases answer with
    | failed cause => exact absurd List.mem_cons_self (goesOn cause)
    | char c =>
      have read : CharRead.char c = s.next.1 := by
        apply eq_of_due sound
        rw [signals]
        exact .char c _
      rcases next_eq_char sound (Prod.ext read.symm rfl) with ⟨split, stillSound, moved⟩
      rw [← read, ih later stillSound]
      · apply List.append_cancel_left
        rw [← split, signals]
        rfl
      · rw [offset, moved, CharRead.bytes, Nat.add_assoc]
    | stop =>
      have read : CharRead.stop = s.next.1 := by
        apply eq_of_due sound
        rw [signals]
        exact .stop rfl
      rcases next_eq_stop sound (Prod.ext read.symm rfl) with ⟨-, rest, stillSound, moved⟩
      rw [← read, ih later stillSound]
      · rw [rest, signals]
        rfl
      · rw [offset, moved, CharRead.bytes, List.length_nil, Nat.zero_add]

/-- Every request to a source is answered, whatever its reader does.  The answers
are the same for all ways to cut up what is delivered.  A failure is the last
answer that is no end.  Before one, the answers account for the signals that are
used up, and the next answer is the one that is due for the signals left, at the
offset that the characters so far come to.  Reading goes on behind an end, and
behind any answers that some of the events spell out, as if the source began
there at that offset. -/
theorem reads_of_any_reader (events : List ReadEvent) :
    (∀ other, Relation.EqvGen ReadEvent.Recut events other →
      ∀ n, reads n (ofEvents other) = reads n (ofEvents events)) ∧
    (∀ n, ∃ answer,
      reads (n + 1) (ofEvents events) = reads n (ofEvents events) ++ [answer] ∧
      ((∃ cause, .failed cause ∈ reads n (ofEvents events)) → answer = .stop) ∧
      ((∀ cause, .failed cause ∉ reads n (ofEvents events)) →
        ∃ ends pending,
          events.flatMap ReadEvent.signals ++ List.replicate ends .stop =
            (reads n (ofEvents events)).flatMap CharRead.spelled ++ pending ∧
          ∀ a, Due ((reads n (ofEvents events)).flatMap CharRead.bytes).length pending a ↔
            a = answer)) ∧
    ∀ before later front, events = before ++ later → (∀ cause, .failed cause ∉ front) →
      before.flatMap ReadEvent.signals = front.flatMap CharRead.spelled →
      ∀ n, reads (front.length + n) (ofEvents events) =
        front ++ reads n ⟨⟨[], later, (front.flatMap CharRead.bytes).length⟩, false⟩ := by
  refine ⟨?_, ?_, ?_⟩
  · intro other recut n
    have alike : (ofEvents other).Alike (ofEvents events) :=
      ⟨rfl, rfl, ReadEvent.signals_eq_of_recut recut, rfl⟩
    exact alike.reads_eq n
  · intro n
    refine ⟨_, reads_succ n _, ?_, ?_⟩
    · rintro ⟨cause, among⟩
      exact next_of_failed (failed_after rfl among)
    · intro goesOn
      have leads := reads_leads rfl goesOn
      rcases leads.signals with ⟨ends, account⟩
      refine ⟨ends, _, account, fun a => ?_⟩
      have offset : (after n (ofEvents events)).bytes.offset = 0 + _ := leads.offset
      rw [Nat.zero_add] at offset
      rw [← offset]
      exact due_iff leads.sound a
  · rintro before later front rfl goesOn spelled n
    apply reads_spelled goesOn rfl rfl
    · change (before ++ later).flatMap ReadEvent.signals = _
      rw [List.flatMap_append, spelled]
      rfl
    · exact (Nat.zero_add _).symm

theorem reads_of_any_reader_across_end :
    let before : List ReadEvent := [.chunk [0xE2, 0x82, 0xAC], .stop]
    let later : List ReadEvent := [.chunk [0x61, 0xC3], .stop, .chunk [0xA9]]
    let other : List ReadEvent :=
      [.chunk [0xE2], .failure ⟨.interrupted, ""⟩, .chunk [0x82, 0xAC], .stop] ++ later
    Relation.EqvGen ReadEvent.Recut (before ++ later) other ∧
      reads 5 (ofEvents other) =
        [.char '€', .stop, .char 'a',
          .failed ⟨.invalidData, "truncated UTF-8 sequence at byte 4"⟩, .stop] := by
  intro before later other
  have recut : Relation.EqvGen ReadEvent.Recut (before ++ later) other := by
    have first : ([0xE2] : Bytes) ≠ [] := List.cons_ne_nil _ _
    have second : ([0x82, 0xAC] : Bytes) ≠ [] := List.cons_ne_nil _ _
    have interrupted : (⟨.interrupted, ""⟩ : IoFailure).kind = .interrupted := rfl
    exact .trans _ _ _ (.rel _ _ (.cut [] (.stop :: later) first second))
      (.rel _ _ (.interruption [.chunk [0xE2]] _ interrupted))
  rcases reads_of_any_reader (before ++ later) with ⟨pieces, -, resumes⟩
  refine ⟨recut, ?_⟩
  rw [pieces other recut]
  have goesOn (cause : IoFailure) : CharRead.failed cause ∉ [.char '€', .stop] := by simp
  have spelled : before.flatMap ReadEvent.signals =
      [CharRead.char '€', .stop].flatMap CharRead.spelled := by
    subst before
    decide
  exact (resumes before later _ rfl goesOn spelled 3).trans (by decide +kernel)

end CharSource

end TemplateScript

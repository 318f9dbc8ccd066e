import TemplateScript.Proofs.Outlines
import TemplateScript.Proofs.Utf8

namespace TemplateScript

/-!
# What a reader delivers

A stream of bytes is read through its signals: the bytes of the chunks one by
one, the ends, and the failures.  Interruptions leave no signal, and neither
does the cut between two chunks, so nothing that is said in terms of signals
depends on either.

Up to the first end or failure, a source of characters is a function of the
bytes delivered before it.  It hands out the text exactly if these bytes are the
encoding of one and no failure stands behind them.
-/

namespace ReadEvent

/-- What a read comes to. -/
def signals : ReadEvent → List ByteRead
  | .chunk [] => [.stop]
  | .chunk (b :: bs) => (b :: bs).map .byte
  | .stop => [.stop]
  | .failure cause => if cause.kind = .interrupted then [] else [.failed cause]

end ReadEvent

namespace ByteRead

/-- The bytes before the first end or failure. -/
def delivered : List ByteRead → Bytes
  | .byte b :: rest => b :: delivered rest
  | _ => []

/-- The failure that comes before any end, if there is one. -/
def failure? : List ByteRead → Option IoFailure
  | .byte _ :: rest => failure? rest
  | .failed cause :: _ => some cause
  | _ => none

/-- What comes behind the delivered bytes. -/
def ending : Option IoFailure → ByteRead
  | some cause => .failed cause
  | none => .stop

/-- The number of bytes that a read takes from a stream. -/
def size : ByteRead → Nat
  | .byte _ => 1
  | .stop | .failed _ => 0

/-- The byte that is handed out, if there is one. -/
def byte? : ByteRead → Option UInt8
  | .byte b => some b
  | .stop | .failed _ => none

theorem delivered_prefix (signals : List ByteRead) :
    delivered signals <+: signals.filterMap byte? := by
  induction signals with
  | nil => exact List.prefix_refl []
  | cons signal signals ih =>
    cases signal with
    | byte b => exact List.cons_prefix_cons.mpr ⟨rfl, ih⟩
    | stop => exact List.nil_prefix
    | failed cause => exact List.nil_prefix

theorem delivered_append (bytes : Bytes) (later : List ByteRead) :
    delivered (bytes.map .byte ++ later) = bytes ++ delivered later := by
  induction bytes with
  | nil => rfl
  | cons b bs ih => exact congrArg (b :: ·) ih

theorem failure?_append (bytes : Bytes) (later : List ByteRead) :
    failure? (bytes.map .byte ++ later) = failure? later := by
  induction bytes with
  | nil => rfl
  | cons b bs ih => exact ih

/-- Ends behind some bytes deliver nothing more. -/
theorem delivered_bytes (bytes : Bytes) (ends : Nat) :
    delivered (bytes.map .byte ++ List.replicate ends .stop) = bytes := by
  rw [delivered_append]
  cases ends <;> exact List.append_nil bytes

theorem failure?_bytes (bytes : Bytes) (ends : Nat) :
    failure? (bytes.map .byte ++ List.replicate ends .stop) = none := by
  rw [failure?_append]
  cases ends <;> rfl

theorem filterMap_byte?_bytes (bytes : Bytes) : (bytes.map byte).filterMap byte? = bytes := by
  rw [List.filterMap_map]
  exact List.filterMap_some

end ByteRead

namespace ByteStream

/-- The signals that are still to come. -/
def signals (s : ByteStream) : List ByteRead :=
  s.buffer.map .byte ++ s.events.flatMap ReadEvent.signals

/-- The bytes that come before the first end or failure. -/
def delivered (s : ByteStream) : Bytes := ByteRead.delivered s.signals

/-- The failure that comes before any end. -/
def failure? (s : ByteStream) : Option IoFailure := ByteRead.failure? s.signals

theorem filterMap_byte?_signals (e : ReadEvent) :
    e.signals.filterMap ByteRead.byte? = eventBytes e := by
  cases e with
  | chunk bytes =>
    cases bytes with
    | nil => rfl
    | cons b bs => exact ByteRead.filterMap_byte?_bytes (b :: bs)
  | stop => rfl
  | failure cause =>
    simp only [ReadEvent.signals]
    split_ifs <;> rfl

/-! ## Bytes -/

theorem refill_spec (offset : Nat) (events : List ReadEvent) :
    (refill offset events).1 = (events.flatMap ReadEvent.signals).headD .stop ∧
      (refill offset events).2.signals = (events.flatMap ReadEvent.signals).tail ∧
      (refill offset events).2.offset = offset + (refill offset events).1.size := by
  induction events with
  | nil => exact ⟨rfl, rfl, rfl⟩
  | cons event events ih =>
    cases event with
    | chunk bytes =>
      cases bytes with
      | nil => exact ⟨rfl, rfl, rfl⟩
      | cons b bs => exact ⟨rfl, rfl, rfl⟩
    | stop => exact ⟨rfl, rfl, rfl⟩
    | failure cause =>
      by_cases again : cause.kind = .interrupted
      · simp only [refill, ReadEvent.signals, List.flatMap_cons, if_pos again, List.nil_append]
        exact ih
      · simp only [refill, ReadEvent.signals, List.flatMap_cons, if_neg again]
        exact ⟨rfl, rfl, rfl⟩

/-- Asking for a byte takes the first signal.  When there are none left, every
answer is an end. -/
theorem next_spec (s : ByteStream) :
    s.next.1 = s.signals.headD .stop ∧ s.next.2.signals = s.signals.tail ∧
      s.next.2.offset = s.offset + s.next.1.size := by
  rcases s with ⟨buffer, events, offset⟩
  cases buffer with
  | nil => exact refill_spec offset events
  | cons b bs => exact ⟨rfl, rfl, rfl⟩

theorem next_of_delivered_cons {s : ByteStream} {b : UInt8} {bs : Bytes}
    (front : s.delivered = b :: bs) :
    ∃ rest, s.next = (.byte b, rest) ∧ rest.delivered = bs ∧ rest.failure? = s.failure? ∧
      rest.offset = s.offset + 1 := by
  rcases s.next_spec with ⟨read, signals, offset⟩
  unfold delivered failure? at *
  cases pending : s.signals with
  | nil =>
    rw [pending] at front
    cases front
  | cons signal later =>
    rw [pending] at front read signals
    cases signal with
    | stop => cases front
    | failed cause => cases front
    | byte b' =>
      rw [ByteRead.delivered] at front
      cases front
      refine ⟨s.next.2, Prod.ext read rfl, ?_, ?_, ?_⟩
      · rw [signals]
        rfl
      · rw [signals]
        rfl
      · rw [offset, read]
        rfl

theorem next_of_delivered_nil {s : ByteStream} (empty : s.delivered = []) :
    s.next.1 = .ending s.failure? := by
  rw [s.next_spec.1]
  unfold delivered failure? at *
  cases pending : s.signals with
  | nil => rfl
  | cons signal later =>
    rw [pending] at empty
    cases signal with
    | byte b => cases empty
    | stop => rfl
    | failed cause => rfl

/-- A sequence that is delivered as a whole. -/
theorem take_of_delivered (cut : IoFailure) (front : Bytes) {s : ByteStream} {back : Bytes}
    (done : Bytes) (delivers : s.delivered = front ++ back) :
    ∃ rest, s.take cut front.length done = (.ok (done ++ front), rest) ∧ rest.delivered = back ∧
      rest.failure? = s.failure? ∧ rest.offset = s.offset + front.length := by
  induction front generalizing s done with
  | nil => exact ⟨s, by rw [List.append_nil]; rfl, delivers, rfl, rfl⟩
  | cons b front ih =>
    rcases next_of_delivered_cons delivers with ⟨middle, next, bytes, sameFailure, offset⟩
    rcases ih (done ++ [b]) bytes with ⟨rest, taken, remaining, failure, finalOffset⟩
    refine ⟨rest, ?_, remaining, failure.trans sameFailure, ?_⟩
    · rw [List.length_cons, take, next]
      simp only [taken, List.append_assoc, List.singleton_append]
    · rw [finalOffset, offset, List.length_cons]
      omega

/-- A sequence that the end or a failure cuts off. -/
theorem take_of_short (cut : IoFailure) {n : Nat} {s : ByteStream} (done : Bytes)
    (short : s.delivered.length < n) :
    (s.take cut n done).1 = .error (s.failure?.getD cut) := by
  induction n generalizing s done with
  | zero => exact absurd short (Nat.not_lt_zero _)
  | succ n ih =>
    cases bytes : s.delivered with
    | nil =>
      have read := next_of_delivered_nil bytes
      rcases next : s.next with ⟨answer, rest⟩
      rw [next] at read
      rw [take, next]
      cases failure : s.failure?
      all_goals
        rw [failure] at read
        cases read
        rfl
    | cons b bs =>
      rcases next_of_delivered_cons bytes with ⟨rest, next, remaining, failure, -⟩
      rw [take, next, ← failure]
      apply ih
      rw [bytes, List.length_cons] at short
      rw [remaining]
      omega

/-- The bytes before the first end are among all that may come. -/
theorem length_delivered_le_size (s : ByteStream) : s.delivered.length ≤ s.size := by
  have total (events : List ReadEvent) :
      (events.flatMap ReadEvent.signals).filterMap ByteRead.byte? = events.flatMap eventBytes := by
    induction events with
    | nil => rfl
    | cons e events ih =>
      rw [List.flatMap_cons, List.filterMap_append, filterMap_byte?_signals, ih, List.flatMap_cons]
  have all : s.signals.filterMap ByteRead.byte? = s.buffer ++ s.events.flatMap eventBytes := by
    rw [signals, List.filterMap_append, ByteRead.filterMap_byte?_bytes, total]
  calc
    s.delivered.length ≤ (s.signals.filterMap ByteRead.byte?).length :=
      (ByteRead.delivered_prefix s.signals).length_le
    _ = s.size := by rw [all, List.length_append, size]

end ByteStream

/-! ## Characters -/

namespace CharSource

/-- The first character of delivered bytes, of which the first stands at an
offset, and the bytes behind it. -/
def front (offset : Nat) (failure : Option IoFailure) : Bytes → CharRead × Bytes
  | [] =>
    match failure with
    | some cause => (.failed cause, [])
    | none => (.stop, [])
  | first :: rest =>
    match Utf8.width? first with
    | none => (.failed (.invalidSequence offset), rest)
    | some width =>
      if rest.length < width - 1 then (.failed (failure.getD (.truncatedSequence offset)), [])
      else
        match Utf8.decodeChar? (first :: rest.take (width - 1)) with
        | some c => (.char c, rest.drop (width - 1))
        | none => (.failed (.invalidSequence offset), rest.drop (width - 1))

/-- What a source of characters hands out next is a function of the bytes that
are delivered to it. -/
structure Follows (s : CharSource) (answer : CharRead × Bytes) : Prop where
  read : s.next.1 = answer.1
  /-- After a character the source goes on behind it. -/
  rest : ∀ c, answer.1 = .char c → s.next.2.failed = false ∧ s.next.2.bytes.delivered = answer.2 ∧
    s.next.2.bytes.failure? = s.bytes.failure? ∧
    s.next.2.bytes.offset + answer.2.length = s.bytes.offset + s.bytes.delivered.length

theorem next_follows_nil {s : CharSource} (sound : s.failed = false)
    (empty : s.bytes.delivered = []) : s.Follows (front s.bytes.offset s.bytes.failure? []) := by
  have read := ByteStream.next_of_delivered_nil empty
  rcases answered : s.bytes.next with ⟨answer, rest⟩
  rw [answered] at read
  cases failure : s.bytes.failure?
  all_goals
    rw [failure] at read
    cases read
    refine ⟨?_, fun c impossible => by cases impossible⟩
    simp only [next, sound, Bool.false_eq_true, if_false, answered, front]

theorem next_follows_cons {s : CharSource} (sound : s.failed = false) {first : UInt8} {bs : Bytes}
    (delivers : s.bytes.delivered = first :: bs) :
    s.Follows (front s.bytes.offset s.bytes.failure? (first :: bs)) := by
  rcases ByteStream.next_of_delivered_cons delivers with ⟨rest, answered, remaining, failure, offset⟩
  have decodes {c : Char} {after : ByteStream}
      (decoded : decode s.bytes.offset first rest = (.ok c, after)) :
      s.next = (.char c, ⟨after, false⟩) := by
    simp only [next, sound, Bool.false_eq_true, if_false, answered, decoded]
  have fails {cause : IoFailure} {after : ByteStream}
      (failed : decode s.bytes.offset first rest = (.error cause, after)) :
      s.next = (.failed cause, ⟨after, true⟩) := by
    simp only [next, sound, Bool.false_eq_true, if_false, answered, failed]
  cases announced : Utf8.width? first with
  | none =>
    have broken : decode s.bytes.offset first rest =
        (.error (.invalidSequence s.bytes.offset), rest) := by
      simp only [decode, announced]
    refine ⟨?_, fun c impossible => ?_⟩
    · simp only [fails broken, front, announced]
    · simp only [front, announced] at impossible
      cases impossible
  | some width =>
    by_cases short : bs.length < width - 1
    · have cutOff := ByteStream.take_of_short (.truncatedSequence s.bytes.offset) [first]
        (remaining.symm ▸ short)
      rcases taken : rest.take (.truncatedSequence s.bytes.offset) (width - 1) [first] with
        ⟨result, after⟩
      rw [taken, failure] at cutOff
      change result = _ at cutOff
      subst cutOff
      have broken : decode s.bytes.offset first rest =
          (.error (s.bytes.failure?.getD (.truncatedSequence s.bytes.offset)), after) := by
        simp only [decode, announced, taken]
      refine ⟨?_, fun c impossible => ?_⟩
      · simp only [fails broken, front, announced, if_pos short]
      · simp only [front, announced, if_pos short] at impossible
        cases impossible
    · have whole : (bs.take (width - 1)).length = width - 1 := by
        rw [List.length_take]
        omega
      rcases ByteStream.take_of_delivered (.truncatedSequence s.bytes.offset) (bs.take (width - 1))
          [first] (remaining.trans (List.take_append_drop (width - 1) bs).symm) with
        ⟨after, taken, behind, sameFailure, finalOffset⟩
      rw [whole] at taken finalOffset
      rw [List.singleton_append] at taken
      cases decoded : Utf8.decodeChar? (first :: bs.take (width - 1)) with
      | none =>
        have broken : decode s.bytes.offset first rest =
            (.error (.invalidSequence s.bytes.offset), after) := by
          simp only [decode, announced, taken, decoded]
        refine ⟨?_, fun c impossible => ?_⟩
        · simp only [fails broken, front, announced, decoded, if_neg short]
        · simp only [front, announced, decoded, if_neg short] at impossible
          cases impossible
      | some c =>
        have found : front s.bytes.offset s.bytes.failure? (first :: bs) =
            (.char c, bs.drop (width - 1)) := by
          simp only [front, announced, decoded, if_neg short]
        rw [found]
        have result : s.next = (.char c, ⟨after, false⟩) := by
          apply decodes
          simp only [decode, announced, taken, decoded]
        refine ⟨by rw [result], fun _ _ => ?_⟩
        rw [result]
        refine ⟨rfl, behind, sameFailure.trans failure, ?_⟩
        rw [delivers, finalOffset, offset, List.length_drop, List.length_cons]
        omega

theorem next_follows {s : CharSource} (sound : s.failed = false) :
    s.Follows (front s.bytes.offset s.bytes.failure? s.bytes.delivered) := by
  cases bytes : s.bytes.delivered with
  | nil => exact next_follows_nil sound bytes
  | cons first bs => exact next_follows_cons sound bytes

/-! ## Encoded text in front -/

theorem front_encodeChar (offset : Nat) (failure : Option IoFailure) (c : Char) (rest : Bytes) :
    front offset failure (String.utf8EncodeChar c ++ rest) = (.char c, rest) := by
  rcases Utf8.exists_width?_eq c with ⟨first, tail, encoded, announced⟩
  have decoded : Utf8.decodeChar? (first :: tail) = some c :=
    Utf8.decodeChar?_eq_some_iff.mpr encoded.symm
  have long : ¬ (tail ++ rest).length < tail.length := by
    rw [List.length_append]
    omega
  simp only [encoded, List.cons_append, front, announced, Nat.add_sub_cancel, if_neg long,
    List.take_left, List.drop_left, decoded]

/-- There are no bytes left, or something is wrong with them, or they begin with
an encoded character. -/
theorem front_cases (offset : Nat) (failure : Option IoFailure) (bytes : Bytes) :
    (bytes = [] ∧ failure = none ∧ front offset failure bytes = (.stop, [])) ∨
      (∃ cause rest, front offset failure bytes = (.failed cause, rest)) ∨
      ∃ c rest, bytes = String.utf8EncodeChar c ++ rest ∧
        front offset failure bytes = (.char c, rest) := by
  cases bytes with
  | nil =>
    cases failure with
    | none => exact .inl ⟨rfl, rfl, rfl⟩
    | some cause => exact .inr (.inl ⟨cause, [], rfl⟩)
  | cons first rest =>
    right
    cases announced : Utf8.width? first with
    | none =>
      simp only [front, announced]
      exact .inl ⟨_, _, rfl⟩
    | some width =>
      by_cases short : rest.length < width - 1
      · simp only [front, announced, if_pos short]
        exact .inl ⟨_, _, rfl⟩
      · cases decoded : Utf8.decodeChar? (first :: rest.take (width - 1)) with
        | none =>
          simp only [front, announced, if_neg short, decoded]
          exact .inl ⟨_, _, rfl⟩
        | some c =>
          simp only [front, announced, if_neg short, decoded]
          refine .inr ⟨c, rest.drop (width - 1), ?_, rfl⟩
          rw [← Utf8.decodeChar?_eq_some_iff.mp decoded, List.cons_append, List.take_append_drop]

/-- A character is handed out only for its own encoding. -/
theorem eq_of_front_char {offset : Nat} {failure : Option IoFailure} {bytes : Bytes} {c : Char}
    (read : (front offset failure bytes).1 = .char c) :
    bytes = String.utf8EncodeChar c ++ (front offset failure bytes).2 := by
  rcases front_cases offset failure bytes with
    ⟨-, -, found⟩ | ⟨cause, rest, found⟩ | ⟨d, rest, encoded, found⟩
  · rw [found] at read
    cases read
  · rw [found] at read
    cases read
  · rw [found] at read ⊢
    cases read
    exact encoded

theorem eq_of_front_stop {offset : Nat} {failure : Option IoFailure} {bytes : Bytes}
    (read : (front offset failure bytes).1 = .stop) : bytes = [] ∧ failure = none := by
  rcases front_cases offset failure bytes with
    ⟨empty, intact, -⟩ | ⟨cause, rest, found⟩ | ⟨c, rest, -, found⟩
  · exact ⟨empty, intact⟩
  · rw [found] at read
    cases read
  · rw [found] at read
    cases read

theorem length_front_lt {offset : Nat} {failure : Option IoFailure} {bytes : Bytes} {c : Char}
    (read : (front offset failure bytes).1 = .char c) :
    (front offset failure bytes).2.length < bytes.length := by
  have split := congrArg List.length (eq_of_front_char read)
  have positive := List.length_pos_of_ne_nil (String.utf8EncodeChar_ne_nil (c := c))
  rw [List.length_append] at split
  omega

/-! ## Whole deliveries -/

/-- Two sources that have the same bytes before them, up to the first end. -/
structure Agrees (s s' : CharSource) : Prop where
  sound : s.failed = false
  alsoSound : s'.failed = false
  bytes : s.bytes.delivered = s'.bytes.delivered
  failure : s.bytes.failure? = s'.bytes.failure?
  offset : s.bytes.offset = s'.bytes.offset

theorem Agrees.next {s s' : CharSource} (agrees : s.Agrees s') :
    s.next.1 = s'.next.1 ∧
      ∀ c, s.next.1 = .char c → s.next.2.Agrees s'.next.2 ∧
        s.next.2.bytes.delivered.length < s.bytes.delivered.length := by
  have left := next_follows agrees.sound
  have right := next_follows agrees.alsoSound
  rw [← agrees.bytes, ← agrees.failure, ← agrees.offset] at right
  refine ⟨left.read.trans right.read.symm, fun c read => ?_⟩
  have found := left.read.symm.trans read
  rcases left.rest c found with ⟨sound, bytes, failure, offset⟩
  rcases right.rest c found with ⟨sound', bytes', failure', offset'⟩
  refine ⟨⟨sound, sound', bytes.trans bytes'.symm, ?_, ?_⟩, ?_⟩
  · rw [failure, failure', agrees.failure]
  · -- Offsets are not compared one by one: both are what the bytes behind leave.
    rw [← agrees.bytes, ← agrees.offset] at offset'
    omega
  · rw [bytes]
    exact length_front_lt found

/-- A delivery does not depend on anything behind the first end, nor on the fuel
as long as it lasts. -/
theorem deliverFrom_congr {s s' : CharSource} {fuel fuel' : Nat} (agrees : s.Agrees s')
    (enough : s.bytes.delivered.length < fuel) (enough' : s.bytes.delivered.length < fuel')
    (done : Array Char) : deliverFrom fuel s done = deliverFrom fuel' s' done := by
  -- Both sources take the same step and agree again behind it, on fewer bytes.
  induction fuel generalizing s s' fuel' done with
  | zero => omega
  | succ fuel ih =>
    cases fuel' with
    | zero => omega
    | succ fuel' =>
      rcases agrees.next with ⟨same, goesOn⟩
      rcases answered : s.next with ⟨read, rest⟩
      rcases answered' : s'.next with ⟨read', rest'⟩
      rw [answered, answered'] at same
      rw [answered] at goesOn
      rw [answered'] at goesOn
      change read = read' at same
      subst same
      simp only [deliverFrom, answered, answered']
      cases read with
      | char c =>
        rcases goesOn c rfl with ⟨further, shorter⟩
        change rest.bytes.delivered.length < _ at shorter
        have lasts : rest.bytes.delivered.length < fuel := by omega
        have lasts' : rest.bytes.delivered.length < fuel' := by omega
        exact ih further lasts lasts' (done.push c)
      | stop => rfl
      | failed cause => rfl

theorem deliverFrom_encode (text : List Char) {s : CharSource} {fuel : Nat} (done : Array Char)
    (sound : s.failed = false) (bytes : s.bytes.delivered = Utf8.encode text)
    (intact : s.bytes.failure? = none) (enough : s.bytes.delivered.length < fuel) :
    deliverFrom fuel s done = ⟨done.toList ++ text, none⟩ := by
  induction text generalizing s fuel done with
  | nil =>
    cases fuel with
    | zero => omega
    | succ fuel =>
      have read := (next_follows sound).read
      rw [bytes, intact] at read
      rcases answered : s.next with ⟨answer, rest⟩
      rw [answered] at read
      cases read
      simp only [deliverFrom, answered, List.append_nil]
  | cons c text ih =>
    cases fuel with
    | zero => omega
    | succ fuel =>
      have follows := next_follows sound
      rw [bytes, Utf8.encode_cons, front_encodeChar] at follows
      rcases follows.rest c rfl with ⟨stillSound, behind, failure, offset⟩
      have positive := List.length_pos_of_ne_nil (String.utf8EncodeChar_ne_nil (c := c))
      rw [bytes, Utf8.encode_cons, List.length_append] at enough
      have read := follows.read
      rcases answered : s.next with ⟨answer, rest⟩
      rw [answered] at read stillSound behind failure
      cases read
      have lasts : rest.bytes.delivered.length < fuel := by
        rw [show rest.bytes.delivered = Utf8.encode text from behind]
        omega
      simp only [deliverFrom, answered]
      rw [ih (done.push c) stillSound behind (failure.trans intact) lasts]
      simp only [Array.toList_push, List.append_assoc, List.singleton_append]

/-- A text is delivered without a failure only if the bytes are its encoding. -/
theorem exists_encode_eq_of_deliverFrom {s : CharSource} {fuel : Nat} {done : Array Char}
    (sound : s.failed = false) (enough : s.bytes.delivered.length < fuel)
    (succeeds : (deliverFrom fuel s done).failure = none) :
    s.bytes.failure? = none ∧ ∃ text, s.bytes.delivered = Utf8.encode text := by
  induction fuel generalizing s done with
  | zero => omega
  | succ fuel ih =>
    have follows := next_follows sound
    rcases answered : s.next with ⟨answer, rest⟩
    -- Every character read so far was its own encoding, so the bytes are put
    -- together again from behind.
    have read : answer = _ := (congrArg Prod.fst answered).symm.trans follows.read
    simp only [deliverFrom, answered] at succeeds
    cases answer with
    | char c =>
      have split := eq_of_front_char read.symm
      have shorter := length_front_lt read.symm
      rcases follows.rest c read.symm with ⟨stillSound, behind, failure, -⟩
      rw [answered] at stillSound behind failure
      rcases ih stillSound (by rw [behind]; omega) succeeds with ⟨intact, text, encoded⟩
      refine ⟨failure.symm.trans intact, c :: text, ?_⟩
      rw [split, ← behind, encoded, Utf8.encode_cons]
    | stop =>
      rcases eq_of_front_stop read.symm with ⟨empty, intact⟩
      exact ⟨intact, [], empty⟩
    | failed cause => cases succeeds

end CharSource

/-! ## Templates from readers -/

namespace ReadEvent

/-- The bytes that a reader delivers before its first end or failure. -/
def delivered (events : List ReadEvent) : Bytes := ByteRead.delivered (events.flatMap signals)

/-- The failure that a reader meets before any end. -/
def failure? (events : List ReadEvent) : Option IoFailure :=
  ByteRead.failure? (events.flatMap signals)

theorem delivered_chunk (bytes : Bytes) : delivered [.chunk bytes] = bytes := by
  cases bytes with
  | nil => rfl
  | cons b bs =>
    simp only [delivered, signals, List.flatMap_cons, List.flatMap_nil]
    exact ByteRead.delivered_bytes (b :: bs) 0

theorem failure?_chunk (bytes : Bytes) : failure? [.chunk bytes] = none := by
  cases bytes with
  | nil => rfl
  | cons b bs =>
    simp only [failure?, signals, List.flatMap_cons, List.flatMap_nil]
    exact ByteRead.failure?_bytes (b :: bs) 0

end ReadEvent

namespace CharSource

theorem deliver_ofEvents_encode {events : List ReadEvent} {text : List Char}
    (intact : ReadEvent.failure? events = none)
    (bytes : ReadEvent.delivered events = Utf8.encode text) :
    (ofEvents events).deliver = ⟨text, none⟩ :=
  deliverFrom_encode text #[] rfl bytes intact
    (Nat.lt_succ_of_le (ByteStream.length_delivered_le_size _))

theorem exists_encode_eq_of_deliver {events : List ReadEvent}
    (succeeds : (ofEvents events).deliver.failure = none) :
    ReadEvent.failure? events = none ∧ ∃ text, ReadEvent.delivered events = Utf8.encode text :=
  exists_encode_eq_of_deliverFrom rfl
    (Nat.lt_succ_of_le (ByteStream.length_delivered_le_size (.ofEvents events))) succeeds

theorem deliver_ofEvents_congr {events other : List ReadEvent}
    (bytes : ReadEvent.delivered events = ReadEvent.delivered other)
    (failure : ReadEvent.failure? events = ReadEvent.failure? other) :
    (ofEvents events).deliver = (ofEvents other).deliver := by
  have agrees : (ofEvents events).Agrees (ofEvents other) := ⟨rfl, rfl, bytes, failure, rfl⟩
  apply deliverFrom_congr agrees
  · exact Nat.lt_succ_of_le (ByteStream.length_delivered_le_size _)
  · rw [agrees.bytes]
    exact Nat.lt_succ_of_le (ByteStream.length_delivered_le_size _)

end CharSource

namespace Wrappers

/-- A template that is read to its end is transpiled as the text that its bytes
encode; one that is not, or that is no text, has no script and no malformation
either.  Only the bytes before the first end or failure and that failure count. -/
theorem transpileReader_agrees_with_text (w : Wrappers) (events : List ReadEvent) :
    (∀ text, ReadEvent.failure? events = none →
        ReadEvent.delivered events = Utf8.encode text →
        w.transpileReader events = w.transpile text) ∧
      (ReadEvent.failure? events ≠ none ∨
          (¬ ∃ text, ReadEvent.delivered events = Utf8.encode text) →
        ∃ cause, (w.transpileReader events).result = .error (.unreadableInput cause)) ∧
      ∀ other, ReadEvent.delivered other = ReadEvent.delivered events →
        ReadEvent.failure? other = ReadEvent.failure? events →
        w.transpileReader other = w.transpileReader events := by
  refine ⟨?_, ?_, ?_⟩
  · intro text intact bytes
    rw [transpileReader, CharSource.deliver_ofEvents_encode intact bytes]
    rfl
  · intro broken
    cases failure : (CharSource.ofEvents events).deliver.failure with
    | none =>
      rcases CharSource.exists_encode_eq_of_deliver failure with ⟨intact, valid⟩
      rcases broken with failing | invalid
      · exact absurd intact failing
      · exact absurd valid invalid
    | some cause =>
      refine ⟨cause, ?_⟩
      rw [transpileReader, transpileDelivery_eq, failure]
      rfl
  · intro other bytes failure
    rw [transpileReader, CharSource.deliver_ofEvents_congr bytes failure]
    rfl

end Wrappers

end TemplateScript

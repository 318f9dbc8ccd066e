import TemplateScript.ByteStream

namespace TemplateScript

/-!
# Streams of characters

Characters are decoded one at a time.  The first byte of a sequence tells how
many more belong to it; they are all read before any of them is looked at.
After a failure the source is exhausted for good, while after an end the next
request reads again.
-/

/-- A stream of bytes read as UTF-8. -/
structure CharSource where
  bytes : ByteStream
  failed : Bool
  deriving DecidableEq

/-- What asking a source for a character gives. -/
inductive CharRead where
  | char (c : Char)
  | stop
  | failed (cause : IoFailure)
  deriving DecidableEq

/-- The text of a source up to its first end, or up to the failure before it. -/
structure Delivery where
  text : List Char
  failure : Option IoFailure
  deriving DecidableEq

namespace CharSource

/-- A source over a reader that has not been read. -/
def ofEvents (events : List ReadEvent) : CharSource := ⟨.ofEvents events, false⟩

/-- Decode the sequence that starts with `first`, at byte `start` of the stream. -/
def decode (start : Nat) (first : UInt8) (s : ByteStream) : Except IoFailure Char × ByteStream :=
  match Utf8.width? first with
  | none => (.error (.invalidSequence start), s)
  | some width =>
    match s.take (.truncatedSequence start) (width - 1) [first] with
    | (.error cause, rest) => (.error cause, rest)
    | (.ok sequence, rest) =>
      match Utf8.decodeChar? sequence with
      | some c => (.ok c, rest)
      | none => (.error (.invalidSequence start), rest)

/-- Ask for the next character. -/
def next (s : CharSource) : CharRead × CharSource :=
  if s.failed then (.stop, s)
  else
    match s.bytes.next with
    | (.stop, rest) => (.stop, ⟨rest, false⟩)
    | (.failed cause, rest) => (.failed cause, ⟨rest, true⟩)
    | (.byte first, rest) =>
      match decode s.bytes.offset first rest with
      | (.ok c, rest) => (.char c, ⟨rest, false⟩)
      | (.error cause, rest) => (.failed cause, ⟨rest, true⟩)

/-- The answers to `n` requests. -/
def reads : Nat → CharSource → List CharRead
  | 0, _ => []
  | n + 1, s => s.next.1 :: reads n s.next.2

/-- Read on to the first end or failure.  Every character takes at least one
byte, so `fuel` bytes to come are enough. -/
def deliverFrom : Nat → CharSource → Array Char → Delivery
  | 0, _, done => ⟨done.toList, none⟩
  | fuel + 1, s, done =>
    match s.next with
    | (.char c, rest) => deliverFrom fuel rest (done.push c)
    | (.stop, _) => ⟨done.toList, none⟩
    | (.failed cause, _) => ⟨done.toList, some cause⟩

/-- What the source delivers up to its first end or failure. -/
def deliver (s : CharSource) : Delivery := deliverFrom (s.bytes.size + 1) s #[]

end CharSource

end TemplateScript

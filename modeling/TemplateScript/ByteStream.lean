import TemplateScript.IoFailure
import TemplateScript.Utf8

namespace TemplateScript

/-!
# Streams of bytes

A reader is known by what its reads will deliver: chunks of bytes, ends, and
failures.  An end is not final, since a later read may deliver more.  A stream
hands out the bytes of a chunk one by one and reads again only when the chunk
is used up; a read that was merely interrupted is repeated.
-/

/-- What one read of a reader delivers. -/
inductive ReadEvent where
  /-- Some bytes.  A read that delivers none is an end. -/
  | chunk (bytes : Bytes)
  /-- The end of the input, for now. -/
  | stop
  | failure (cause : IoFailure)
  deriving DecidableEq

/-- The bytes at hand, the reads to come, and the number of bytes handed out.
After the last event every read is an end. -/
structure ByteStream where
  buffer : Bytes
  events : List ReadEvent
  offset : Nat
  deriving DecidableEq

/-- What asking a stream for a byte gives. -/
inductive ByteRead where
  | byte (b : UInt8)
  | stop
  | failed (cause : IoFailure)
  deriving DecidableEq

namespace ByteStream

/-- A stream over a reader that has not been read. -/
def ofEvents (events : List ReadEvent) : ByteStream := ⟨[], events, 0⟩

/-- Read until something other than an interruption is delivered. -/
def refill (offset : Nat) : List ReadEvent → ByteRead × ByteStream
  | [] => (.stop, ⟨[], [], offset⟩)
  | .chunk (b :: bs) :: rest => (.byte b, ⟨bs, rest, offset + 1⟩)
  | .chunk [] :: rest => (.stop, ⟨[], rest, offset⟩)
  | .stop :: rest => (.stop, ⟨[], rest, offset⟩)
  | .failure cause :: rest =>
    if cause.kind = .interrupted then refill offset rest
    else (.failed cause, ⟨[], rest, offset⟩)

/-- Ask for the next byte. -/
def next (s : ByteStream) : ByteRead × ByteStream :=
  match s.buffer with
  | b :: bs => (.byte b, ⟨bs, s.events, s.offset + 1⟩)
  | [] => refill s.offset s.events

/-- Ask for `n` more bytes of a sequence of which `done` has been read.  An end
within the sequence is reported as `cut`. -/
def take (cut : IoFailure) : Nat → Bytes → ByteStream → Except IoFailure Bytes × ByteStream
  | 0, done, s => (.ok done, s)
  | n + 1, done, s =>
    match s.next with
    | (.byte b, rest) => take cut n (done ++ [b]) rest
    | (.stop, rest) => (.error cut, rest)
    | (.failed cause, rest) => (.error cause, rest)

/-- The bytes that a read will deliver. -/
def eventBytes : ReadEvent → Bytes
  | .chunk bytes => bytes
  | .stop | .failure _ => []

/-- The number of bytes that the stream can still hand out. -/
def size (s : ByteStream) : Nat :=
  s.buffer.length + (s.events.flatMap eventBytes).length

end ByteStream

end TemplateScript

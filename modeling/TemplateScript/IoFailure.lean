namespace TemplateScript

/-!
# Failures of reading and writing

The kinds that some rule of this library depends on have a constructor of
their own; all others are carried by name.
-/

/-- What went wrong with an input or output operation. -/
inductive IoKind where
  | notFound
  | notADirectory
  | isADirectory
  /-- A name or a path is longer than the system allows. -/
  | invalidFilename
  /-- The system cannot be asked for such a path. -/
  | invalidInput
  | invalidData
  /-- The operation was cut short and may be tried again. -/
  | interrupted
  | other (name : String)
  deriving DecidableEq

/-- A failed input or output operation. -/
structure IoFailure where
  kind : IoKind
  message : String
  deriving DecidableEq

namespace IoFailure

/-- The system's answer for a path that leads nowhere. -/
def noSuchFile : IoFailure := ⟨.notFound, "No such file or directory (os error 2)"⟩

/-- The system's answer for a path that goes through a file. -/
def throughFile : IoFailure := ⟨.notADirectory, "Not a directory (os error 20)"⟩

/-- The system's answer for reading or writing a directory as a file. -/
def directory : IoFailure := ⟨.isADirectory, "Is a directory (os error 21)"⟩

/-- The system's answer for a name or a path that is too long. -/
def tooLong : IoFailure := ⟨.invalidFilename, "File name too long (os error 36)"⟩

/-- A path with a NUL in it, which would end it for the system. -/
def nulInPath : IoFailure := ⟨.invalidInput, "file name contained an unexpected NUL byte"⟩

/-- A file that should hold text holds other bytes. -/
def notText : IoFailure := ⟨.invalidData, "stream did not contain valid UTF-8"⟩

/-- A byte sequence, starting at an offset, that encodes no character. -/
def invalidSequence (offset : Nat) : IoFailure :=
  ⟨.invalidData, "invalid UTF-8 sequence at byte " ++ toString offset⟩

/-- A byte sequence, starting at an offset, that the end of the input cuts off. -/
def truncatedSequence (offset : Nat) : IoFailure :=
  ⟨.invalidData, "truncated UTF-8 sequence at byte " ++ toString offset⟩

end IoFailure

end TemplateScript

import TemplateScript.IoFailure
import TemplateScript.Path
import TemplateScript.Utf8

namespace TemplateScript

/-!
# Files and directories

A file tree says what is found at each place.  A place is named by the way from
the root, and different paths may lead to the same place; what a path denotes
is found by following it step by step, through directories that must exist.

There are no links and no permissions: every file can be opened, and a file that
is opened can be read to its end.  Names and paths have a greatest length, which
is counted in bytes.

Writing a file takes two steps.  Opening it creates it or takes from it what it
held; then the bytes go to the medium that the file lies on, which may lose them
or fail on the way.
-/

/-- A place: the names on the way from the root. -/
abbrev Location := List String

/-- What is found at a place. -/
inductive Entry where
  | file (content : Bytes)
  | directory
  deriving DecidableEq

/-- What becomes of the bytes that are written to a file once it is open. -/
inductive Medium where
  /-- All of them are kept. -/
  | keeps
  /-- All of them are lost without complaint, as on a null device. -/
  | discards
  /-- The first of them are kept; then writing fails, as on a full disk. -/
  | fails (taken : Nat) (cause : IoFailure)
  deriving DecidableEq

namespace Medium

/-- What is kept of the bytes. -/
def kept : Medium → Bytes → Bytes
  | .keeps, content => content
  | .discards, _ => []
  | .fails taken _, content => content.take taken

/-- What the writer is told. -/
def answer : Medium → Except IoFailure Unit
  | .keeps | .discards => .ok ()
  | .fails _ cause => .error cause

end Medium

/-- The places where something is found, other than the root itself, and the
directory that relative paths start from. -/
structure FileTree where
  entries : List (Location × Entry)
  workingDirectory : Location
  deriving DecidableEq

namespace FileTree

/-- What is found at a place; the root is a directory. -/
def find? (t : FileTree) (place : Location) : Option Entry :=
  if place = [] then some .directory else t.entries.lookup place

/-- Put something at a place. -/
def insert (t : FileTree) (place : Location) (entry : Entry) : FileTree :=
  { t with entries := (place, entry) :: t.entries.filter fun e => decide (e.1 ≠ place) }

@[simp] theorem find?_insert_self (t : FileTree) {place : Location} (entry : Entry)
    (below : place ≠ []) : (t.insert place entry).find? place = some entry := by
  simp only [find?, insert, if_neg below, List.lookup_cons_self]

/-- Putting something at one place changes nothing at another. -/
theorem find?_insert_of_ne (t : FileTree) {place other : Location} (entry : Entry)
    (different : other ≠ place) : (t.insert place entry).find? other = t.find? other := by
  have unaffected : ∀ entries : List (Location × Entry),
      (entries.filter fun e => decide (e.1 ≠ place)).lookup other = entries.lookup other := by
    intro entries
    induction entries with
    | nil => rfl
    | cons head tail ih =>
      rcases head with ⟨here, found⟩
      by_cases removed : here = place
      · have apart : (other == here) = false := beq_false_of_ne (removed ▸ different)
        rw [List.filter_cons_of_neg (by simp [removed]), ih, List.lookup_cons, apart]
      · rw [List.filter_cons_of_pos (by simp [removed]), List.lookup_cons, List.lookup_cons, ih]
  have apart : (other == place) = false := beq_false_of_ne different
  by_cases root : other = []
  · simp only [find?, if_pos root]
  · simp only [find?, insert, if_neg root, List.lookup_cons, apart]
    exact unaffected t.entries

/-- What was put at a place last is all that counts there. -/
theorem insert_insert (t : FileTree) (place : Location) (first second : Entry) :
    (t.insert place first).insert place second = t.insert place second := by
  simp [insert]

/-- The most bytes that a name may have. -/
def longestName : Nat := 255

/-- The most bytes that a path may have. -/
def longestPath : Nat := 4095

/-- What is wrong with a path, whatever the tree holds. -/
def objection? (p : Path) : Option IoFailure :=
  if p.hasNul then some .nulInPath
  else if p.spelling = "" then some .noSuchFile
  else if longestPath < p.spelling.utf8ByteSize then some .tooLong
  else none

/-- Follow steps from a place at which something is found.  A name is looked up
only in a directory, so its length counts only there. -/
def follow (t : FileTree) : Location → List Path.Step → Except IoFailure Location
  | here, [] => .ok here
  | here, step :: rest =>
    match t.find? here, step with
    | some .directory, .stay => t.follow here rest
    | some .directory, .up => t.follow here.dropLast rest
    | some .directory, .down name =>
      if longestName < name.utf8ByteSize then .error .tooLong
      else if (t.find? (here ++ [name])).isSome then t.follow (here ++ [name]) rest
      else .error .noSuchFile
    | _, _ => .error .throughFile

/-- The place that a path starts from. -/
def origin (t : FileTree) (p : Path) : Location :=
  if p.isAbsolute then [] else t.workingDirectory

/-- The place that a path denotes.  A slash at the end asks for a directory. -/
def resolve (t : FileTree) (p : Path) : Except IoFailure Location :=
  match objection? p with
  | some cause => .error cause
  | none => t.follow (t.origin p) (if p.endsWithSlash then p.steps ++ [.stay] else p.steps)

/-- Is something found where the path leads? -/
def has (t : FileTree) (p : Path) : Bool :=
  match t.resolve p with
  | .ok _ => true
  | .error _ => false

/-- Open what a path denotes. -/
def access (t : FileTree) (p : Path) : Except IoFailure Entry :=
  match t.resolve p with
  | .error cause => .error cause
  | .ok place =>
    match t.find? place with
    | some entry => .ok entry
    | none => .error .noSuchFile

/-- The place of a file that is created or replaced under a name.  A slash after
the name is refused before the name is looked up. -/
def child (t : FileTree) (parent : Location) (name : String) (slash : Bool) :
    Except IoFailure Location :=
  match t.find? parent with
  | some .directory =>
    if slash then .error .directory
    else if longestName < name.utf8ByteSize then .error .tooLong
    else if t.find? (parent ++ [name]) = some .directory then .error .directory
    else .ok (parent ++ [name])
  | _ => .error .throughFile

/-- The place of the file that writing to a path creates or replaces. -/
def target (t : FileTree) (p : Path) : Except IoFailure Location :=
  match objection? p, p.steps.getLast? with
  | some cause, _ => .error cause
  | none, some (.down name) =>
    match t.follow (t.origin p) p.steps.dropLast with
    | .error cause => .error cause
    | .ok parent => t.child parent name p.endsWithSlash
  | none, _ =>
    -- The path ends in a dot or at the root: it can only denote a directory.
    match t.resolve p with
    | .error cause => .error cause
    | .ok _ => .error .directory

/-- Open a file for writing: it is created, or it loses what it held. -/
def create (t : FileTree) (p : Path) : Except IoFailure (Location × FileTree) :=
  match t.target p with
  | .error cause => .error cause
  | .ok place => .ok (place, t.insert place (.file []))

/-- Write a file.  If it cannot be opened nothing happens; if its medium fails, it
is left with the bytes that were taken. -/
def write (t : FileTree) (medium : Location → Medium) (p : Path) (content : Bytes) :
    FileTree × Except IoFailure Unit :=
  match t.create p with
  | .error cause => (t, .error cause)
  | .ok (place, opened) =>
    (opened.insert place (.file ((medium place).kept content)), (medium place).answer)

end FileTree

end TemplateScript

namespace TemplateScript

/-!
# Paths as they are written

A path is kept as it was given, since messages show it so.  Two spellings are
equal if they have the same components: repeated and trailing slashes do not
count, and neither does a dot, unless the path starts with it.
-/

/-- The spelling of a path. -/
structure Path where
  spelling : String
  deriving DecidableEq

namespace Path

/-- A part of a path. -/
inductive Component where
  | root
  | current
  | parent
  | name (s : String)
  deriving DecidableEq

/-- What stands between the slashes. -/
def pieces (p : Path) : List String :=
  (p.spelling.toList.splitOn '/').map String.ofList

/-- Does the path start at the root? -/
def isAbsolute (p : Path) : Bool := p.spelling.toList.head? = some '/'

/-- The component of a piece in the middle of a path. -/
def component? (piece : String) : Option Component :=
  if piece = "" ∨ piece = "." then none
  else if piece = ".." then some .parent
  else some (.name piece)

/-- The components of a path. -/
def components (p : Path) : List Component :=
  let rest := p.pieces.filterMap component?
  if p.isAbsolute then .root :: rest
  else if p.pieces.head? = some "." then .current :: rest
  else rest

/-- Do two spellings have the same components? -/
def sameAs (p q : Path) : Bool := p.components = q.components

/-- The last component, if it is a name. -/
def fileName? (p : Path) : Option String :=
  match p.components.getLast? with
  | some (.name s) => some s
  | _ => none

/-- The part of a name after its last dot, unless that dot comes first. -/
def extensionOf? (name : String) : Option String :=
  let reversed := name.toList.reverse
  let after := reversed.takeWhile fun c => decide (c ≠ '.')
  match reversed.drop after.length with
  | _ :: _ :: _ => some (String.ofList after.reverse)
  | _ => none

/-- The extension of the last component. -/
def extension? (p : Path) : Option String := p.fileName?.bind extensionOf?

/-! ## Following a path -/

/-- One step of following a path through directories. -/
inductive Step where
  /-- A dot: stay in the directory. -/
  | stay
  /-- Two dots: go to the directory above. -/
  | up
  | down (name : String)
  deriving DecidableEq

/-- The step of a piece; nothing stands between two slashes that follow each other. -/
def step? (piece : String) : Option Step :=
  if piece = "" then none
  else if piece = "." then some .stay
  else if piece = ".." then some .up
  else some (.down piece)

/-- The steps of a path. -/
def steps (p : Path) : List Step := p.pieces.filterMap step?

/-- Does a NUL stand in the path? -/
def hasNul (p : Path) : Bool := p.spelling.toList.contains '\x00'

/-- Does the path end with a slash, which says that it leads to a directory? -/
def endsWithSlash (p : Path) : Bool := p.spelling.toList.getLast? = some '/'

end Path

end TemplateScript

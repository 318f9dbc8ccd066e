import TemplateScript.Json.Numeral
import TemplateScript.Json.Quoted

namespace TemplateScript
namespace Json

/-!
# Reading JSON step by step

A JSON text is read from left to right, one character at a time, and the first
problem decides.  Whoever wants the content is a consumer: it is told of every
value, key and bracket as soon as it is complete, it may refuse, and it says in
advance whether it will use the content of a value or key.  The brackets that
are open are kept on a stack, so nesting has no limit.

Nothing is looked at before its turn: what has been read so far alone decides
whether the text can still be accepted.
-/

/-- What a consumer is told. -/
inductive Event where
  | null
  | boolean (b : Bool)
  | number
  | text (s : String)
  | openArray
  /-- Another element of an array is announced by a comma. -/
  | element
  | closeArray
  | openObject
  | key (name : String)
  | closeObject
  deriving DecidableEq

/-- Someone who takes the content of a text; `σ` is what it keeps in mind. -/
structure Consumer (σ : Type) where
  /-- Will the value that comes next be used? -/
  valueCare : σ → Care
  /-- Will the key that comes next be used? -/
  keyCare : σ → Care
  accept : σ → Event → Except Fault σ

/-- An open bracket. -/
inductive Bracket where
  | square
  | curly
  deriving DecidableEq

/-- What may come next. -/
inductive Phase where
  | value
  /-- After the bracket of an array: a value, or its end. -/
  | firstElement
  /-- After the bracket of an object: a key, or its end. -/
  | firstKey
  /-- After a comma in an object. -/
  | nextKey
  | colon
  | afterValue
  /-- Inside a string that is a value. -/
  | quotedValue (care : Care) (r : Quoted.Reading)
  /-- Inside a string that is a key. -/
  | quotedKey (care : Care) (r : Quoted.Reading)
  /-- Inside a word: these characters must follow, and then the last one. -/
  | word (event : Event) (expected : List Char) (last : Char)
  | numeral (care : Care) (r : Numeral.Reading)
  deriving DecidableEq

/-- A text that is being read. -/
structure Reader (σ : Type) where
  phase : Phase
  brackets : List Bracket
  state : σ

/-- The characters that may stand between the parts of a text. -/
def isBlank (c : Char) : Bool := c = ' ' ∨ c = '\t' ∨ c = '\n' ∨ c = '\r'

namespace Reader

variable {σ : Type}

/-- Before the first character. -/
def begin (s : σ) : Reader σ := ⟨.value, [], s⟩

/-- Tell the consumer and go on in the given phase. -/
def report (k : Consumer σ) (m : Reader σ) (event : Event) (phase : Phase) (brackets : List Bracket) :
    Except Fault (Reader σ) :=
  match k.accept m.state event with
  | .ok s => .ok ⟨phase, brackets, s⟩
  | .error f => .error f

/-- The first character of a value. -/
def beginValue (k : Consumer σ) (m : Reader σ) (c : Char) : Except Fault (Reader σ) :=
  if isBlank c then .ok m
  else if c = '"' then
    .ok { m with phase := .quotedValue (k.valueCare m.state) .begin }
  else if c = '[' then m.report k .openArray .firstElement (.square :: m.brackets)
  else if c = '\x7b' then m.report k .openObject .firstKey (.curly :: m.brackets)
  else if c = 'n' then .ok { m with phase := .word .null ['u', 'l'] 'l' }
  else if c = 't' then .ok { m with phase := .word (.boolean true) ['r', 'u'] 'e' }
  else if c = 'f' then .ok { m with phase := .word (.boolean false) ['a', 'l', 's'] 'e' }
  else if c = '-' then
    .ok { m with phase := .numeral (k.valueCare m.state) ⟨.sign, 0, 0, false, false, 0⟩ }
  else
    match Numeral.digit? c with
    | some d => .ok { m with phase := .numeral (k.valueCare m.state) (.first d) }
    | none => .error .malformed

/-- A character after a complete value. -/
def afterValue (k : Consumer σ) (m : Reader σ) (c : Char) : Except Fault (Reader σ) :=
  if isBlank c then .ok { m with phase := .afterValue }
  else
    match m.brackets with
    | [] => .error .malformed
    | .square :: rest =>
      if c = ',' then m.report k .element .value m.brackets
      else if c = ']' then m.report k .closeArray .afterValue rest
      else .error .malformed
    | .curly :: rest =>
      if c = ',' then .ok { m with phase := .nextKey }
      else if c = '\x7d' then m.report k .closeObject .afterValue rest
      else .error .malformed

/-- The first character of a key. -/
def beginKey (k : Consumer σ) (m : Reader σ) (c : Char) : Except Fault (Reader σ) :=
  if isBlank c then .ok m
  else if c = '"' then .ok { m with phase := .quotedKey (k.keyCare m.state) .begin }
  else .error .malformed

/-- A number is complete.  One that would be used must be in range. -/
def endNumeral (k : Consumer σ) (m : Reader σ) (care : Care) (r : Numeral.Reading) :
    Except Fault (Reader σ) :=
  if care = .used ∧ r.inRange = false then .error .malformed
  else m.report k .number .afterValue m.brackets

/-- Read one character. -/
def step (k : Consumer σ) (m : Reader σ) (c : Char) : Except Fault (Reader σ) :=
  match m.phase with
  | .value => m.beginValue k c
  | .firstElement =>
    if c = ']' then m.report k .closeArray .afterValue (m.brackets.drop 1)
    else m.beginValue k c
  | .firstKey =>
    if c = '\x7d' then m.report k .closeObject .afterValue (m.brackets.drop 1)
    else m.beginKey k c
  | .nextKey => m.beginKey k c
  | .colon =>
    if isBlank c then .ok m
    else if c = ':' then .ok { m with phase := .value }
    else .error .malformed
  | .afterValue => m.afterValue k c
  | .quotedValue care r =>
    match r.step care c with
    | .ok (.more r) => .ok { m with phase := .quotedValue care r }
    | .ok (.closed s) => m.report k (.text s) .afterValue m.brackets
    | .error f => .error f
  | .quotedKey care r =>
    match r.step care c with
    | .ok (.more r) => .ok { m with phase := .quotedKey care r }
    | .ok (.closed s) => m.report k (.key s) .colon m.brackets
    | .error f => .error f
  | .word event expected last =>
    match expected with
    | [] => if c = last then m.report k event .afterValue m.brackets else .error .malformed
    | e :: rest =>
      if c = e then .ok { m with phase := .word event rest last } else .error .malformed
  | .numeral care r =>
    match r.step c with
    | .more r => .ok { m with phase := .numeral care r }
    | .malformed => .error .malformed
    | .ended =>
      match m.endNumeral k care r with
      | .ok m => m.afterValue k c
      | .error f => .error f

/-- The text is over: the consumer's state if the value is complete. -/
def close (m : Reader σ) : Except Fault σ :=
  match m.phase, m.brackets with
  | .afterValue, [] => .ok m.state
  | _, _ => .error .truncated

/-- The text ends here.  A number needs no mark of its end; one that breaks off
is a text cut short if it would be used, and no number at all if not. -/
def finish (k : Consumer σ) (m : Reader σ) : Except Fault σ :=
  match m.phase with
  | .numeral care r =>
    if r.complete then
      match m.endNumeral k care r with
      | .ok m => m.close
      | .error f => .error f
    else if care = .used then .error .truncated
    else .error .malformed
  | _ => m.close

/-- Read a run of characters. -/
def feed (k : Consumer σ) (m : Reader σ) (cs : List Char) : Except Fault (Reader σ) :=
  cs.foldlM (fun m c => m.step k c) m

@[simp] theorem feed_nil (k : Consumer σ) (m : Reader σ) : m.feed k [] = .ok m := rfl

/-- A text is read part by part, and a problem in the first part decides. -/
theorem feed_append (k : Consumer σ) (m : Reader σ) (front back : List Char) :
    m.feed k (front ++ back) =
      match m.feed k front with
      | .ok middle => middle.feed k back
      | .error fault => .error fault := by
  simp only [feed, List.foldlM_append]
  cases front.foldlM (fun m c => m.step k c) m <;> rfl

/-- Read a whole text. -/
def read (k : Consumer σ) (s : σ) (cs : List Char) : Except Fault σ :=
  match (begin s).feed k cs with
  | .ok m => m.finish k
  | .error f => .error f

end Reader

end Json
end TemplateScript

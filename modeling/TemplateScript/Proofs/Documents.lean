import Mathlib.Data.List.Basic
import TemplateScript.Json.Document
import TemplateScript.Json.Reader
import TemplateScript.Proofs.Utf8
import TemplateScript.Proofs.Values

namespace TemplateScript
namespace Json

/-!
# Reading a document that was written

A document has events: what a reader is to tell a consumer about it.  Reading
the text of a document tells exactly these events, in order and up to the first
that the consumer refuses, whatever the consumer is and wherever in a larger
text the document stands.

A consumer that does not care for a string is told an empty one.  That is part
of the statement, so nothing has to be assumed about what a consumer cares for.
-/

/-! ## Strings -/

namespace Care

/-- The part of a string that is told. -/
def keep : Care → List Char → List Char
  | .used, text => text
  | .skipped, _ => []

end Care

namespace Quoted

theorem hexDigit?_of_hexDigit {n : Nat} {c : Char} (digit : HexDigit n c) :
    hexDigit? c = some n := by
  have all : ∀ m : Fin 16, hexDigit? (Nat.digitChar m.val) = some m.val ∧
      hexDigit? (Nat.digitChar m.val).toUpper = some m.val := by decide
  rcases digit with ⟨small, rfl | rfl⟩
  · exact (all ⟨n, small⟩).1
  · exact (all ⟨n, small⟩).2

theorem utf8Size_of_hexDigit? {c : Char} {n : Nat} (digit : hexDigit? c = some n) :
    c.utf8Size = 1 := by
  have small : c.toNat ≤ 102 := by
    unfold hexDigit? at digit
    split_ifs at digit with decimal lower upper
    · exact Nat.le_trans decimal.2 (by decide)
    · exact lower.2
    · exact Nat.le_trans upper.2 (by decide)
  have one : c.val ≤ 0x7f := UInt32.le_iff_toNat_le.mpr (Nat.le_trans small (by decide))
  exact if_pos one

namespace Reading

/-- Some characters lead from one reading of a string to another inside it. -/
inductive Leads (care : Care) : Reading → List Char → Reading → Prop where
  | refl (r : Reading) : Leads care r [] r
  | step {r middle after : Reading} {c : Char} {cs : List Char} :
      r.step care c = .ok (.more middle) → Leads care middle cs after →
      Leads care r (c :: cs) after

theorem Leads.trans {care : Care} {r middle after : Reading} {front back : List Char}
    (first : Leads care r front middle) (second : Leads care middle back after) :
    Leads care r (front ++ back) after := by
  induction first with
  | refl => exact second
  | step here _ ih => exact .step here (ih second)

theorem push_eq (care : Care) (chars : List Char) (c : Char) :
    push care chars c = .more ⟨care.keep [c] ++ chars, .plain⟩ := by
  cases care <;> rfl

/-- The four digits of an escape, from their beginning to what they complete. -/
theorem leads_four (care : Care) (chars : List Char) (high : Option Nat) {n : Nat}
    {digits : List Char} (four : FourDigits n digits) {after : Reading}
    (completes : complete care chars high n = .ok (.more after)) :
    Leads care ⟨chars, .digits high 0 (some 0)⟩ digits after := by
  rcases four with @⟨a, b, c, d, w, x, y, z, first, second, third, fourth⟩
  replace first := hexDigit?_of_hexDigit first
  replace second := hexDigit?_of_hexDigit second
  replace third := hexDigit?_of_hexDigit third
  replace fourth := hexDigit?_of_hexDigit fourth
  have one : step care ⟨chars, .digits high 0 (some 0)⟩ w =
      .ok (.more ⟨chars, .digits high 1 (some a)⟩) := by
    simp [step, first, utf8Size_of_hexDigit? first]
  have two : step care ⟨chars, .digits high 1 (some a)⟩ x =
      .ok (.more ⟨chars, .digits high 2 (some (a * 16 + b))⟩) := by
    simp [step, second, utf8Size_of_hexDigit? second]
  have three : step care ⟨chars, .digits high 2 (some (a * 16 + b))⟩ y =
      .ok (.more ⟨chars, .digits high 3 (some ((a * 16 + b) * 16 + c))⟩) := by
    simp [step, third, utf8Size_of_hexDigit? third]
  have last : step care ⟨chars, .digits high 3 (some ((a * 16 + b) * 16 + c))⟩ z =
      .ok (.more after) := by
    simpa [step, fourth, utf8Size_of_hexDigit? fourth] using completes
  exact .step one (.step two (.step three (.step last (.refl _))))

/-- A character that is no half of a pair is complete with its four digits. -/
theorem complete_char (care : Care) (chars : List Char) (c : Char) :
    complete care chars none c.toNat = .ok (.more ⟨care.keep [c] ++ chars, .plain⟩) := by
  have valid : c.toNat < 0xD800 ∨ 0xDFFF < c.toNat ∧ c.toNat < 0x110000 := c.valid
  have notLow : isLow c.toNat = false := by simp [isLow]; omega
  have notHigh : isHigh c.toNat = false := by simp [isHigh]; omega
  cases care with
  | used => simp [complete, notLow, notHigh, push, Care.keep]
  | skipped => rfl

/-- An escape of one letter. -/
theorem leads_letter (care : Care) (chars : List Char) {letter c : Char}
    (among : (letter, c) ∈ letters) :
    Leads care ⟨chars, .plain⟩ ['\\', letter] ⟨care.keep [c] ++ chars, .plain⟩ := by
  have meanings : ∀ pair ∈ letters, pair.1 ≠ 'u' ∧ shortEscape? pair.1 = some pair.2 := by decide
  rcases meanings _ among with ⟨plain, means⟩
  have letterRead : step care ⟨chars, .escaped⟩ letter =
      .ok (.more ⟨care.keep [c] ++ chars, .plain⟩) := by
    simp only [step, if_neg plain, means, push_eq]
  exact .step rfl (.step letterRead (.refl _))

/-- An escaped pair.  Whoever skips it takes each half for a character. -/
theorem leads_pair (care : Care) (chars : List Char) {c : Char} {high low : Nat}
    {first second : List Char} (firstDigits : FourDigits high first)
    (isFirst : 0xD800 ≤ high ∧ high ≤ 0xDBFF) (secondDigits : FourDigits low second)
    (isSecond : 0xDC00 ≤ low ∧ low ≤ 0xDFFF)
    (means : c.toNat = 0x10000 + (high - 0xD800) * 0x400 + (low - 0xDC00)) :
    Leads care ⟨chars, .plain⟩ ('\\' :: 'u' :: (first ++ '\\' :: 'u' :: second))
      ⟨care.keep [c] ++ chars, .plain⟩ := by
  cases care with
  | used =>
    have notLow : isLow high = false := by simp [isLow]; omega
    have isHigh : isHigh high = true := by simp [isHigh]; omega
    have isLow' : isLow low = true := by simp [isLow]; omega
    have joined : joinPair high low = c := by rw [joinPair, ← means, Char.ofNat_toNat]
    have half : Leads .used ⟨chars, .digits none 0 (some 0)⟩ first ⟨chars, .halfPair high⟩ :=
      leads_four .used chars none firstDigits (by simp [complete, notLow, isHigh])
    have other : Leads .used ⟨chars, .digits (some high) 0 (some 0)⟩ second ⟨c :: chars, .plain⟩ :=
      leads_four .used chars (some high) secondDigits (by simp [complete, isLow', push, joined])
    exact .step rfl (.step rfl (half.trans (.step rfl (.step rfl other))))
  | skipped =>
    have half : Leads .skipped ⟨chars, .digits none 0 (some 0)⟩ first ⟨chars, .plain⟩ :=
      leads_four .skipped chars none firstDigits rfl
    have other : Leads .skipped ⟨chars, .digits none 0 (some 0)⟩ second ⟨chars, .plain⟩ :=
      leads_four .skipped chars none secondDigits rfl
    exact .step rfl (.step rfl (half.trans (.step rfl (.step rfl other))))

/-- A character is read back from every way to write it. -/
theorem leads_char (care : Care) (chars : List Char) {c : Char} {cs : List Char}
    (spelled : SpellsChar c cs) :
    Leads care ⟨chars, .plain⟩ cs ⟨care.keep [c] ++ chars, .plain⟩ := by
  cases spelled with
  | plain quote backslash control =>
    refine .step ?_ (.refl _)
    simp only [step, if_neg quote, if_neg backslash, if_neg (Nat.not_lt.mpr control), push_eq]
  | letter among => exact leads_letter care chars among
  | number four =>
    exact .step rfl (.step rfl (leads_four care chars none four (complete_char care chars c)))
  | pair firstDigits isFirst secondDigits isSecond means =>
    exact leads_pair care chars firstDigits isFirst secondDigits isSecond means

theorem leads_chars (care : Care) {text cs : List Char} (spelled : SpellsChars text cs)
    (chars : List Char) :
    Leads care ⟨chars, .plain⟩ cs ⟨care.keep text.reverse ++ chars, .plain⟩ := by
  induction spelled generalizing chars with
  | nil => cases care <;> exact .refl _
  | @cons c text front back here _ ih =>
    have first := leads_char care chars here
    have second := ih (care.keep [c] ++ chars)
    have both := first.trans second
    cases care with
    | used => simpa [Care.keep] using both
    | skipped => simpa [Care.keep] using both

end Reading

/-- The inside of a string is read as a text, whatever is kept of it. -/
def Reads (body text : List Char) : Prop :=
  ∀ care, Reading.begin.Leads care body ⟨care.keep text.reverse, .plain⟩

theorem reads_of_spells {text body : List Char} (spelled : SpellsChars text body) :
    Reads body text := by
  intro care
  have leads := Reading.leads_chars care spelled []
  rwa [List.append_nil] at leads

/-- Writing chooses one of the ways to write a character. -/
theorem spells_escape (c : Char) : SpellsChar c (escape c) := by
  unfold escape
  split_ifs with quote backslash backspace formFeed newline carriage tab control
  · subst quote
    exact .letter (by decide)
  · subst backslash
    exact .letter (by decide)
  · subst backspace
    exact .letter (by decide)
  · subst formFeed
    exact .letter (by decide)
  · subst newline
    exact .letter (by decide)
  · subst carriage
    exact .letter (by decide)
  · subst tab
    exact .letter (by decide)
  · have zero : HexDigit 0 '0' := ⟨by decide, .inl rfl⟩
    have sum : ((0 * 16 + 0) * 16 + c.toNat / 16) * 16 + c.toNat % 16 = c.toNat := by omega
    have four := FourDigits.mk zero zero (c := c.toNat / 16) (d := c.toNat % 16)
      ⟨by omega, .inl rfl⟩ ⟨by omega, .inl rfl⟩
    rw [sum] at four
    exact .number four
  · exact .plain quote backslash (Nat.not_lt.mp control)

theorem reads_escaped (text : List Char) : Reads (text.flatMap escape) text := by
  apply reads_of_spells
  induction text with
  | nil => exact .nil
  | cons c text ih => exact .cons (spells_escape c) ih

end Quoted

/-! ## Events -/

namespace Consumer

variable {σ : Type}

/-- An event as a consumer in the given state is told it. -/
def hears (k : Consumer σ) (s : σ) : Event → Event
  | .text t => .text (String.ofList ((k.valueCare s).keep t.toList))
  | .key name => .key (String.ofList ((k.keyCare s).keep name.toList))
  | event => event

/-- Tell a consumer some events, up to the first that it refuses. -/
def follow (k : Consumer σ) (s : σ) (events : List Event) : Except Fault σ :=
  events.foldlM (fun s event => k.accept s (k.hears s event)) s

@[simp] theorem follow_nil (k : Consumer σ) (s : σ) : k.follow s [] = .ok s := rfl

theorem follow_cons (k : Consumer σ) (s : σ) (event : Event) (events : List Event) :
    k.follow s (event :: events) =
      match k.accept s (k.hears s event) with
      | .ok middle => k.follow middle events
      | .error fault => .error fault := by
  simp only [follow, List.foldlM_cons]
  cases k.accept s (k.hears s event) <;> rfl

theorem follow_append (k : Consumer σ) (s : σ) (front back : List Event) :
    k.follow s (front ++ back) =
      match k.follow s front with
      | .ok middle => k.follow middle back
      | .error fault => .error fault := by
  simp only [follow, List.foldlM_append]
  cases front.foldlM (fun s event => k.accept s (k.hears s event)) s <;> rfl

end Consumer

namespace Document

mutual

/-- What is to be told about a document. -/
def events : Document → List Event
  | .null => [.null]
  | .text s => [.text s]
  | .array [] => [.openArray, .closeArray]
  | .array (first :: rest) => .openArray :: first.events ++ eventsOfItems rest ++ [.closeArray]
  | .object [] => [.openObject, .closeObject]
  | .object ((key, value) :: rest) =>
    .openObject :: .key key :: value.events ++ eventsOfMembers rest ++ [.closeObject]

/-- The events of the elements after the first. -/
def eventsOfItems : List Document → List Event
  | [] => []
  | item :: rest => .element :: item.events ++ eventsOfItems rest

/-- The events of the members after the first. -/
def eventsOfMembers : List (String × Document) → List Event
  | [] => []
  | (key, value) :: rest => .key key :: value.events ++ eventsOfMembers rest

end

end Document

/-! ## Parts of a text and their events -/

/-- Is this phase between two parts of a text? -/
def Phase.between : Phase → Bool
  | .value | .firstElement | .firstKey | .nextKey | .colon | .afterValue => true
  | .quotedValue .. | .quotedKey .. | .word .. | .numeral .. => false

namespace Reader

variable {σ : Type} {k : Consumer σ} {p q v : Phase} {a b c : List Bracket}

/-- From one phase and stack of brackets to another, a part of a text tells some
events and nothing else, whatever the consumer makes of them. -/
def Tells (k : Consumer σ) (p : Phase) (a : List Bracket) (text : List Char)
    (events : List Event) (q : Phase) (b : List Bracket) : Prop :=
  ∀ s, (⟨p, a, s⟩ : Reader σ).feed k text = (k.follow s events).map fun s => ⟨q, b, s⟩

theorem Tells.refl (k : Consumer σ) (p : Phase) (a : List Bracket) : Tells k p a [] [] p a :=
  fun _ => rfl

theorem Tells.trans {front back : List Char} {before after : List Event}
    (first : Tells k p a front before q b) (second : Tells k q b back after v c) :
    Tells k p a (front ++ back) (before ++ after) v c := by
  intro s
  rw [feed_append, first s, Consumer.follow_append]
  cases k.follow s before with
  | error fault => rfl
  | ok middle => exact second middle

theorem report_eq (k : Consumer σ) (m : Reader σ) (event : Event) (q : Phase) (b : List Bracket) :
    m.report k event q b = (k.accept m.state event).map fun s => ⟨q, b, s⟩ := by
  unfold report
  cases k.accept m.state event <;> rfl

theorem feed_cons (k : Consumer σ) (m : Reader σ) (c : Char) (cs : List Char) :
    m.feed k (c :: cs) =
      match m.step k c with
      | .ok middle => middle.feed k cs
      | .error fault => .error fault := by
  simp only [feed, List.foldlM_cons]
  cases m.step k c <;> rfl

/-- A character that changes the phase and tells nothing. -/
theorem tells_nothing {x : Char}
    (step : ∀ s, (⟨p, a, s⟩ : Reader σ).step k x = .ok ⟨q, b, s⟩) : Tells k p a [x] [] q b := by
  intro s
  rw [feed_cons, step]
  rfl

/-- A character that completes an event. -/
theorem tells_event {x : Char} {event : Event}
    (step : ∀ s, (⟨p, a, s⟩ : Reader σ).step k x =
      (⟨p, a, s⟩ : Reader σ).report k (k.hears s event) q b) : Tells k p a [x] [event] q b := by
  intro s
  rw [feed_cons, step, report_eq, Consumer.follow_cons]
  cases k.accept s (k.hears s event) <;> rfl

/-- Blanks are skipped wherever a part of a text has ended and the next has not
begun. -/
theorem step_blank (between : p.between = true) {x : Char} (blank : isBlank x = true) (s : σ) :
    (⟨p, a, s⟩ : Reader σ).step k x = .ok ⟨p, a, s⟩ := by
  cases p with
  | value => simp only [step, beginValue, blank, if_true]
  | firstElement =>
    have noBracket : x ≠ ']' := by
      intro same
      subst same
      cases blank
    simp only [step, if_neg noBracket, beginValue, blank, if_true]
  | firstKey =>
    have noBracket : x ≠ '\x7d' := by
      intro same
      subst same
      cases blank
    simp only [step, if_neg noBracket, beginKey, blank, if_true]
  | nextKey => simp only [step, beginKey, blank, if_true]
  | colon => simp only [step, blank, if_true]
  | afterValue => simp only [step, afterValue, blank, if_true]
  | _ => cases between

theorem tells_blank (between : p.between = true) {cs : List Char} (blank : Blank cs) :
    Tells k p a cs [] p a := by
  induction cs with
  | nil => exact Tells.refl k p a
  | cons c cs ih =>
    have here : isBlank c = true := by simpa [isBlank] using blank c List.mem_cons_self
    have first : Tells k p a [c] [] p a := tells_nothing fun s => step_blank between here s
    exact first.trans (ih fun d among => blank d (List.mem_cons_of_mem c among))

theorem tells_newline (between : p.between = true) (depth : Nat) :
    Tells k p a (Document.newline depth) [] p a := by
  apply tells_blank between
  simp [Blank, Document.newline]

/-- A whole string in quotes, from a phase that it may stand in.  `wrap` is the
phase inside it and `event` what is told at its end. -/
theorem tells_quoted (care : σ → Care) (wrap : Care → Quoted.Reading → Phase)
    (event : String → Event)
    (heard : ∀ s text, k.hears s (event text) =
      event (String.ofList ((care s).keep text.toList)))
    (opens : ∀ s, (⟨p, a, s⟩ : Reader σ).step k '"' = .ok ⟨wrap (care s) .begin, a, s⟩)
    (goesOn : ∀ s r middle x, r.step (care s) x = .ok (.more middle) →
      (⟨wrap (care s) r, a, s⟩ : Reader σ).step k x = .ok ⟨wrap (care s) middle, a, s⟩)
    (closes : ∀ s r text, r.step (care s) '"' = .ok (.closed text) →
      (⟨wrap (care s) r, a, s⟩ : Reader σ).step k '"' =
        (⟨wrap (care s) r, a, s⟩ : Reader σ).report k (event text) q b)
    {body : List Char} {text : String} (reads : Quoted.Reads body text.toList) :
    Tells k p a ('"' :: (body ++ ['"'])) [event text] q b := by
  intro s
  -- The reader goes through the string exactly as the string's own reading does.
  have inside {r after : Quoted.Reading} {cs : List Char} (leads : r.Leads (care s) cs after) :
      (⟨wrap (care s) r, a, s⟩ : Reader σ).feed k cs = .ok ⟨wrap (care s) after, a, s⟩ := by
    induction leads with
    | refl => rfl
    | step here _ ih =>
      rw [feed_cons, goesOn _ _ _ _ here]
      exact ih
  have ended : (⟨(care s).keep text.toList.reverse, .plain⟩ : Quoted.Reading).step
      (care s) '"' = .ok (.closed (String.ofList ((care s).keep text.toList))) := by
    cases care s <;> simp [Quoted.Reading.step, Care.keep]
  rw [feed_cons, opens]
  simp only [feed_append]
  rw [inside (reads (care s))]
  simp only [feed_cons, feed_nil, Consumer.follow_cons, heard]
  rw [closes _ _ _ ended, report_eq]
  cases k.accept s (event (String.ofList ((care s).keep text.toList))) <;> rfl

theorem tells_text (k : Consumer σ) (a : List Bracket) {body : List Char} {text : String}
    (reads : Quoted.Reads body text.toList) :
    Tells k .value a ('"' :: (body ++ ['"'])) [.text text] .afterValue a := by
  apply tells_quoted k.valueCare .quotedValue .text _ _ _ _ reads
  · intro s text
    rfl
  · intro s
    rfl
  · intro s r middle x goesOn
    simp only [step, goesOn]
  · intro s r text closed
    simp only [step, closed]

/-- A key, in a phase that treats a quote as the beginning of one. -/
theorem tells_key (begins : ∀ s, (⟨p, a, s⟩ : Reader σ).step k '"' =
      .ok ⟨.quotedKey (k.keyCare s) .begin, a, s⟩) {body : List Char} {name : String}
    (reads : Quoted.Reads body name.toList) :
    Tells k p a ('"' :: (body ++ ['"'])) [.key name] .colon a := by
  apply tells_quoted k.keyCare .quotedKey .key _ _ _ _ reads
  · intro s text
    rfl
  · exact begins
  · intro s r middle x goesOn
    simp only [step, goesOn]
  · intro s r text closed
    simp only [step, closed]

theorem tells_colon (k : Consumer σ) (a : List Bracket) : Tells k .colon a [':', ' '] [] .value a :=
  (tells_nothing fun _ => rfl).trans (tells_nothing fun _ => rfl)

/-- The rest of a word, up to its last character. -/
theorem tells_word {event : Event} (heard : ∀ s, k.hears s event = event) (expected : List Char)
    (last : Char) :
    Tells k (.word event expected last) a (expected ++ [last]) [event] .afterValue a := by
  induction expected with
  | nil =>
    apply tells_event
    intro s
    rw [heard]
    simp only [step, if_true]
  | cons e expected ih =>
    have next : Tells k (.word event (e :: expected) last) a [e] [] (.word event expected last) a :=
      tells_nothing fun _ => by simp only [step, if_true]
    exact next.trans ih

theorem tells_null (k : Consumer σ) (a : List Bracket) :
    Tells k .value a ['n', 'u', 'l', 'l'] [.null] .afterValue a := by
  have letter : Tells k .value a ['n'] [] (.word .null ['u', 'l'] 'l') a :=
    tells_nothing fun _ => rfl
  exact letter.trans (tells_word (fun _ => rfl) ['u', 'l'] 'l')

/-! ## Documents -/

/-- A document begins with a character that only a value begins with. -/
theorem exists_write_eq_cons (depth : Nat) (d : Document) :
    ∃ x cs, d.write depth = x :: cs ∧ x ≠ ']' ∧ isBlank x = false := by
  rcases d with _ | s | ⟨_ | ⟨first, rest⟩⟩ | ⟨_ | ⟨⟨key, value⟩, rest⟩⟩
  all_goals
    unfold Document.write
    exact ⟨_, _, rfl, by decide, by decide⟩

/-- The first element of an array is read like any other value. -/
theorem feed_firstElement {x : Char} (noBracket : x ≠ ']') (noBlank : isBlank x = false)
    (cs : List Char) (s : σ) :
    (⟨.firstElement, a, s⟩ : Reader σ).feed k (x :: cs) =
      (⟨.value, a, s⟩ : Reader σ).feed k (x :: cs) := by
  have same : (⟨.firstElement, a, s⟩ : Reader σ).step k x = (⟨.value, a, s⟩ : Reader σ).step k x := by
    simp only [step, if_neg noBracket, beginValue, noBlank, Bool.false_eq_true, if_false]
    rfl
  rw [feed_cons, feed_cons, same]

theorem Tells.firstElement {events : List Event} {depth : Nat} {d : Document}
    (told : Tells k .value a (d.write depth) events q b) :
    Tells k .firstElement a (d.write depth) events q b := by
  intro s
  rcases exists_write_eq_cons depth d with ⟨x, cs, written, noBracket, noBlank⟩
  rw [← told s, written, feed_firstElement noBracket noBlank]

mutual

/-- The text of a document tells the document's events. -/
theorem tells_write (k : Consumer σ) (a : List Bracket) (depth : Nat) :
    (d : Document) → Tells k .value a (d.write depth) d.events .afterValue a
  | .null => by
    rw [Document.write, Document.events]
    exact tells_null k a
  | .text s => by
    rw [Document.write, Document.events]
    exact tells_text k a (Quoted.reads_escaped s.toList)
  | .array [] => by
    have opened : Tells k .value a ['['] [.openArray] .firstElement (.square :: a) :=
      tells_event fun _ => rfl
    have closed : Tells k .firstElement (.square :: a) [']'] [.closeArray] .afterValue a :=
      tells_event fun _ => rfl
    rw [Document.write, Document.events]
    exact opened.trans closed
  | .array (first :: rest) => by
    have opened : Tells k .value a ['['] [.openArray] .firstElement (.square :: a) :=
      tells_event fun _ => rfl
    have lineBreak : Tells k .firstElement (.square :: a) (Document.newline (depth + 1)) []
        .firstElement (.square :: a) := tells_newline rfl (depth + 1)
    have element := (tells_write k (.square :: a) (depth + 1) first).firstElement
    have others := tells_writeItems k a (depth + 1) rest
    have closed : Tells k .afterValue (.square :: a) [']'] [.closeArray] .afterValue a :=
      tells_event fun _ => rfl
    rw [Document.write, Document.events]
    have whole := ((opened.trans lineBreak).trans element).trans
      (others.trans ((tells_newline rfl depth).trans closed))
    simpa using whole
  | .object [] => by
    have opened : Tells k .value a ['\x7b'] [.openObject] .firstKey (.curly :: a) :=
      tells_event fun _ => rfl
    have closed : Tells k .firstKey (.curly :: a) ['\x7d'] [.closeObject] .afterValue a :=
      tells_event fun _ => rfl
    rw [Document.write, Document.events]
    exact opened.trans closed
  | .object ((key, value) :: rest) => by
    have opened : Tells k .value a ['\x7b'] [.openObject] .firstKey (.curly :: a) :=
      tells_event fun _ => rfl
    have lineBreak : Tells k .firstKey (.curly :: a) (Document.newline (depth + 1)) []
        .firstKey (.curly :: a) := tells_newline rfl (depth + 1)
    have name : Tells k .firstKey (.curly :: a) (Quoted.write key.toList) [.key key] .colon
        (.curly :: a) := tells_key (fun _ => rfl) (Quoted.reads_escaped key.toList)
    have member := tells_write k (.curly :: a) (depth + 1) value
    have others := tells_writeMembers k a (depth + 1) rest
    have closed : Tells k .afterValue (.curly :: a) ['\x7d'] [.closeObject] .afterValue a :=
      tells_event fun _ => rfl
    rw [Document.write, Document.events]
    have whole := ((opened.trans lineBreak).trans (name.trans (tells_colon k _))).trans
      (member.trans (others.trans ((tells_newline rfl depth).trans closed)))
    simpa using whole

theorem tells_writeItems (k : Consumer σ) (a : List Bracket) (depth : Nat) :
    (items : List Document) →
      Tells k .afterValue (.square :: a) (Document.writeItems depth items)
        (Document.eventsOfItems items) .afterValue (.square :: a)
  | [] => by
    rw [Document.writeItems, Document.eventsOfItems]
    exact Tells.refl k _ _
  | item :: rest => by
    have comma : Tells k .afterValue (.square :: a) [','] [.element] .value (.square :: a) :=
      tells_event fun _ => rfl
    have element := tells_write k (.square :: a) depth item
    have others := tells_writeItems k a depth rest
    rw [Document.writeItems, Document.eventsOfItems]
    have whole := (comma.trans (tells_newline rfl depth)).trans (element.trans others)
    simpa using whole

theorem tells_writeMembers (k : Consumer σ) (a : List Bracket) (depth : Nat) :
    (members : List (String × Document)) →
      Tells k .afterValue (.curly :: a) (Document.writeMembers depth members)
        (Document.eventsOfMembers members) .afterValue (.curly :: a)
  | [] => by
    rw [Document.writeMembers, Document.eventsOfMembers]
    exact Tells.refl k _ _
  | (key, value) :: rest => by
    have comma : Tells k .afterValue (.curly :: a) [','] [] .nextKey (.curly :: a) :=
      tells_nothing fun _ => rfl
    have lineBreak : Tells k .nextKey (.curly :: a) (Document.newline depth) [] .nextKey
        (.curly :: a) := tells_newline rfl depth
    have name : Tells k .nextKey (.curly :: a) (Quoted.write key.toList) [.key key] .colon
        (.curly :: a) := tells_key (fun _ => rfl) (Quoted.reads_escaped key.toList)
    have member := tells_write k (.curly :: a) depth value
    have others := tells_writeMembers k a depth rest
    rw [Document.writeMembers, Document.eventsOfMembers]
    have whole := ((comma.trans lineBreak).trans (name.trans (tells_colon k _))).trans
      (member.trans others)
    simpa using whole

end

/-- Reading the text of a document, with a line end behind it, is telling its
events. -/
theorem read_render (k : Consumer σ) (s : σ) (d : Document) :
    read k s ((d.render ++ "\n").toList) = k.follow s d.events := by
  have line : Tells k .value [] (d.write 0 ++ ['\n']) (d.events ++ []) .afterValue [] :=
    (tells_write k [] 0 d).trans (tells_nothing fun _ => rfl)
  have text : (d.render ++ "\n").toList = d.write 0 ++ ['\n'] := by
    simp [Document.render]
  rw [read, text, begin, line s, List.append_nil]
  cases k.follow s d.events <;> rfl

end Reader

end Json
end TemplateScript

import TemplateScript.Proofs.Documents

namespace TemplateScript
namespace Json

/-!
# Reading whatever spells a value

A value has events, and reading any text that spells it tells a consumer these
events, so nothing but the value reaches the consumer: blanks, escapes and the
digits of numbers do not.

Two things keep this from being as exact as for documents that were written.  A
number has no mark of its end, so the statements name the text that follows.
And a number that would be used is held against the range of double precision,
which its consumer knows nothing of; a consumer that refuses such a number in
any case is not told the difference, except perhaps by another fault.  So what
is compared is the consumer's state, or that there is none.
-/

/-! ## Numerals -/

namespace Numeral

theorem exists_digitChar {c : Char} (digit : '0' ≤ c ∧ c ≤ '9') :
    ∃ n : Fin 10, c = Nat.digitChar n.val := by
  have low : 48 ≤ c.toNat := digit.1
  have high : c.toNat ≤ 57 := digit.2
  refine ⟨⟨c.toNat - 48, by omega⟩, ?_⟩
  change c = Nat.digitChar (c.toNat - 48)
  apply Char.toNat_inj.mp
  rw [Nat.toNat_digitChar_of_lt_ten (by omega)]
  omega

theorem exists_digit? {c : Char} (digit : '0' ≤ c ∧ c ≤ '9') : ∃ d, digit? c = some d :=
  ⟨_, if_pos digit⟩

namespace Reading

/-- Some characters lead from one reading of a number to another inside it. -/
inductive Leads : Reading → List Char → Reading → Prop where
  | refl (r : Reading) : Leads r [] r
  | step {r middle after : Reading} {c : Char} {cs : List Char} :
      r.step c = .more middle → Leads middle cs after → Leads r (c :: cs) after

theorem Leads.trans {r middle after : Reading} {front back : List Char}
    (first : Leads r front middle) (second : Leads middle back after) :
    Leads r (front ++ back) after := by
  induction first with
  | refl => exact second
  | step here _ ih => exact .step here (ih second)

/-- Digits lead to a stage and stay in it. -/
def TakesDigits (r : Reading) (stage : Stage) : Prop :=
  ∀ c d, digit? c = some d → ∃ after, r.step c = .more after ∧ after.stage = stage

theorem takesDigits_whole {r : Reading} (here : r.stage = .whole) : r.TakesDigits .whole := by
  intro c d digit
  refine ⟨r.addWhole d, by simp only [step, here, digit], ?_⟩
  unfold addWhole
  split_ifs <;> rfl

theorem takesDigits_fraction {r : Reading} (here : r.stage = .point ∨ r.stage = .fraction) :
    r.TakesDigits .fraction := by
  intro c d digit
  refine ⟨r.addFraction d, by rcases here with here | here <;> simp only [step, here, digit], ?_⟩
  unfold addFraction
  split_ifs <;> rfl

theorem takesDigits_exponent {r : Reading}
    (here : r.stage = .mark ∨ r.stage = .markSign ∨ r.stage = .exponent) :
    r.TakesDigits .exponent := by
  intro c d digit
  refine ⟨r.addExponent d, ?_, rfl⟩
  rcases here with here | here | here <;> simp only [step, here, digit]

theorem exists_leads_digits {stage : Stage}
    (stays : ∀ r : Reading, r.stage = stage → r.TakesDigits stage) {r : Reading}
    (here : r.stage = stage) {digits : List Char} (areDigits : ∀ c ∈ digits, '0' ≤ c ∧ c ≤ '9') :
    ∃ after, r.Leads digits after ∧ after.stage = stage := by
  induction digits generalizing r with
  | nil => exact ⟨r, .refl r, here⟩
  | cons c digits ih =>
    rcases exists_digit? (areDigits c List.mem_cons_self) with ⟨d, digit⟩
    rcases stays r here c d digit with ⟨middle, taken, reached⟩
    rcases ih reached (fun x among => areDigits x (List.mem_cons_of_mem c among)) with
      ⟨after, leads, last⟩
    exact ⟨after, .step taken leads, last⟩

/-- Where digits are called for, the first leads to the stage of the others. -/
theorem exists_leads_of_digits {stage : Stage}
    (stays : ∀ r : Reading, r.stage = stage → r.TakesDigits stage) {r : Reading}
    (enters : r.TakesDigits stage) {digits : List Char} (areDigits : Digits digits) :
    ∃ after, r.Leads digits after ∧ after.stage = stage := by
  rcases areDigits with ⟨nonempty, all⟩
  cases digits with
  | nil => exact absurd rfl nonempty
  | cons c digits =>
    rcases exists_digit? (all c List.mem_cons_self) with ⟨d, digit⟩
    rcases enters c d digit with ⟨middle, taken, reached⟩
    rcases exists_leads_digits stays reached fun x among => all x (List.mem_cons_of_mem c among) with
      ⟨after, leads, last⟩
    exact ⟨after, .step taken leads, last⟩

/-- The whole part behind its first digit.  Behind a zero there is none. -/
theorem exists_leads_whole {c : Char} {digits : List Char} {d : Nat} (digit : digit? c = some d)
    (areDigits : Digits (c :: digits))
    (leadingZero : (c :: digits).head? = some '0' → c :: digits = ['0']) :
    ∃ after, (first d).Leads digits after ∧ (after.stage = .zero ∨ after.stage = .whole) := by
  have range := areDigits.2 c List.mem_cons_self
  have value : c.toNat - 48 = d := by
    rw [digit?, if_pos range] at digit
    exact Option.some.inj digit
  by_cases zero : d = 0
  · have same : c = '0' := by
      have low : 48 ≤ c.toNat := range.1
      apply Char.toNat_inj.mp
      change c.toNat = 48
      omega
    have alone : digits = [] := by
      have whole := leadingZero (by rw [same]; rfl)
      exact (List.cons.inj whole).2
    subst alone
    refine ⟨_, .refl _, .inl ?_⟩
    rw [first, if_pos zero]
  · have stage : (first d).stage = .whole := by rw [first, if_neg zero]
    rcases exists_leads_digits (fun r => takesDigits_whole) stage
        (fun x among => areDigits.2 x (List.mem_cons_of_mem c among)) with ⟨after, leads, last⟩
    exact ⟨after, leads, .inr last⟩

theorem exists_leads_fraction {r : Reading} (whole : r.stage = .zero ∨ r.stage = .whole)
    {fraction : Option (List Char)} (areDigits : ∀ digits ∈ fraction, Digits digits) :
    ∃ after, r.Leads (fraction.elim [] ('.' :: ·)) after ∧
      (after.stage = .zero ∨ after.stage = .whole ∨ after.stage = .fraction) := by
  cases fraction with
  | none => exact ⟨r, .refl r, whole.imp_right .inl⟩
  | some digits =>
    have point : r.step '.' = .more { r with stage := .point, full := false } := by
      rcases whole with whole | whole <;> simp [step, whole, digit?, afterPart]
    rcases exists_leads_of_digits (fun r here => takesDigits_fraction (.inr here))
        (takesDigits_fraction (r := { r with stage := .point, full := false }) (.inl rfl))
        (areDigits digits rfl) with
      ⟨after, leads, last⟩
    exact ⟨after, .step point leads, .inr (.inr last)⟩

theorem exists_leads_exponent {r : Reading}
    (here : r.stage = .zero ∨ r.stage = .whole ∨ r.stage = .fraction) (exponent : Option Exponent) :
    ∃ after, r.Leads (exponent.elim [] Exponent.text) after ∧ after.complete = true := by
  cases exponent with
  | none =>
    refine ⟨r, .refl r, ?_⟩
    rcases here with here | here | here <;> simp [complete, here]
  | some e =>
    have mark : r.step e.mark = .more { r with stage := .mark } := by
      rcases e.isMark with same | same <;> rcases here with here | here | here <;>
        simp [step, here, same, digit?, afterPart]
    -- A sign only moves on to a stage that takes the same digits.
    have sign : ∃ signed : Reading, Leads { r with stage := .mark } e.sign signed ∧
        signed.TakesDigits .exponent := by
      rcases e.isSign with same | same | same
      · rw [same]
        exact ⟨_, .refl _, takesDigits_exponent (.inl rfl)⟩
      · rw [same]
        exact ⟨_, .step rfl (.refl _), takesDigits_exponent (.inr (.inl rfl))⟩
      · rw [same]
        exact ⟨_, .step rfl (.refl _), takesDigits_exponent (.inr (.inl rfl))⟩
    rcases sign with ⟨signed, signLeads, takes⟩
    rcases exists_leads_of_digits (fun r here => takesDigits_exponent (.inr (.inr here))) takes
        e.areDigits with ⟨after, leads, last⟩
    exact ⟨after, .step mark (signLeads.trans leads), by simp [complete, last]⟩

/-- A numeral behind its sign. -/
theorem exists_leads_unsigned (n : Number) :
    ∃ c cs d after, n.whole ++ (n.fraction.elim [] ('.' :: ·) ++
        n.exponent.elim [] Exponent.text) = c :: cs ∧ ('0' ≤ c ∧ c ≤ '9') ∧
      digit? c = some d ∧ (first d).Leads cs after ∧ after.complete = true := by
  rcases n with ⟨negative, whole, fraction, exponent, wholeDigits, leadingZero, fractionDigits⟩
  cases whole with
  | nil => exact absurd rfl wholeDigits.1
  | cons c digits =>
    have range := wholeDigits.2 c List.mem_cons_self
    rcases exists_digit? range with ⟨d, digit⟩
    rcases exists_leads_whole digit wholeDigits leadingZero with ⟨whole, wholeLeads, wholeStage⟩
    rcases exists_leads_fraction wholeStage fractionDigits with ⟨part, partLeads, partStage⟩
    rcases exists_leads_exponent partStage exponent with ⟨after, leads, complete⟩
    exact ⟨c, _, d, after, rfl, range, digit, wholeLeads.trans (partLeads.trans leads), complete⟩

end Reading

end Numeral

/-- Characters that a value may be followed by. -/
def Delimits (c : Char) : Prop := c ∈ [' ', '\t', '\n', '\r', ',', ']', '\x7d']

instance (c : Char) : Decidable (Delimits c) := inferInstanceAs (Decidable (c ∈ _))

/-- A complete number ends at a character that may follow a value. -/
theorem Numeral.Reading.step_of_delimits {r : Numeral.Reading} (complete : r.complete = true)
    {c : Char} (delimits : Delimits c) : r.step c = .ended := by
  have plain : digit? c = none ∧ c ≠ '.' ∧ c ≠ 'e' ∧ c ≠ 'E' := by
    simp only [Delimits, List.mem_cons, List.not_mem_nil, or_false] at delimits
    rcases delimits with rfl | rfl | rfl | rfl | rfl | rfl | rfl <;> decide
  rcases plain with ⟨noDigit, noPoint, noMark, noOtherMark⟩
  cases stage : r.stage with
  | zero | whole | fraction =>
    simp [step, stage, noDigit, afterPart, noPoint, noMark, noOtherMark]
  | exponent => simp only [step, stage, noDigit]
  | sign | point | mark | markSign => simp [Numeral.Reading.complete, stage] at complete

/-! ## Events of a value -/

namespace Value

mutual

/-- What is to be told about a value. -/
def events : Value → List Event
  | .null => [.null]
  | .boolean b => [.boolean b]
  | .number _ => [.number]
  | .text s => [.text s]
  | .array items => .openArray :: (eventsOfElements items ++ [.closeArray])
  | .object members => .openObject :: (eventsOfMembers members ++ [.closeObject])

/-- The events of the elements of an array. -/
def eventsOfElements : List Value → List Event
  | [] => []
  | item :: rest => item.events ++ eventsOfItems rest

/-- The events of the elements behind a first one. -/
def eventsOfItems : List Value → List Event
  | [] => []
  | item :: rest => .element :: (item.events ++ eventsOfItems rest)

/-- The events of the members of an object. -/
def eventsOfMembers : List (String × Value) → List Event
  | [] => []
  | (key, value) :: rest => .key key :: (value.events ++ eventsOfMembers rest)

end

end Value

theorem SpellsElements.eventsOfItems_eq {items : List Value} {cs : List Char}
    (spelled : SpellsElements items cs) :
    Value.eventsOfItems items = .element :: Value.eventsOfElements items := by
  cases spelled with
  | one _ => rw [Value.eventsOfItems, Value.eventsOfElements]
  | more _ _ => rw [Value.eventsOfItems, Value.eventsOfElements]

/-! ## Parts of a text and what follows them -/

/-- Whatever number it would use, the consumer refuses it. -/
def Consumer.RefusesNumbers {σ : Type} (k : Consumer σ) : Prop :=
  ∀ s, k.valueCare s = .used → ∃ fault, k.accept s .number = .error fault

theorem Consumer.follow_singleton {σ : Type} (k : Consumer σ) (s : σ) (event : Event) :
    k.follow s [event] = k.accept s (k.hears s event) := by
  rw [follow_cons]
  cases k.accept s (k.hears s event) <;> rfl

namespace Reader

variable {σ : Type} {k : Consumer σ} {p q v : Phase} {a b c : List Bracket}

/-- A part of a text, with `rest` behind it, comes to the same as telling some
events and reading `rest` then. -/
def Conveys (k : Consumer σ) (p : Phase) (a : List Bracket) (text : List Char)
    (events : List Event) (q : Phase) (b : List Bracket) (rest : List Char) : Prop :=
  ∀ s, ((⟨p, a, s⟩ : Reader σ).feed k (text ++ rest)).toOption =
    (k.follow s events).toOption.bind fun s => ((⟨q, b, s⟩ : Reader σ).feed k rest).toOption

theorem Tells.conveys {text : List Char} {events : List Event}
    (told : Tells k p a text events q b) (rest : List Char) :
    Conveys k p a text events q b rest := by
  intro s
  rw [feed_append, told s]
  cases k.follow s events <;> rfl

theorem Conveys.trans {front back rest : List Char} {before after : List Event}
    (first : Conveys k p a front before q b (back ++ rest))
    (second : Conveys k q b back after v c rest) :
    Conveys k p a (front ++ back) (before ++ after) v c rest := by
  intro s
  rw [List.append_assoc, first s, Consumer.follow_append]
  cases k.follow s before with
  | error fault => rfl
  | ok middle => exact second middle

/-- A number that is complete, up to a character that ends it. -/
theorem feed_numeral (refuses : k.RefusesNumbers) {r : Numeral.Reading}
    (complete : r.complete = true) {x : Char} (delimits : Delimits x) (rest : List Char) (s : σ) :
    ((⟨.numeral (k.valueCare s) r, a, s⟩ : Reader σ).feed k (x :: rest)).toOption =
      (k.accept s .number).toOption.bind fun s =>
        ((⟨.afterValue, a, s⟩ : Reader σ).feed k (x :: rest)).toOption := by
  have ended := Numeral.Reading.step_of_delimits complete delimits
  rw [feed_cons]
  simp only [step, ended, endNumeral]
  by_cases outOfRange : k.valueCare s = .used ∧ r.inRange = false
  · rcases refuses s outOfRange.1 with ⟨fault, refused⟩
    rw [if_pos outOfRange, refused]
    rfl
  · rw [if_neg outOfRange, report_eq]
    cases k.accept s .number with
    | error fault => rfl
    | ok after =>
      change _ = ((⟨.afterValue, a, after⟩ : Reader σ).feed k (x :: rest)).toOption
      rw [feed_cons]
      rfl

theorem feed_leads {care : Care} {r after : Numeral.Reading} {cs : List Char}
    (leads : r.Leads cs after) (rest : List Char) (s : σ) :
    (⟨.numeral care r, a, s⟩ : Reader σ).feed k (cs ++ rest) =
      (⟨.numeral care after, a, s⟩ : Reader σ).feed k rest := by
  induction leads with
  | refl => rfl
  | step here _ ih =>
    rw [List.cons_append, feed_cons]
    simp only [step, here]
    exact ih

/-- A digit begins a number. -/
theorem step_digit {x : Char} {d : Nat} (range : '0' ≤ x ∧ x ≤ '9')
    (digit : Numeral.digit? x = some d) (s : σ) :
    (⟨.value, a, s⟩ : Reader σ).step k x =
      .ok ⟨.numeral (k.valueCare s) (.first d), a, s⟩ := by
  have plain : ∀ n : Fin 10, isBlank (Nat.digitChar n.val) = false ∧
      Nat.digitChar n.val ∉ ['"', '[', '\x7b', 'n', 't', 'f', '-'] := by decide
  rcases Numeral.exists_digitChar range with ⟨n, same⟩
  rcases plain n with ⟨noBlank, others⟩
  rw [← same] at noBlank others
  simp only [List.mem_cons, not_or] at others
  rcases others with ⟨quote, square, curly, n, t, f, minus, -⟩
  simp only [step, beginValue, noBlank, Bool.false_eq_true, if_false, if_neg quote, if_neg square,
    if_neg curly, if_neg n, if_neg t, if_neg f, if_neg minus, digit]

theorem conveys_number (refuses : k.RefusesNumbers) (n : Number) {x : Char}
    (delimits : Delimits x) (rest : List Char) :
    Conveys k .value a n.text [.number] .afterValue a (x :: rest) := by
  intro s
  rcases Numeral.Reading.exists_leads_unsigned n with
    ⟨digit, cs, d, after, unsigned, range, value, leads, complete⟩
  have ends := feed_numeral (a := a) refuses complete delimits rest s
  rw [← feed_leads leads] at ends
  rw [Consumer.follow_singleton, Number.text, unsigned]
  refine Eq.trans ?_ ends
  cases n.negative with
  | false =>
    change ((⟨.value, a, s⟩ : Reader σ).feed k (digit :: (cs ++ x :: rest))).toOption = _
    rw [feed_cons, step_digit range value]
  | true =>
    change ((⟨.value, a, s⟩ : Reader σ).feed k ('-' :: digit :: (cs ++ x :: rest))).toOption = _
    have minus : (⟨.value, a, s⟩ : Reader σ).step k '-' =
        .ok ⟨.numeral (k.valueCare s) ⟨.sign, 0, 0, false, false, 0⟩, a, s⟩ := rfl
    rw [feed_cons, minus]
    simp only
    rw [feed_cons]
    simp only [step, Numeral.Reading.step, value]

/-! ## Values -/

/-- Something follows that may follow a value. -/
def Delimited (rest : List Char) : Prop := ∃ x more, rest = x :: more ∧ Delimits x

theorem Delimits.delimited {x : Char} (delimits : Delimits x) (rest : List Char) :
    Delimited (x :: rest) :=
  ⟨x, rest, rfl, delimits⟩

theorem delimited_blank_append {blank rest : List Char} (areBlank : Blank blank)
    (delimited : Delimited rest) : Delimited (blank ++ rest) := by
  cases blank with
  | nil => exact delimited
  | cons x blank =>
    refine ⟨x, blank ++ rest, rfl, ?_⟩
    rcases areBlank x List.mem_cons_self with rfl | rfl | rfl | rfl <;> simp [Delimits]

/-- A value begins with a character that only a value begins with. -/
theorem exists_cons_of_spells {v : Value} {cs : List Char} (spelled : SpellsValue v cs) :
    ∃ x more, cs = x :: more ∧ x ≠ ']' ∧ isBlank x = false := by
  cases spelled with
  | number n =>
    rcases Numeral.Reading.exists_leads_unsigned n with ⟨digit, cs, -, -, unsigned, range, -⟩
    rw [Number.text, unsigned]
    cases n.negative with
    | false =>
      have plain : ∀ n : Fin 10, Nat.digitChar n.val ≠ ']' ∧
          isBlank (Nat.digitChar n.val) = false := by decide
      rcases Numeral.exists_digitChar range with ⟨n, rfl⟩
      exact ⟨_, cs, rfl, plain n⟩
    | true => exact ⟨'-', digit :: cs, rfl, by decide, by decide⟩
  | text spelledString =>
    cases spelledString
    exact ⟨_, _, rfl, by decide, by decide⟩
  | _ => exact ⟨_, _, rfl, by decide, by decide⟩

theorem Conveys.firstElement {w : Value} {cs rest : List Char} {events : List Event}
    (spelled : SpellsValue w cs) (conveys : Conveys k .value a cs events q b rest) :
    Conveys k .firstElement a cs events q b rest := by
  intro s
  rcases exists_cons_of_spells spelled with ⟨x, more, rfl, noBracket, noBlank⟩
  rw [← conveys s]
  exact congrArg Except.toOption (feed_firstElement noBracket noBlank (more ++ rest) s)

theorem Conveys.array {inner rest : List Char} {events : List Event}
    (inside : Conveys k .firstElement (.square :: a) inner events .afterValue (.square :: a)
      (']' :: rest)) :
    Conveys k .value a ('[' :: (inner ++ [']'])) (.openArray :: (events ++ [.closeArray]))
      .afterValue a rest := by
  have opened : Tells k .value a ['['] [.openArray] .firstElement (.square :: a) :=
    tells_event fun _ => rfl
  have closed : Tells k .afterValue (.square :: a) [']'] [.closeArray] .afterValue a :=
    tells_event fun _ => rfl
  exact (opened.conveys _).trans (inside.trans (closed.conveys rest))

theorem Conveys.object {inner rest : List Char} {events : List Event}
    (inside : Conveys k .firstKey (.curly :: a) inner events .afterValue (.curly :: a)
      ('\x7d' :: rest)) :
    Conveys k .value a ('\x7b' :: (inner ++ ['\x7d'])) (.openObject :: (events ++ [.closeObject]))
      .afterValue a rest := by
  have opened : Tells k .value a ['\x7b'] [.openObject] .firstKey (.curly :: a) :=
    tells_event fun _ => rfl
  have closed : Tells k .afterValue (.curly :: a) ['\x7d'] [.closeObject] .afterValue a :=
    tells_event fun _ => rfl
  exact (opened.conveys _).trans (inside.trans (closed.conveys rest))

theorem tells_emptyArray {blank : List Char} (areBlank : Blank blank) :
    Tells k .value a ('[' :: (blank ++ [']'])) [.openArray, .closeArray] .afterValue a := by
  have opened : Tells k .value a ['['] [.openArray] .firstElement (.square :: a) :=
    tells_event fun _ => rfl
  have closed : Tells k .firstElement (.square :: a) [']'] [.closeArray] .afterValue a :=
    tells_event fun _ => rfl
  exact opened.trans ((tells_blank rfl areBlank).trans closed)

theorem tells_emptyObject {blank : List Char} (areBlank : Blank blank) :
    Tells k .value a ('\x7b' :: (blank ++ ['\x7d'])) [.openObject, .closeObject] .afterValue a := by
  have opened : Tells k .value a ['\x7b'] [.openObject] .firstKey (.curly :: a) :=
    tells_event fun _ => rfl
  have closed : Tells k .firstKey (.curly :: a) ['\x7d'] [.closeObject] .afterValue a :=
    tells_event fun _ => rfl
  exact opened.trans ((tells_blank rfl areBlank).trans closed)

/-- The name of a member, and the colon behind it. -/
theorem tells_name (expected : p = .firstKey ∨ p = .nextKey) {key : String} {name : List Char}
    (spelled : SpellsName key name) : Tells k p a (name ++ [':']) [.key key] .value a := by
  rcases spelled with ⟨blankBefore, ⟨spelledKey⟩, blankAfter⟩
  have between : p.between = true := by rcases expected with rfl | rfl <;> rfl
  have begins : ∀ s, (⟨p, a, s⟩ : Reader σ).step k '"' =
      .ok ⟨.quotedKey (k.keyCare s) .begin, a, s⟩ := by
    rcases expected with rfl | rfl <;> exact fun _ => rfl
  have colon : Tells k .colon a [':'] [] .value a := tells_nothing fun _ => rfl
  have whole := (tells_blank between blankBefore).trans
    ((tells_key begins (Quoted.reads_of_spells spelledKey)).trans
      ((tells_blank rfl blankAfter).trans colon))
  simpa using whole

mutual

/-- Every text that spells a value conveys the value's events. -/
theorem conveys_value (refuses : k.RefusesNumbers) {w : Value} {cs : List Char} :
    SpellsValue w cs → ∀ (a : List Bracket) (rest : List Char), Delimited rest →
      Conveys k .value a cs w.events .afterValue a rest
  | .null => by
    intro a rest _
    rw [Value.events]
    exact (tells_null k a).conveys rest
  | .true => by
    intro a rest _
    have letter : Tells k .value a ['t'] [] (.word (.boolean true) ['r', 'u'] 'e') a :=
      tells_nothing fun _ => rfl
    rw [Value.events]
    exact (letter.trans (tells_word (fun _ => rfl) ['r', 'u'] 'e')).conveys rest
  | .false => by
    intro a rest _
    have letter : Tells k .value a ['f'] [] (.word (.boolean false) ['a', 'l', 's'] 'e') a :=
      tells_nothing fun _ => rfl
    rw [Value.events]
    exact (letter.trans (tells_word (fun _ => rfl) ['a', 'l', 's'] 'e')).conveys rest
  | .number n => by
    rintro a rest ⟨x, more, rfl, delimits⟩
    rw [Value.events]
    exact conveys_number refuses n delimits more
  | .text spelled => by
    intro a rest _
    rcases spelled with ⟨spelledChars⟩
    rw [Value.events]
    exact (tells_text k a (Quoted.reads_of_spells spelledChars)).conveys rest
  | .emptyArray areBlank => by
    intro a rest _
    rw [Value.events, Value.eventsOfElements]
    exact (tells_emptyArray areBlank).conveys rest
  | .array spelled => by
    intro a rest _
    rw [Value.events]
    exact (conveys_elements refuses spelled .firstElement (.inr rfl) a _
      (Delimits.delimited (by decide) rest)).array
  | .emptyObject areBlank => by
    intro a rest _
    rw [Value.events, Value.eventsOfMembers]
    exact (tells_emptyObject areBlank).conveys rest
  | .object spelled => by
    intro a rest _
    rw [Value.events]
    exact (conveys_members refuses spelled .firstKey (.inl rfl) a _
      (Delimits.delimited (by decide) rest)).object

/-- Blanks around a value convey nothing. -/
theorem conveys_element (refuses : k.RefusesNumbers) {w : Value} {cs : List Char} :
    SpellsElement w cs → ∀ (p : Phase), p = .value ∨ p = .firstElement →
      ∀ (a : List Bracket) (rest : List Char), Delimited rest →
      Conveys k p a cs w.events .afterValue a rest
  | @SpellsElement.mk _ before cs after blankBefore spelled blankAfter => by
    intro p expected a rest delimited
    have value := conveys_value refuses spelled a _ (delimited_blank_append blankAfter delimited)
    have between : p.between = true := by rcases expected with rfl | rfl <;> rfl
    have inPlace : Conveys k p a cs w.events .afterValue a (after ++ rest) := by
      rcases expected with rfl | rfl
      · exact value
      · exact value.firstElement spelled
    have behind := (tells_blank (k := k) (p := .afterValue) (a := a) rfl blankAfter).conveys rest
    have whole := ((tells_blank between blankBefore).conveys _).trans (inPlace.trans behind)
    simpa using whole

theorem conveys_elements (refuses : k.RefusesNumbers) {items : List Value} {cs : List Char} :
    SpellsElements items cs → ∀ (p : Phase), p = .value ∨ p = .firstElement →
      ∀ (a : List Bracket) (rest : List Char), Delimited rest →
      Conveys k p (.square :: a) cs (Value.eventsOfElements items) .afterValue (.square :: a) rest
  | .one spelled => by
    intro p expected a rest delimited
    rw [Value.eventsOfElements, Value.eventsOfItems, List.append_nil]
    exact conveys_element refuses spelled p expected (.square :: a) rest delimited
  | @SpellsElements.more _ _ _ text spelled others => by
    intro p expected a rest delimited
    have comma : Tells k .afterValue (.square :: a) [','] [.element] .value (.square :: a) :=
      tells_event fun _ => rfl
    have second := conveys_elements refuses others .value (.inl rfl) a rest delimited
    have first := conveys_element refuses spelled p expected (.square :: a) _
      (Delimits.delimited (x := ',') (by decide) (text ++ rest))
    rw [Value.eventsOfElements, others.eventsOfItems_eq]
    exact first.trans ((comma.conveys _).trans second)

theorem conveys_members (refuses : k.RefusesNumbers) {members : List (String × Value)}
    {cs : List Char} :
    SpellsMembers members cs → ∀ (p : Phase), p = .firstKey ∨ p = .nextKey →
      ∀ (a : List Bracket) (rest : List Char), Delimited rest →
      Conveys k p (.curly :: a) cs (Value.eventsOfMembers members) .afterValue (.curly :: a) rest
  | .one spelledName spelled => by
    intro p expected a rest delimited
    have named := tells_name (k := k) (a := .curly :: a) expected spelledName
    have value := conveys_element refuses spelled .value (.inl rfl) (.curly :: a) rest delimited
    have whole := (named.conveys _).trans value
    rw [Value.eventsOfMembers, Value.eventsOfMembers]
    simpa using whole
  | @SpellsMembers.more _ _ _ _ _ text spelledName spelled others => by
    intro p expected a rest delimited
    have named := tells_name (k := k) (a := .curly :: a) expected spelledName
    have comma : Tells k .afterValue (.curly :: a) [','] [] .nextKey (.curly :: a) :=
      tells_nothing fun _ => rfl
    have second := (comma.conveys _).trans
      (conveys_members refuses others .nextKey (.inr rfl) a rest delimited)
    have value := conveys_element refuses spelled .value (.inl rfl) (.curly :: a) _
      (Delimits.delimited (x := ',') (by decide) (text ++ rest))
    have whole := (named.conveys _).trans (value.trans second)
    rw [Value.eventsOfMembers]
    simpa using whole

end

/-- The end of an object needs no other character behind it. -/
theorem conveys_object (refuses : k.RefusesNumbers) {members : List (String × Value)}
    {cs : List Char} (spelled : SpellsValue (.object members) cs) (rest : List Char) :
    Conveys k .value a cs (Value.object members).events .afterValue a rest := by
  rw [Value.events]
  cases spelled with
  | emptyObject areBlank =>
    rw [Value.eventsOfMembers]
    exact (tells_emptyObject areBlank).conveys rest
  | object spelledMembers =>
    exact (conveys_members refuses spelledMembers .firstKey (.inl rfl) a _
      (Delimits.delimited (by decide) rest)).object

/-- Reading a text that spells an object comes to the same as telling the
events of the object. -/
theorem toOption_read (refuses : k.RefusesNumbers) {members : List (String × Value)}
    {text : List Char} (spelled : SpellsElement (.object members) text) (s : σ) :
    (read k s text).toOption = (k.follow s (Value.object members).events).toOption := by
  rcases spelled with ⟨blankBefore, spelledValue, blankAfter⟩
  have behind := (tells_blank (k := k) (p := .afterValue) (a := []) rfl blankAfter).conveys []
  have whole := ((tells_blank (k := k) (p := .value) (a := []) rfl blankBefore).conveys _).trans
    ((conveys_object refuses spelledValue _).trans behind)
  have reached := whole s
  simp only [List.append_nil, List.nil_append] at reached
  rw [read, begin]
  cases told : k.follow s (Value.object members).events with
  | error fault =>
    rw [told] at reached
    cases fed : (⟨.value, [], s⟩ : Reader σ).feed k _ with
    | error other => rfl
    | ok m =>
      rw [fed] at reached
      cases reached
  | ok after =>
    rw [told] at reached
    cases fed : (⟨.value, [], s⟩ : Reader σ).feed k _ with
    | error other =>
      rw [fed] at reached
      cases reached
    | ok m =>
      rw [fed] at reached
      cases reached
      rfl

end Reader

end Json
end TemplateScript

import TemplateScript.Proofs.Skipping

namespace TemplateScript

/-!
# Which objects are configurations

An object is a configuration if the members that have a meaning occur at most
once, with values of the right kind.  This is said below about the object's
members as a list, without any order among them and without a word on members
of other names.  The schema, which is told the members one by one and has to
decide at each, accepts exactly these objects.

What the schema knows when it has been told some of the members is a draft.  The
inductions over the members are about a draft and the members still to come:
either a value is known and must not come again, or it may still come.
-/

namespace Json

/-- The values of the members with a name. -/
def valuesAt (name : String) (members : List (String × Value)) : List Value :=
  (members.filter fun member => member.1 = name).map Prod.snd

@[simp] theorem valuesAt_nil (name : String) : valuesAt name [] = [] := rfl

@[simp] theorem valuesAt_cons_self (name : String) (v : Value) (members : List (String × Value)) :
    valuesAt name ((name, v) :: members) = v :: valuesAt name members := by
  simp [valuesAt]

theorem valuesAt_cons_of_ne {name other : String} (different : other ≠ name) (v : Value)
    (members : List (String × Value)) :
    valuesAt name ((other, v) :: members) = valuesAt name members := by
  simp [valuesAt, different]

/-- A value that may be left out or be null, and else holds something. -/
inductive Optional {α : Type} (holds : Value → α → Prop) : List Value → Option α → Prop where
  | absent : Optional holds [] none
  | null : Optional holds [.null] none
  | given {v : Value} {a : α} : holds v a → Optional holds [v] (some a)

theorem optional_singleton_iff {α : Type} {holds : Value → α → Prop} {v : Value} {o : Option α} :
    Optional holds [v] o ↔ v = .null ∧ o = none ∨ ∃ a, holds v a ∧ o = some a := by
  constructor
  · intro optional
    cases optional with
    | null => exact .inl ⟨rfl, rfl⟩
    | given held => exact .inr ⟨_, held, rfl⟩
  · rintro (⟨rfl, rfl⟩ | ⟨a, held, rfl⟩)
    · exact .null
    · exact .given held

theorem optional_cons_iff {α : Type} {holds : Value → α → Prop} {v : Value} {values : List Value}
    {o : Option α} :
    Optional holds (v :: values) o ↔ Optional holds [v] o ∧ values = [] := by
  constructor
  · intro optional
    cases optional with
    | null => exact ⟨.null, rfl⟩
    | given holds => exact ⟨.given holds, rfl⟩
  · rintro ⟨optional, rfl⟩
    exact optional

end Json

namespace Config

open Json (Value Consumer Optional valuesAt optional_singleton_iff optional_cons_iff
  valuesAt_cons_self valuesAt_cons_of_ne)

/-- Four strings in a row, or an object with exactly one string for every slot. -/
inductive Wraps : Value → Wrappers → Prop where
  | row (w : Wrappers) :
      Wraps (.array [.text w.outputStart, .text w.outputEnd, .text w.exprStart, .text w.exprEnd]) w
  | object {members : List (String × Value)} {w : Wrappers} :
      (∀ slot : Slot, valuesAt slot.key members = [.text (w.get slot)]) → Wraps (.object members) w

/-- A string. -/
def Names (v : Value) (name : String) : Prop := v = .text name

/-- The members of an object describe a configuration. -/
structure Describes (members : List (String × Value)) (c : Config) : Prop where
  preset : Optional Names (valuesAt "preset" members) c.preset
  wrappers : Optional Wraps (valuesAt "delimiters" members) c.wrappers

/-! ## Values that are awaited -/

theorem follow_presetValue_iff {d : Draft} (awaiting : d.awaiting = some .preset) {v : Value}
    {after : Schema} :
    Schema.consumer.follow ⟨.config d, 0⟩ v.events = .ok after ↔
      ∃ o, Optional Names [v] o ∧ after = ⟨.config { d with preset := some o }, 0⟩ := by
  have used : Schema.awaitsNothing (.config d) = false := by
    simp [Schema.awaitsNothing, awaiting]
  simp only [optional_singleton_iff, Names]
  cases v with
  | null =>
    have told : Schema.consumer.follow ⟨.config d, 0⟩ [.null] =
        .ok ⟨.config { d with preset := some none }, 0⟩ := by
      simp [Consumer.follow_singleton, Consumer.hears, Schema.consumer, Schema.accept,
        Schema.acceptConfig, Schema.acceptField, awaiting]
    simp [Value.events, told, eq_comm]
  | text name =>
    have told : Schema.consumer.follow ⟨.config d, 0⟩ [.text name] =
        .ok ⟨.config { d with preset := some (some name) }, 0⟩ := by
      rw [Consumer.follow_singleton, hears_text used]
      simp [Schema.consumer, Schema.accept, Schema.acceptConfig, Schema.acceptField, awaiting]
    simp [Value.events, told, eq_comm]
  | boolean _ | number _ | array _ | object _ =>
    simp [Value.events, Consumer.follow_cons, Consumer.hears, Schema.consumer, Schema.accept,
      Schema.acceptConfig, Schema.acceptField, awaiting]

theorem complete?_eq_some_iff {o : PartialWrappers} {w : Wrappers} :
    o.complete? = some w ↔ ∀ slot, o.get? slot = some (w.get slot) := by
  constructor
  · intro complete slot
    unfold PartialWrappers.complete? at complete
    split at complete
    · cases complete
      cases slot <;> assumption
    · cases complete
  · intro given
    have outputStart : o.outputStart = some w.outputStart := given .outputStart
    have outputEnd : o.outputEnd = some w.outputEnd := given .outputEnd
    have exprStart : o.exprStart = some w.exprStart := given .exprStart
    have exprEnd : o.exprEnd = some w.exprEnd := given .exprEnd
    simp only [PartialWrappers.complete?, outputStart, outputEnd, exprStart, exprEnd]

/-- The wrappers are closed once every slot has its string. -/
theorem follow_close_iff {outer : Draft} {d : WrappersDraft} {event : Json.Event}
    (closes : event = .closeArray ∨ event = .closeObject) {after : Schema} :
    Schema.consumer.follow ⟨.wrappers outer d, 0⟩ [event] = .ok after ↔
      ∃ w : Wrappers, (∀ slot, d.texts.get? slot = some (w.get slot)) ∧
        after = ⟨.config { outer with wrappers := some (some w) }, 0⟩ := by
  have accepted : Schema.consumer.follow ⟨.wrappers outer d, 0⟩ [event] =
      Schema.acceptWrappers outer d event := by
    rw [Consumer.follow_singleton]
    rcases closes with rfl | rfl <;> rfl
  simp only [accepted, ← complete?_eq_some_iff]
  cases complete : d.texts.complete? with
  | none => rcases closes with rfl | rfl <;> simp [Schema.acceptWrappers, complete]
  | some w => rcases closes with rfl | rfl <;> simp [Schema.acceptWrappers, complete, eq_comm]

theorem follow_slotValue_iff {outer : Draft} {d : WrappersDraft} {slot : Slot}
    (awaiting : d.awaiting = some slot) {v : Value} {events : List Json.Event} {after : Schema} :
    Schema.consumer.follow ⟨.wrappers outer d, 0⟩ (v.events ++ events) = .ok after ↔
      ∃ text, v = .text text ∧
        Schema.consumer.follow ⟨.wrappers outer ⟨d.texts.set text slot, some slot⟩, 0⟩ events =
          .ok after := by
  have used : Schema.awaitsNothing (.wrappers outer d) = false := by
    simp [Schema.awaitsNothing, awaiting]
  cases v with
  | text text =>
    have accepted : Schema.consumer.accept ⟨.wrappers outer d, 0⟩ (.text text) =
        .ok ⟨.wrappers outer ⟨d.texts.set text slot, some slot⟩, 0⟩ := by
      simp [Schema.consumer, Schema.accept, Schema.acceptWrappers, Schema.acceptSlot, awaiting]
    rw [← hears_text used] at accepted
    simp [Value.events, Consumer.follow_cons_of_ok (.text text) accepted]
  | null | boolean _ | number _ | array _ | object _ =>
    simp [Value.events, Consumer.follow_cons, Consumer.hears, Schema.consumer, Schema.accept,
      Schema.acceptWrappers, Schema.acceptSlot, awaiting]

/-! ## Four strings in a row -/

/-- The slots behind a slot, where the four strings stand in a row. -/
def laterSlots : Slot → List Slot
  | .outputStart => [.outputEnd, .exprStart, .exprEnd]
  | .outputEnd => [.exprStart, .exprEnd]
  | .exprStart => [.exprEnd]
  | .exprEnd => []

theorem laterSlots_eq (slot : Slot) :
    laterSlots slot = slot.next?.elim [] fun next => next :: laterSlots next := by
  cases slot <;> rfl

theorem not_mem_laterSlots (slot : Slot) : slot ∉ laterSlots slot := by
  cases slot <;> simp [laterSlots]

/-- A row is read to its end if the slots that are still to come get one string each. -/
theorem follow_items_iff {outer : Draft} {d : WrappersDraft} {slot : Slot}
    (awaiting : d.awaiting = some slot) (fresh : ∀ later ∈ laterSlots slot, d.texts.get? later = none)
    {items : List Value} {after : Schema} :
    Schema.consumer.follow ⟨.wrappers outer d, 0⟩ (Value.eventsOfItems items ++ [.closeArray]) =
        .ok after ↔
      ∃ w : Wrappers, items = (laterSlots slot).map (fun later => .text (w.get later)) ∧
        (∀ earlier ∉ laterSlots slot, d.texts.get? earlier = some (w.get earlier)) ∧
        after = ⟨.config { outer with wrappers := some (some w) }, 0⟩ := by
  -- The slot moves on with the items, so the induction is over every slot of the row.
  induction items generalizing d slot with
  | nil =>
    rw [Value.eventsOfItems, List.nil_append, follow_close_iff (.inl rfl)]
    constructor
    · rintro ⟨w, given, rfl⟩
      have last : laterSlots slot = [] := by
        apply List.eq_nil_iff_forall_not_mem.mpr
        intro later isLater
        have known := given later
        rw [fresh later isLater] at known
        cases known
      rw [last]
      exact ⟨w, rfl, fun earlier _ => given earlier, rfl⟩
    · rintro ⟨w, covered, given, rfl⟩
      have last : laterSlots slot = [] := List.map_eq_nil_iff.mp covered.symm
      rw [last] at given
      exact ⟨w, fun earlier => given earlier List.not_mem_nil, rfl⟩
  | cons item items ih =>
    rw [Value.eventsOfItems, List.cons_append, List.append_assoc]
    rw [laterSlots_eq] at fresh ⊢
    cases following : slot.next? with
    | none =>
      -- The last slot has its string already, so there is an item too many.
      have refused : Schema.consumer.accept ⟨.wrappers outer d, 0⟩ .element = .error .malformed := by
        simp [Schema.consumer, Schema.accept, Schema.acceptWrappers, awaiting, following]
      simp [Consumer.follow_cons_ne_ok .element refused]
    | some next =>
      simp only [following, Option.elim_some, List.forall_mem_cons] at fresh
      have accepted : Schema.consumer.accept ⟨.wrappers outer d, 0⟩ .element =
          .ok ⟨.wrappers outer { d with awaiting := some next }, 0⟩ := by
        simp [Schema.consumer, Schema.accept, Schema.acceptWrappers, awaiting, following]
      rw [Consumer.follow_cons_of_ok .element accepted, follow_slotValue_iff rfl]
      have freshBehind (text : String) : ∀ later ∈ laterSlots next,
          (d.texts.set text next).get? later = none := by
        intro later isLater
        have different : later ≠ next := by
          rintro rfl
          exact not_mem_laterSlots later isLater
        rw [PartialWrappers.get?_set_of_ne _ _ different]
        exact fresh.2 later isLater
      have goesOn (text : String) :=
        @ih ⟨d.texts.set text next, some next⟩ next rfl (freshBehind text)
      simp only [goesOn, Option.elim_some, List.map_cons, List.cons.injEq]
      constructor
      · rintro ⟨text, rfl, w, rfl, given, rfl⟩
        have read := given next (not_mem_laterSlots next)
        rw [PartialWrappers.get?_set_self, Option.some.injEq] at read
        refine ⟨w, ⟨by rw [read], rfl⟩, ?_, rfl⟩
        intro earlier isEarlier
        rw [List.mem_cons, not_or] at isEarlier
        rw [← given earlier isEarlier.2, PartialWrappers.get?_set_of_ne _ _ isEarlier.1]
      · rintro ⟨w, ⟨rfl, rfl⟩, given, rfl⟩
        refine ⟨w.get next, rfl, w, rfl, ?_, rfl⟩
        intro earlier isEarlier
        by_cases same : earlier = next
        · rw [same, PartialWrappers.get?_set_self]
        · rw [PartialWrappers.get?_set_of_ne _ _ same]
          exact given earlier (by simp [same, isEarlier])

theorem follow_row_iff {outer : Draft} {items : List Value} {after : Schema} :
    Schema.consumer.follow ⟨.wrappers outer { awaiting := some .outputStart }, 0⟩
        (Value.eventsOfElements items ++ [.closeArray]) = .ok after ↔
      ∃ w : Wrappers,
        items = [.text w.outputStart, .text w.outputEnd, .text w.exprStart, .text w.exprEnd] ∧
        after = ⟨.config { outer with wrappers := some (some w) }, 0⟩ := by
  cases items with
  | nil =>
    rw [Value.eventsOfElements, List.nil_append, follow_close_iff (.inl rfl)]
    constructor
    · rintro ⟨w, given, rfl⟩
      cases given .outputStart
    · rintro ⟨w, four, rfl⟩
      cases four
  | cons item items =>
    rw [Value.eventsOfElements, List.append_assoc, follow_slotValue_iff rfl]
    have goesOn (text : String) := @follow_items_iff outer
      ⟨PartialWrappers.set {} text .outputStart, some .outputStart⟩ .outputStart rfl
      (by simp [laterSlots, PartialWrappers.set, PartialWrappers.get?]) items after
    simp only [goesOn]
    constructor
    · rintro ⟨text, rfl, w, rfl, given, rfl⟩
      have read := given .outputStart (not_mem_laterSlots _)
      rw [PartialWrappers.get?_set_self, Option.some.injEq] at read
      exact ⟨w, by rw [read]; rfl, rfl⟩
    · rintro ⟨w, four, rfl⟩
      rw [List.cons.injEq] at four
      refine ⟨w.outputStart, four.1, w, four.2, ?_, rfl⟩
      intro earlier isEarlier
      obtain rfl : earlier = .outputStart := by
        cases earlier <;> simp [laterSlots] at isEarlier ⊢
      rfl

/-! ## One string for every slot -/

/-- What is said of all the values together, if one is known already: there are no more. -/
def Settles {α : Type} (holds : List Value → α → Prop) (known : Option α) (values : List Value)
    (a : α) : Prop :=
  known.elim (holds values a) fun held => values = [] ∧ a = held

theorem not_settles_known {α : Type} {holds : List Value → α → Prop} {known : Option α}
    (isKnown : known.isSome) {v : Value} {values : List Value} {a : α} :
    ¬ Settles holds known (v :: values) a := by
  obtain ⟨held, rfl⟩ := Option.isSome_iff_exists.mp isKnown
  rintro ⟨more, -⟩
  cases more

theorem settles_once_nil_iff {known : Option String} {text : String} :
    Settles (fun values text => values = [.text text]) known [] text ↔ known = some text := by
  cases known <;> simp [Settles, eq_comm]

theorem eq_key_of_ofKey? {name : String} {slot : Slot} (named : Slot.ofKey? name = some slot) :
    name = slot.key := by
  unfold Slot.ofKey? at named
  split_ifs at named with first second third fourth <;> cases named <;> assumption

theorem ne_key_of_ofKey? {name : String} (unknown : Slot.ofKey? name = none) (slot : Slot) :
    name ≠ slot.key := by
  rintro rfl
  rw [Slot.ofKey?_key] at unknown
  cases unknown

theorem key_ne_key {slot other : Slot} (different : slot ≠ other) : slot.key ≠ other.key := by
  intro same
  have sameSlot := congrArg Slot.ofKey? same
  rw [Slot.ofKey?_key, Slot.ofKey?_key] at sameSlot
  exact different (Option.some.inj sameSlot)

/-- What each slot gets from the strings that are given already and the members to come. -/
def FillsSlots (texts : PartialWrappers) (members : List (String × Value)) (w : Wrappers) : Prop :=
  ∀ slot : Slot, Settles (fun values text => values = [.text text]) (texts.get? slot)
    (valuesAt slot.key members) (w.get slot)

theorem fillsSlots_cons_unknown {texts : PartialWrappers} {name : String} {v : Value}
    {members : List (String × Value)} {w : Wrappers} (unknown : Slot.ofKey? name = none) :
    FillsSlots texts ((name, v) :: members) w ↔ FillsSlots texts members w := by
  simp only [FillsSlots, valuesAt_cons_of_ne (ne_key_of_ofKey? unknown _)]

theorem fillsSlots_cons_fresh {texts : PartialWrappers} {slot : Slot} {v : Value}
    {members : List (String × Value)} {w : Wrappers} (fresh : texts.get? slot = none) :
    FillsSlots texts ((slot.key, v) :: members) w ↔
      ∃ text, v = .text text ∧ FillsSlots (texts.set text slot) members w := by
  constructor
  · intro fills
    have own := fills slot
    simp only [fresh, valuesAt_cons_self, Settles, Option.elim_none, List.cons.injEq] at own
    refine ⟨w.get slot, own.1, ?_⟩
    intro other
    by_cases same : other = slot
    · subst same
      rw [PartialWrappers.get?_set_self]
      exact ⟨own.2, rfl⟩
    · rw [PartialWrappers.get?_set_of_ne _ _ same,
        ← valuesAt_cons_of_ne (key_ne_key (Ne.symm same)) v]
      exact fills other
  · rintro ⟨text, rfl, fills⟩ other
    by_cases same : other = slot
    · subst same
      have own := fills other
      rw [PartialWrappers.get?_set_self] at own
      simp only [fresh, valuesAt_cons_self, Settles, Option.elim_none, own.1, own.2]
    · have kept := fills other
      rw [PartialWrappers.get?_set_of_ne _ _ same] at kept
      rw [valuesAt_cons_of_ne (key_ne_key (Ne.symm same))]
      exact kept

theorem follow_unknownSlot {outer : Draft} {d : WrappersDraft} {name : String}
    (unknown : Slot.ofKey? name = none) (v : Value) (events : List Json.Event) :
    Schema.consumer.follow ⟨.wrappers outer d, 0⟩ (.key name :: (v.events ++ events)) =
      Schema.consumer.follow ⟨.wrappers outer { d with awaiting := none }, 0⟩ events := by
  have accepted : Schema.consumer.accept ⟨.wrappers outer d, 0⟩ (.key name) =
      .ok ⟨.wrappers outer { d with awaiting := none }, 0⟩ := by
    simp [Schema.consumer, Schema.accept, Schema.acceptWrappers, unknown]
  rw [← hears_key (.wrappers outer d)] at accepted
  rw [Consumer.follow_cons_of_ok _ accepted, Consumer.follow_append_of_ok (follow_unawaited rfl v)]

/-- The members of the wrappers, told to a draft, make of it the wrappers that they and
the draft describe together. -/
theorem follow_slots_iff {outer : Draft} {d : WrappersDraft} {members : List (String × Value)}
    {after : Schema} :
    Schema.consumer.follow ⟨.wrappers outer d, 0⟩
        (Value.eventsOfMembers members ++ [.closeObject]) = .ok after ↔
      ∃ w, FillsSlots d.texts members w ∧
        after = ⟨.config { outer with wrappers := some (some w) }, 0⟩ := by
  induction members generalizing d with
  | nil =>
    rw [Value.eventsOfMembers, List.nil_append, follow_close_iff (.inr rfl)]
    simp only [FillsSlots, Json.valuesAt_nil, settles_once_nil_iff]
  | cons member members ih =>
    rcases member with ⟨name, v⟩
    rw [Value.eventsOfMembers, List.cons_append, List.append_assoc]
    cases named : Slot.ofKey? name with
    | none =>
      rw [follow_unknownSlot named, ih]
      simp only [fillsSlots_cons_unknown named]
    | some slot =>
      obtain rfl := eq_key_of_ofKey? named
      cases known : d.texts.get? slot with
      | some held =>
        -- The key is refused before its value comes, whatever that would be.
        have refused : Schema.consumer.accept ⟨.wrappers outer d, 0⟩ (.key slot.key) =
            .error .mismatched := by
          simp [Schema.consumer, Schema.accept, Schema.acceptWrappers, known]
        rw [← hears_key (.wrappers outer d)] at refused
        simp only [Consumer.follow_cons_ne_ok _ refused, false_iff, not_exists, not_and]
        intro w fills
        have own := fills slot
        rw [valuesAt_cons_self] at own
        exact absurd own (not_settles_known (Option.isSome_iff_exists.mpr ⟨held, known⟩))
      | none =>
        have accepted : Schema.consumer.accept ⟨.wrappers outer d, 0⟩ (.key slot.key) =
            .ok ⟨.wrappers outer { d with awaiting := some slot }, 0⟩ := by
          simp [Schema.consumer, Schema.accept, Schema.acceptWrappers, known]
        rw [← hears_key (.wrappers outer d)] at accepted
        rw [Consumer.follow_cons_of_ok _ accepted, follow_slotValue_iff rfl]
        simp only [ih, fillsSlots_cons_fresh known]
        constructor
        · rintro ⟨text, rfl, w, fills, rfl⟩
          exact ⟨w, ⟨text, rfl, fills⟩, rfl⟩
        · rintro ⟨w, ⟨text, rfl, fills⟩, rfl⟩
          exact ⟨text, rfl, w, fills, rfl⟩

theorem wraps_array_iff {items : List Value} {w : Wrappers} :
    Wraps (.array items) w ↔
      items = [.text w.outputStart, .text w.outputEnd, .text w.exprStart, .text w.exprEnd] := by
  constructor
  · intro wraps
    cases wraps
    rfl
  · rintro rfl
    exact .row w

theorem wraps_object_iff {members : List (String × Value)} {w : Wrappers} :
    Wraps (.object members) w ↔ FillsSlots {} members w := by
  have nothingGiven (slot : Slot) : PartialWrappers.get? {} slot = none := by
    cases slot <;> rfl
  simp only [FillsSlots, nothingGiven, Settles, Option.elim_none]
  constructor
  · intro wraps
    cases wraps with
    | object once => exact once
  · exact Wraps.object

theorem follow_wrappersValue_iff {d : Draft} (awaiting : d.awaiting = some .wrappers) {v : Value}
    {after : Schema} :
    Schema.consumer.follow ⟨.config d, 0⟩ v.events = .ok after ↔
      ∃ o, Optional Wraps [v] o ∧ after = ⟨.config { d with wrappers := some o }, 0⟩ := by
  cases v with
  | null =>
    have told : Schema.consumer.follow ⟨.config d, 0⟩ [.null] =
        .ok ⟨.config { d with wrappers := some none }, 0⟩ := by
      simp [Consumer.follow_singleton, Consumer.hears, Schema.consumer, Schema.accept,
        Schema.acceptConfig, Schema.acceptField, awaiting]
    have unwrapped (w : Wrappers) : ¬ Wraps .null w := by
      intro wraps
      cases wraps
    simp [Value.events, told, optional_singleton_iff, unwrapped, eq_comm]
  | array items =>
    have opened : Schema.consumer.accept ⟨.config d, 0⟩ .openArray =
        .ok ⟨.wrappers d { awaiting := some .outputStart }, 0⟩ := by
      simp [Schema.consumer, Schema.accept, Schema.acceptConfig, Schema.acceptField, awaiting]
    rw [Value.events, Consumer.follow_cons_of_ok .openArray opened, follow_row_iff]
    simp [optional_singleton_iff, wraps_array_iff]
  | object members =>
    have opened : Schema.consumer.accept ⟨.config d, 0⟩ .openObject =
        .ok ⟨.wrappers d { awaiting := none }, 0⟩ := by
      simp [Schema.consumer, Schema.accept, Schema.acceptConfig, Schema.acceptField, awaiting]
    rw [Value.events, Consumer.follow_cons_of_ok .openObject opened, follow_slots_iff]
    simp [optional_singleton_iff, wraps_object_iff]
  | boolean _ | number _ | text _ =>
    simp only [Value.events, Consumer.follow_cons, Consumer.hears, Schema.consumer, Schema.accept,
      Schema.acceptConfig, Schema.acceptField, awaiting, optional_singleton_iff, Nat.lt_irrefl,
      if_false, reduceCtorEq, false_and, false_or, false_iff, not_exists, not_and]
    rintro _ ⟨w, wraps, -⟩
    cases wraps

/-! ## The members of a configuration -/

theorem settles_optional_nil_iff {α : Type} {holds : Value → α → Prop} {known : Option (Option α)}
    {o : Option α} : Settles (Optional holds) known [] o ↔ o = known.join := by
  cases known with
  | none =>
    constructor
    · intro optional
      cases optional
      rfl
    · rintro rfl
      exact .absent
  | some held => simp [Settles]

theorem settles_optional_cons_iff {α : Type} {holds : Value → α → Prop} {v : Value}
    {values : List Value} {o : Option α} :
    Settles (Optional holds) none (v :: values) o ↔
      ∃ held, Optional holds [v] held ∧ Settles (Optional holds) (some held) values o := by
  change Optional holds (v :: values) o ↔ ∃ held, Optional holds [v] held ∧ values = [] ∧ o = held
  rw [optional_cons_iff]
  constructor
  · rintro ⟨optional, rfl⟩
    exact ⟨o, optional, rfl, rfl⟩
  · rintro ⟨held, optional, rfl, rfl⟩
    exact ⟨optional, rfl⟩

theorem eq_of_ofKey? {name : String} {f : Field} (named : Field.ofKey? name = some f) :
    name = "preset" ∧ f = .preset ∨ name = "delimiters" ∧ f = .wrappers := by
  unfold Field.ofKey? at named
  split_ifs at named with first second
  · exact .inl ⟨first, (Option.some.inj named).symm⟩
  · exact .inr ⟨second, (Option.some.inj named).symm⟩

theorem follow_unknownField {d : Draft} {name : String} (unknown : Field.ofKey? name = none)
    (v : Value) (events : List Json.Event) :
    Schema.consumer.follow ⟨.config d, 0⟩ (.key name :: (v.events ++ events)) =
      Schema.consumer.follow ⟨.config { d with awaiting := none }, 0⟩ events := by
  have accepted : Schema.consumer.accept ⟨.config d, 0⟩ (.key name) =
      .ok ⟨.config { d with awaiting := none }, 0⟩ := by
    simp [Schema.consumer, Schema.accept, Schema.acceptConfig, unknown]
  rw [← hears_key (.config d)] at accepted
  rw [Consumer.follow_cons_of_ok _ accepted, Consumer.follow_append_of_ok (follow_unawaited rfl v)]

theorem follow_knownField {d : Draft} {name : String} {f : Field}
    (named : Field.ofKey? name = some f) (known : d.has f = true) {events : List Json.Event}
    {after : Schema} :
    Schema.consumer.follow ⟨.config d, 0⟩ (.key name :: events) ≠ .ok after := by
  have refused : Schema.consumer.accept ⟨.config d, 0⟩ (.key name) = .error .mismatched := by
    simp [Schema.consumer, Schema.accept, Schema.acceptConfig, named, known]
  rw [← hears_key (.config d)] at refused
  exact Consumer.follow_cons_ne_ok _ refused _

/-- The members of a configuration, told to a draft, make of it the configuration that they
and the draft describe together. -/
theorem follow_members_iff {d : Draft} {members : List (String × Value)} {after : Schema} :
    Schema.consumer.follow ⟨.config d, 0⟩ (Value.eventsOfMembers members ++ [.closeObject]) =
        .ok after ↔
      ∃ c : Config, Settles (Optional Names) d.preset (valuesAt "preset" members) c.preset ∧
        Settles (Optional Wraps) d.wrappers (valuesAt "delimiters" members) c.wrappers ∧
        after = ⟨.done c, 0⟩ := by
  induction members generalizing d with
  | nil =>
    have told : Schema.consumer.follow ⟨.config d, 0⟩ [.closeObject] = .ok ⟨.done d.config, 0⟩ :=
      rfl
    simp only [Value.eventsOfMembers, List.nil_append, told, Json.valuesAt_nil,
      settles_optional_nil_iff, Except.ok.injEq]
    constructor
    · rintro rfl
      exact ⟨d.config, rfl, rfl, rfl⟩
    · rintro ⟨⟨preset, wrappers⟩, rfl, rfl, rfl⟩
      rfl
  | cons member members ih =>
    rcases member with ⟨name, v⟩
    rw [Value.eventsOfMembers, List.cons_append, List.append_assoc]
    cases named : Field.ofKey? name with
    | none =>
      -- The member is in neither of the two lists of values.
      have notPreset : name ≠ "preset" := by
        rintro rfl
        cases named
      have notWrappers : name ≠ "delimiters" := by
        rintro rfl
        cases named
      rw [follow_unknownField named, ih, valuesAt_cons_of_ne notPreset,
        valuesAt_cons_of_ne notWrappers]
    | some f =>
      rcases eq_of_ofKey? named with ⟨rfl, rfl⟩ | ⟨rfl, rfl⟩
      · rw [valuesAt_cons_self, valuesAt_cons_of_ne (by decide)]
        cases known : d.preset with
        | some held =>
          have has : d.has .preset = true := Option.isSome_iff_exists.mpr ⟨held, known⟩
          simp [follow_knownField named has, not_settles_known]
        | none =>
          have fresh : d.has .preset = false := by
            simp [Draft.has, known]
          rw [follow_field named fresh, Consumer.follow_append_eq_ok_iff]
          simp only [follow_presetValue_iff, settles_optional_cons_iff]
          constructor
          · rintro ⟨_, ⟨o, optional, rfl⟩, goesOn⟩
            rcases ih.mp goesOn with ⟨c, preset, wrappers, rfl⟩
            exact ⟨c, ⟨o, optional, preset⟩, wrappers, rfl⟩
          · rintro ⟨c, ⟨o, optional, preset⟩, wrappers, rfl⟩
            exact ⟨_, ⟨o, optional, rfl⟩, ih.mpr ⟨c, preset, wrappers, rfl⟩⟩
      · rw [valuesAt_cons_self, valuesAt_cons_of_ne (by decide)]
        cases known : d.wrappers with
        | some held =>
          have has : d.has .wrappers = true := Option.isSome_iff_exists.mpr ⟨held, known⟩
          simp [follow_knownField named has, not_settles_known]
        | none =>
          have fresh : d.has .wrappers = false := by
            simp [Draft.has, known]
          rw [follow_field named fresh, Consumer.follow_append_eq_ok_iff]
          simp only [follow_wrappersValue_iff, settles_optional_cons_iff]
          constructor
          · rintro ⟨_, ⟨o, optional, rfl⟩, goesOn⟩
            rcases ih.mp goesOn with ⟨c, preset, wrappers, rfl⟩
            exact ⟨c, preset, ⟨o, optional, wrappers⟩, rfl⟩
          · rintro ⟨c, preset, ⟨o, optional, wrappers⟩, rfl⟩
            exact ⟨_, ⟨o, optional, rfl⟩, ih.mpr ⟨c, preset, wrappers, rfl⟩⟩

/-- The schema begins with an empty draft, so nothing is known but the members. -/
theorem follow_object_iff {members : List (String × Value)} {after : Schema} :
    Schema.consumer.follow Schema.begin (Value.object members).events = .ok after ↔
      ∃ c, Describes members c ∧ after = ⟨.done c, 0⟩ := by
  have opened : Schema.consumer.accept Schema.begin .openObject =
      .ok ⟨.config { awaiting := none }, 0⟩ := rfl
  rw [Value.events, Consumer.follow_cons_of_ok .openObject opened, follow_members_iff]
  constructor
  · rintro ⟨c, preset, wrappers, rfl⟩
    exact ⟨c, ⟨preset, wrappers⟩, rfl⟩
  · rintro ⟨c, ⟨preset, wrappers⟩, rfl⟩
    exact ⟨c, preset, wrappers, rfl⟩

theorem read_eq_ok_iff {members : List (String × Value)} {text : List Char}
    (spelled : Json.SpellsElement (.object members) text) {after : Schema} :
    Json.Reader.read Schema.consumer Schema.begin text = .ok after ↔
      ∃ c, Describes members c ∧ after = ⟨.done c, 0⟩ := by
  have told := Json.Reader.toOption_read refusesNumbers spelled Schema.begin
  rw [← follow_object_iff]
  cases read : Json.Reader.read Schema.consumer Schema.begin text <;>
    cases followed : Schema.consumer.follow Schema.begin (Value.object members).events <;>
    simp_all [Except.toOption]

/-- An object is parsed as the configuration that its members describe. -/
theorem parse_eq_ok_iff {members : List (String × Value)} {text : List Char}
    (spelled : Json.SpellsElement (.object members) text) {c : Config} :
    parse text = .ok c ↔ Describes members c := by
  constructor
  · intro parsed
    unfold parse at parsed
    split at parsed
    · next after depth read =>
      rcases (read_eq_ok_iff spelled).mp read with ⟨described, describes, same⟩
      cases same
      cases parsed
      exact describes
    · cases parsed
    · cases parsed
  · intro describes
    have read := (read_eq_ok_iff spelled).mpr ⟨c, describes, rfl⟩
    rw [parse, read]

end Config

end TemplateScript

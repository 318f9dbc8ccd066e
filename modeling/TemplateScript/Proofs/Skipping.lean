import TemplateScript.Proofs.ConfigFiles
import TemplateScript.Proofs.Readings

namespace TemplateScript

/-!
# What the schema of configurations skips

Members that a configuration does not know are skipped with their values,
however deep these are.  The schema counts the brackets that are open in such a
value, so at its end it is where it was at its beginning.
-/

namespace Json

namespace Consumer

variable {σ : Type} {k : Consumer σ} {s middle after : σ}

theorem follow_append_of_ok {front : List Event} (told : k.follow s front = .ok middle)
    (back : List Event) : k.follow s (front ++ back) = k.follow middle back := by
  rw [follow_append, told]

theorem follow_append_eq_ok_iff {front back : List Event} :
    k.follow s (front ++ back) = .ok after ↔
      ∃ middle, k.follow s front = .ok middle ∧ k.follow middle back = .ok after := by
  rw [follow_append]
  cases k.follow s front <;> simp

theorem follow_cons_of_ok (event : Event) (accepted : k.accept s (k.hears s event) = .ok middle)
    (events : List Event) : k.follow s (event :: events) = k.follow middle events := by
  rw [follow_cons, accepted]

theorem follow_cons_ne_ok (event : Event) {fault : Fault}
    (refused : k.accept s (k.hears s event) = .error fault) (events : List Event) :
    k.follow s (event :: events) ≠ .ok after := by
  rw [follow_cons, refused]
  simp

end Consumer

end Json

namespace Config

open Json (Value Consumer)

/-! ## Inside a skipped value -/

theorem follow_cons_skipped (stage : Stage) (n : Nat) (event : Json.Event)
    (events : List Json.Event) :
    Schema.consumer.follow ⟨stage, n + 1⟩ (event :: events) =
      Schema.consumer.follow ⟨stage, Schema.skip (n + 1) event⟩ events := by
  have skips (heard : Json.Event) : Schema.consumer.accept ⟨stage, n + 1⟩ heard =
      .ok ⟨stage, Schema.skip (n + 1) heard⟩ := by
    simp [Schema.consumer, Schema.accept]
  rw [Consumer.follow_cons, skips]
  cases event <;> rfl

mutual

/-- Inside a skipped value every value is skipped to its end. -/
theorem follow_skipped (stage : Stage) (n : Nat) :
    (v : Value) → Schema.consumer.follow ⟨stage, n + 1⟩ v.events = .ok ⟨stage, n + 1⟩
  | .null | .boolean _ | .number _ | .text _ => by
    rw [Value.events, follow_cons_skipped]
    rfl
  | .array items => by
    rw [Value.events, follow_cons_skipped]
    change Schema.consumer.follow ⟨stage, n + 1 + 1⟩ _ = _
    rw [Consumer.follow_append_of_ok (follow_skippedElements stage (n + 1) items),
      follow_cons_skipped]
    rfl
  | .object members => by
    rw [Value.events, follow_cons_skipped]
    change Schema.consumer.follow ⟨stage, n + 1 + 1⟩ _ = _
    rw [Consumer.follow_append_of_ok (follow_skippedMembers stage (n + 1) members),
      follow_cons_skipped]
    rfl

theorem follow_skippedElements (stage : Stage) (n : Nat) :
    (items : List Value) →
      Schema.consumer.follow ⟨stage, n + 1⟩ (Value.eventsOfElements items) = .ok ⟨stage, n + 1⟩
  | [] => by
    rw [Value.eventsOfElements]
    rfl
  | item :: items => by
    rw [Value.eventsOfElements, Consumer.follow_append_of_ok (follow_skipped stage n item)]
    exact follow_skippedItems stage n items

theorem follow_skippedItems (stage : Stage) (n : Nat) :
    (items : List Value) →
      Schema.consumer.follow ⟨stage, n + 1⟩ (Value.eventsOfItems items) = .ok ⟨stage, n + 1⟩
  | [] => by
    rw [Value.eventsOfItems]
    rfl
  | item :: items => by
    rw [Value.eventsOfItems, follow_cons_skipped]
    change Schema.consumer.follow ⟨stage, n + 1⟩ _ = _
    rw [Consumer.follow_append_of_ok (follow_skipped stage n item)]
    exact follow_skippedItems stage n items

theorem follow_skippedMembers (stage : Stage) (n : Nat) :
    (members : List (String × Value)) →
      Schema.consumer.follow ⟨stage, n + 1⟩ (Value.eventsOfMembers members) = .ok ⟨stage, n + 1⟩
  | [] => by
    rw [Value.eventsOfMembers]
    rfl
  | (key, v) :: members => by
    rw [Value.eventsOfMembers, follow_cons_skipped]
    change Schema.consumer.follow ⟨stage, n + 1⟩ _ = _
    rw [Consumer.follow_append_of_ok (follow_skipped stage n v)]
    exact follow_skippedMembers stage n members

end

/-! ## Where a value begins -/

/-- The events that a value begins with. -/
def BeginsValue : Json.Event → Prop
  | .null | .boolean _ | .number | .text _ | .openArray | .openObject => True
  | .element | .closeArray | .key _ | .closeObject => False

theorem accept_configValue (d : Draft) {event : Json.Event} (begins : BeginsValue event) :
    Schema.consumer.accept ⟨.config d, 0⟩ event = Schema.acceptField d event := by
  cases event with
  | element | closeArray | key _ | closeObject => cases begins
  | null | boolean _ | number | text _ | openArray | openObject => rfl

theorem accept_wrappersValue (outer : Draft) (d : WrappersDraft) {event : Json.Event}
    (begins : BeginsValue event) :
    Schema.consumer.accept ⟨.wrappers outer d, 0⟩ event = Schema.acceptSlot outer d event := by
  cases event with
  | element | closeArray | key _ | closeObject => cases begins
  | null | boolean _ | number | text _ | openArray | openObject => rfl

theorem accept_unawaited {stage : Stage} (nothing : Schema.awaitsNothing stage = true)
    {event : Json.Event} (begins : BeginsValue event) :
    Schema.consumer.accept ⟨stage, 0⟩ event = Schema.skipValue stage event := by
  cases stage with
  | start | done _ => cases nothing
  | config d =>
    have unawaited : d.awaiting = none := Option.isNone_iff_eq_none.mp nothing
    simp only [accept_configValue d begins, Schema.acceptField, unawaited]
  | wrappers outer d =>
    have unawaited : d.awaiting = none := Option.isNone_iff_eq_none.mp nothing
    simp only [accept_wrappersValue outer d begins, Schema.acceptSlot, unawaited]

/-- A value that nothing awaits leaves no trace. -/
theorem follow_unawaited {stage : Stage} (nothing : Schema.awaitsNothing stage = true) (v : Value) :
    Schema.consumer.follow ⟨stage, 0⟩ v.events = .ok ⟨stage, 0⟩ := by
  cases v with
  | null | boolean _ | number _ | text _ =>
    rw [Value.events, Consumer.follow_singleton]
    exact accept_unawaited nothing trivial
  | array items =>
    have opened : Schema.consumer.accept ⟨stage, 0⟩ .openArray = .ok ⟨stage, 0 + 1⟩ :=
      accept_unawaited nothing trivial
    rw [Value.events, Consumer.follow_cons_of_ok .openArray opened,
      Consumer.follow_append_of_ok (follow_skippedElements stage 0 items), follow_cons_skipped]
    rfl
  | object members =>
    have opened : Schema.consumer.accept ⟨stage, 0⟩ .openObject = .ok ⟨stage, 0 + 1⟩ :=
      accept_unawaited nothing trivial
    rw [Value.events, Consumer.follow_cons_of_ok .openObject opened,
      Consumer.follow_append_of_ok (follow_skippedMembers stage 0 members), follow_cons_skipped]
    rfl

/-- Nothing that is awaited is a number. -/
theorem refusesNumbers : Schema.consumer.RefusesNumbers := by
  rintro ⟨stage, skipped⟩ used
  have unskipped : ¬ (0 < skipped ∨ Schema.awaitsNothing stage = true) := by
    intro skips
    have skipsValue : Schema.consumer.valueCare ⟨stage, skipped⟩ = .skipped := if_pos skips
    rw [skipsValue] at used
    cases used
  obtain rfl : skipped = 0 := by omega
  have begins : BeginsValue .number := trivial
  cases stage with
  | start | done _ => exact ⟨_, rfl⟩
  | config d =>
    rw [accept_configValue d begins]
    cases awaiting : d.awaiting with
    | none => exact absurd (.inr (Option.isNone_iff_eq_none.mpr awaiting)) unskipped
    | some f => cases f <;> exact ⟨.mismatched, by simp only [Schema.acceptField, awaiting]⟩
  | wrappers outer d =>
    rw [accept_wrappersValue outer d begins]
    cases awaiting : d.awaiting with
    | none => exact absurd (.inr (Option.isNone_iff_eq_none.mpr awaiting)) unskipped
    | some slot => exact ⟨.mismatched, by simp only [Schema.acceptSlot, awaiting]⟩

end Config

end TemplateScript

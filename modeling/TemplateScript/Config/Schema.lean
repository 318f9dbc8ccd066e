import TemplateScript.Config.Basic
import TemplateScript.Json.Reader

namespace TemplateScript
namespace Config

/-!
# Which JSON texts are configurations

A configuration is an object with the members `preset` and `delimiters`, or an
array of the two values; the wrappers inside are an object with one member for
every slot, or an array of the four strings.  Known members occur at most once,
and members with other names are skipped, whatever they hold.

The schema is a consumer of the events of a text, so a value of the wrong kind
is refused as soon as it is known.
-/

/-- The members of a configuration. -/
inductive Field where
  | preset
  | wrappers
  deriving DecidableEq

namespace Field

/-- The field of a member's name. -/
def ofKey? (name : String) : Option Field :=
  if name = "preset" then some .preset
  else if name = "delimiters" then some .wrappers
  else none

end Field

/-- A configuration that is being read. -/
structure Draft where
  /-- The preset, once its value is known; `null` is a value. -/
  preset : Option (Option String) := none
  /-- The wrappers, once their value is known; `null` is a value. -/
  wrappers : Option (Option Wrappers) := none
  /-- What the next value is for; none if it is skipped. -/
  awaiting : Option Field
  deriving DecidableEq

namespace Draft

/-- Is the value of a field known? -/
def has (d : Draft) : Field → Bool
  | .preset => d.preset.isSome
  | .wrappers => d.wrappers.isSome

/-- The configuration; fields that did not occur are absent. -/
def config (d : Draft) : Config := ⟨d.preset.join, d.wrappers.join⟩

end Draft

/-- Wrappers that are being read. -/
structure WrappersDraft where
  texts : PartialWrappers := {}
  /-- What the next value is for; none if it is skipped. -/
  awaiting : Option Slot
  deriving DecidableEq

/-- Which part of a configuration is being read. -/
inductive Stage where
  /-- Nothing yet. -/
  | start
  /-- The configuration itself. -/
  | config (d : Draft)
  /-- Its wrappers. -/
  | wrappers (outer : Draft) (d : WrappersDraft)
  | done (c : Config)
  deriving DecidableEq

/-- The part being read, and how many brackets of a skipped value are open in it. -/
structure Schema where
  stage : Stage
  skipped : Nat
  deriving DecidableEq

namespace Schema

open Json (Care Event Fault Consumer)

/-- Before the first event. -/
def begin : Schema := ⟨.start, 0⟩

/-- Is the next value skipped, as far as the stage is concerned? -/
def awaitsNothing : Stage → Bool
  | .config d => d.awaiting.isNone
  | .wrappers _ d => d.awaiting.isNone
  | .start | .done _ => false

/-- The next value is skipped inside a skipped one, and after an unknown key. -/
def valueCare (s : Schema) : Care :=
  if 0 < s.skipped ∨ awaitsNothing s.stage then .skipped else .used

/-- A key is skipped inside a skipped value only. -/
def keyCare (s : Schema) : Care := if 0 < s.skipped then .skipped else .used

/-- An event inside a skipped value. -/
def skip (depth : Nat) : Event → Nat
  | .openArray | .openObject => depth + 1
  | .closeArray | .closeObject => depth - 1
  | _ => depth

/-- A value that is skipped begins: nothing is open in it, or its bracket. -/
def skipValue (stage : Stage) : Event → Except Fault Schema
  | .openArray | .openObject => .ok ⟨stage, 1⟩
  | _ => .ok ⟨stage, 0⟩

/-- The configuration as a whole is awaited. -/
def acceptStart : Event → Except Fault Schema
  | .openArray => .ok ⟨.config { awaiting := some .preset }, 0⟩
  | .openObject => .ok ⟨.config { awaiting := none }, 0⟩
  | _ => .error .mismatched

/-- A value inside the configuration. -/
def acceptField (d : Draft) (event : Event) : Except Fault Schema :=
  match d.awaiting, event with
  | none, event => skipValue (.config d) event
  | some .preset, .null => .ok ⟨.config { d with preset := some none }, 0⟩
  | some .preset, .text s => .ok ⟨.config { d with preset := some (some s) }, 0⟩
  | some .wrappers, .null => .ok ⟨.config { d with wrappers := some none }, 0⟩
  | some .wrappers, .openArray => .ok ⟨.wrappers d { awaiting := some .outputStart }, 0⟩
  | some .wrappers, .openObject => .ok ⟨.wrappers d { awaiting := none }, 0⟩
  | some _, _ => .error .mismatched

/-- An event directly inside the configuration. -/
def acceptConfig (d : Draft) (event : Event) : Except Fault Schema :=
  match event with
  | .key name =>
    match Field.ofKey? name with
    | none => .ok ⟨.config { d with awaiting := none }, 0⟩
    | some f =>
      if d.has f then .error .mismatched else .ok ⟨.config { d with awaiting := some f }, 0⟩
  | .element =>
    if d.awaiting = some .preset then .ok ⟨.config { d with awaiting := some .wrappers }, 0⟩
    else .error .malformed
  | .closeArray | .closeObject => .ok ⟨.done d.config, 0⟩
  | event => acceptField d event

/-- A value inside the wrappers. -/
def acceptSlot (outer : Draft) (d : WrappersDraft) (event : Event) : Except Fault Schema :=
  match d.awaiting, event with
  | none, event => skipValue (.wrappers outer d) event
  | some slot, .text s => .ok ⟨.wrappers outer { d with texts := d.texts.set s slot }, 0⟩
  | some _, _ => .error .mismatched

/-- An event directly inside the wrappers. -/
def acceptWrappers (outer : Draft) (d : WrappersDraft) (event : Event) : Except Fault Schema :=
  match event with
  | .key name =>
    match Slot.ofKey? name with
    | none => .ok ⟨.wrappers outer { d with awaiting := none }, 0⟩
    | some slot =>
      if (d.texts.get? slot).isSome then .error .mismatched
      else .ok ⟨.wrappers outer { d with awaiting := some slot }, 0⟩
  | .element =>
    match d.awaiting.bind Slot.next? with
    | some slot => .ok ⟨.wrappers outer { d with awaiting := some slot }, 0⟩
    | none => .error .malformed
  | .closeArray | .closeObject =>
    match d.texts.complete? with
    | some w => .ok ⟨.config { outer with wrappers := some (some w) }, 0⟩
    | none => .error .mismatched
  | event => acceptSlot outer d event

/-- What the schema makes of an event. -/
def accept (s : Schema) (event : Event) : Except Fault Schema :=
  if 0 < s.skipped then .ok ⟨s.stage, skip s.skipped event⟩
  else
    match s.stage with
    | .start => acceptStart event
    | .config d => acceptConfig d event
    | .wrappers outer d => acceptWrappers outer d event
    | .done _ => .error .mismatched

/-- The schema as the consumer of a text. -/
def consumer : Consumer Schema where
  valueCare := valueCare
  keyCare := keyCare
  accept := accept

end Schema

/-- The configuration that a text holds. -/
def parse (text : List Char) : Except Json.Fault Config :=
  match Json.Reader.read Schema.consumer Schema.begin text with
  | .ok ⟨.done c, _⟩ => .ok c
  | .ok _ => .error .truncated
  | .error f => .error f

end Config
end TemplateScript

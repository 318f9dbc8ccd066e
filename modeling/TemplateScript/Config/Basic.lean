import TemplateScript.Preset

namespace TemplateScript

/-!
# Configurations

A configuration chooses wrappers, by the name of a preset or by giving them
outright.  Wrappers that are given win over a name.
-/

/-- A stored choice of wrappers. -/
structure Config where
  /-- The name of a preset; no name stands for the standard one. -/
  preset : Option String
  wrappers : Option Wrappers
  deriving DecidableEq

namespace Config

/-- The configuration that is written when one is asked for. -/
def standard : Config := ⟨some Preset.standard.name, none⟩

/-- The wrappers that a configuration chooses. -/
def resolve (c : Config) : Except Failure Wrappers :=
  match c.wrappers, c.preset with
  | some w, _ => .ok w
  | none, some name =>
    match Preset.ofName name with
    | .ok p => .ok p.wrappers
    | .error f => .error f
  | none, none => .ok Preset.standard.wrappers

/-- The configuration as a document. -/
def document (c : Config) : Json.Document :=
  .object
    [("preset", match c.preset with
      | some name => .text name
      | none => .null),
     ("delimiters", match c.wrappers with
      | some w => w.document
      | none => .null)]

/-- The text that a configuration is stored as. -/
def render (c : Config) : String := c.document.render ++ "\n"

end Config

end TemplateScript

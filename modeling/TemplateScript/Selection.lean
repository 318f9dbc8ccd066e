import TemplateScript.Escape
import TemplateScript.Config.File

namespace TemplateScript

/-!
# Choosing the wrappers for a template

A preset that is asked for wins over a configuration, a configuration over the
preset that claims the template's extension, and that one over the standard
preset.  Strings that are given for single slots replace whatever was chosen
there.
-/

/-- The presets that can be asked for. -/
inductive Choice where
  | embeddedJavaScript
  | print
  | markers
  deriving DecidableEq

namespace Choice

/-- The name of the preset that is asked for. -/
def name : Choice → String
  | .embeddedJavaScript => "embedded-javascript"
  | .print => "print"
  | .markers => "markers"

/-- The choice that a word stands for. -/
def ofWord? (word : String) : Option Choice :=
  if word = "embedded-javascript" then some .embeddedJavaScript
  else if word = "print" then some .print
  else if word = "markers" then some .markers
  else none

end Choice

/-- What was asked for: a preset, and strings for single slots with escapes. -/
structure Selection where
  preset : Option Choice := none
  strings : PartialWrappers := {}
  deriving DecidableEq

namespace Selection

/-- The wrappers for a template where there is no configuration. -/
def byExtension (input : Path) : Outcome Wrappers :=
  match input.extension?.bind Preset.ofExtension? with
  | some p => ⟨[.usingPreset p.name input.spelling], .ok p.wrappers⟩
  | none => .pure Preset.standard.wrappers

/-- The wrappers before single strings are replaced.  Only the standard
configuration may be missing without notice. -/
def base (s : Selection) (config input : Path) : Action Wrappers :=
  match s.preset with
  | some choice => do
    let p ← .ofExcept (Preset.ofName choice.name)
    return p.wrappers
  | none =>
    .probe config fun
      | true => .note [.usingConfig config.spelling] (Config.loadWrappers config)
      | false =>
        .note (if config.sameAs Config.standardPath then [] else [.configMissing config.spelling])
          (.ofOutcome (byExtension input))

/-- The wrappers for a template. -/
def resolve (s : Selection) (config input : Path) : Action Wrappers := do
  let w ← s.base config input
  return w.override (s.strings.map Escape.decode)

end Selection

end TemplateScript

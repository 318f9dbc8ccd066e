import TemplateScript.Selection
import TemplateScript.Transpile

namespace TemplateScript

/-!
# Commands

There are four commands: transpile one template, check several, list the
presets, and write a configuration.  A command is an action, so what it does
can be followed in any world.
-/

/-- What can be asked for. -/
inductive Command where
  /-- Write the script to a file, or to standard output; a timeout is given in
  milliseconds. -/
  | transpile (input : Path) (selection : Selection) (output : Option Path)
      (timeout : Option Nat)
  | check (inputs : List Path) (selection : Selection)
  | presets (json : Bool)
  | init
  deriving DecidableEq

namespace Command

/-! ## Lines of output -/

/-- A title, underlined. -/
def header (title : String) : Action Unit := do
  .printLine ("\n" ++ title)
  .printLine (String.ofList (List.replicate title.length '='))

/-- A line of success. -/
def success (text : String) : Action Unit := .printLine ("[OK] " ++ text)

/-- A line of failure. -/
def failure (text : String) : Action Unit := .printLine ("[ERROR] " ++ text)

/-- A detail. -/
def detail (key value : String) : Action Unit := .printLine ("  " ++ key ++ ": " ++ value)

/-! ## Templates -/

/-- A template that has been opened but not read. -/
inductive Opened where
  | standardInput
  | entry (e : Entry)
  deriving DecidableEq

/-- The path that stands for standard input. -/
def standardInput : Path := ⟨"-"⟩

/-- Open a template. -/
def openTemplate (input : Path) : Action Opened :=
  if input.sameAs standardInput then .done .standardInput
  else
    .probe input fun
      | false => .fail (.inputNotFound input.spelling)
      | true =>
        .access input fun
          | .ok e => .done (.entry e)
          | .error cause => .fail (.io cause)

namespace Opened

/-- What reading a template delivers.  A directory can be opened, but not read. -/
def events : Opened → Action (List ReadEvent)
  | .standardInput => .input fun bytes => .done [.chunk bytes]
  | .entry (.file bytes) => .done [.chunk bytes]
  | .entry .directory => .done [.failure .directory]

/-- All bytes of a template. -/
def bytes : Opened → Action Bytes
  | .standardInput => .input .done
  | .entry (.file bytes) => .done bytes
  | .entry .directory => .fail (.io .directory)

/-- The script of a template that is read as it is scanned. -/
def transpile (w : Wrappers) (t : Opened) : Action String := do
  let events ← t.events
  .ofOutcome (w.transpileReader events)

/-- The script of a template that is read first and then scanned within a limit. -/
def transpileWithin (w : Wrappers) (limit : Duration) (t : Opened) : Action String := do
  let bytes ← t.bytes
  .deadline limit fun inTime => .ofOutcome (w.transpileWithin limit inTime bytes)

end Opened

/-! ## The commands -/

/-- The script of the template at a path. -/
def script (config input : Path) (selection : Selection) (timeout : Option Nat) :
    Action String := do
  let w ← selection.resolve config input
  let template ← openTemplate input
  .note [.transpiling input.spelling] (.done ())
  match timeout with
  | some ms => template.transpileWithin w (.ofMilliseconds ms)
  | none => template.transpile w

/-- Where a script goes. -/
def deliver (input : Path) (output : Option Path) (script : String) : Action Unit :=
  match output with
  | none => .print script (.done ())
  | some path =>
    .store path (Utf8.encode script.toList) fun
      | .error cause => .fail (.io cause)
      | .ok () => do
        success ("Transpiled " ++ input.spelling)
        detail "Output" path.spelling
        detail "Script size" (toString script.utf8ByteSize ++ " bytes")

/-- The size of the script of the template at a path. -/
def checkOne (config : Path) (selection : Selection) (input : Path) : Action Nat := do
  let w ← selection.resolve config input
  let template ← openTemplate input
  let script ← template.transpile w
  return script.utf8ByteSize

/-- Check templates one after another; the result is how many failed, on top of
those that failed before. -/
def checkEach (explain : Json.Explanation) (config : Path) (selection : Selection) :
    List Path → Nat → Action Nat
  | [], failed => .done failed
  | input :: rest, failed => do
    match ← (checkOne config selection input).attempt with
    | .ok size =>
      success (input.spelling ++ " (" ++ toString size ++ " bytes)")
      checkEach explain config selection rest failed
    | .error f =>
      failure (input.spelling ++ ": " ++ f.chain explain)
      checkEach explain config selection rest (failed + 1)

/-- Check templates, and fail if one of them does. -/
def checkAll (explain : Json.Explanation) (config : Path) (selection : Selection)
    (inputs : List Path) : Action Unit := do
  header "scriptlet check"
  let failed ← checkEach explain config selection inputs 0
  if failed = 0 then return ()
  else .fail (.failedTemplates failed inputs.length)

/-- A preset's part of the list. -/
def describe (p : Preset) : Action Unit := do
  let mark := if p.name = Preset.standard.name then " (default)" else ""
  .printLine ("\n" ++ p.name ++ mark ++ ": " ++ p.description)
  detail "output-start" (Quotation.quote p.wrappers.outputStart)
  detail "output-end" (Quotation.quote p.wrappers.outputEnd)
  detail "expr-start" (Quotation.quote p.wrappers.exprStart)
  detail "expr-end" (Quotation.quote p.wrappers.exprEnd)
  if !p.extensions.isEmpty then
    detail "extensions" (String.intercalate ", " p.extensions)
  if !p.mimeTypes.isEmpty then
    detail "mime types" (String.intercalate ", " p.mimeTypes)

/-- List the presets, for people or for programs. -/
def listPresets (json : Bool) : Action Unit := do
  if json then
    .printLine (Json.Document.array (Preset.all.map Preset.document)).render
  else
    header "scriptlet presets"
    Preset.all.forM describe
    .printLine ""

/-- Write a configuration and say what to do next. -/
def initialConfig (config : Path) : Action Unit := do
  header "scriptlet init"
  let c ← Config.init config
  success ("Created " ++ config.spelling)
  match c.preset with
  | some name => detail "Preset" name
  | none => pure ()
  .printLine ""
  .printLine "  Next steps:"
  .printLine "    scriptlet presets"
  .printLine "    scriptlet transpile page.ejs -o page.js"
  .printLine ""

/-- Carry out a command with the configuration at a path. -/
def action (explain : Json.Explanation) (config : Path) : Command → Action Unit
  | .transpile input selection output timeout => do
    let text ← script config input selection timeout
    deliver input output text
  | .check inputs selection => checkAll explain config selection inputs
  | .presets json => listPresets json
  | .init => initialConfig config

end Command

end TemplateScript

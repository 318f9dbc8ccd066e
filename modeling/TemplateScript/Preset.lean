import TemplateScript.Failure
import TemplateScript.Wrappers
import TemplateScript.Json.Document

namespace TemplateScript

/-!
# Built-in wrappers

A preset is a named choice of the four wrapper strings, together with what is
known about the templates it suits.
-/

namespace Wrappers

/-- The wrappers as a document, one member for every slot. -/
def document (w : Wrappers) : Json.Document :=
  .object [(Slot.outputStart.key, .text w.outputStart), (Slot.outputEnd.key, .text w.outputEnd),
    (Slot.exprStart.key, .text w.exprStart), (Slot.exprEnd.key, .text w.exprEnd)]

end Wrappers

/-- A named choice of wrappers. -/
structure Preset where
  name : String
  description : String
  language : String
  /-- The file extensions of templates that take this preset unasked. -/
  extensions : List String
  mimeTypes : List String
  wrappers : Wrappers
  deriving DecidableEq

namespace Preset

def embeddedJavaScript : Preset where
  name := "embedded-javascript"
  description := "Embedded JavaScript (.ejs) writing to context.getWriter()"
  language := "EmbeddedECMAScript"
  extensions := ["ejs"]
  mimeTypes := ["application/embeddedjavascript", "text/embeddedjavascript"]
  wrappers :=
    { outputStart := "context.getWriter().write(\""
      outputEnd := "\");\n"
      exprStart := "context.getWriter().write("
      exprEnd := ");\n" }

def print : Preset where
  name := "print"
  description := "print(...) statements, one per line"
  language := "ECMAScript"
  extensions := []
  mimeTypes := []
  wrappers :=
    { outputStart := "print(\""
      outputEnd := "\");\n"
      exprStart := "print("
      exprEnd := ");\n" }

def markers : Preset where
  name := "markers"
  description := "Visible <emit-*> markers for inspecting statement boundaries"
  language := "none"
  extensions := []
  mimeTypes := []
  wrappers :=
    { outputStart := "<emit-open>"
      outputEnd := "<emit-close>\n"
      exprStart := "<emit-expr-open>"
      exprEnd := "<emit-expr-close>\n" }

/-- The preset that is taken when nothing else is said. -/
def standard : Preset := embeddedJavaScript

/-- All presets, in the order in which they are listed. -/
def all : List Preset := [embeddedJavaScript, print, markers]

/-- The names that the message for an unknown preset offers are those of all presets. -/
theorem supportedPresets_eq :
    Failure.supportedPresets = String.intercalate ", " (all.map Preset.name) := by
  decide

/-- The preset of a name, or a failure that lists the names there are. -/
def ofName (name : String) : Except Failure Preset :=
  if name = "embedded-javascript" then .ok embeddedJavaScript
  else if name = "print" then .ok print
  else if name = "markers" then .ok markers
  else .error (.unknownPreset name)

/-- Are two extensions the same up to the case of English letters? -/
def sameExtension (a b : String) : Bool := a.toLower = b.toLower

/-- The preset that claims an extension. -/
def ofExtension? (extension : String) : Option Preset :=
  all.find? fun p => p.extensions.any (sameExtension extension)

/-- All there is to know about a preset. -/
def document (p : Preset) : Json.Document :=
  .object [("name", .text p.name), ("description", .text p.description),
    ("language", .text p.language), ("extensions", .array (p.extensions.map .text)),
    ("mime_types", .array (p.mimeTypes.map .text)), ("delimiters", p.wrappers.document)]

end Preset

end TemplateScript

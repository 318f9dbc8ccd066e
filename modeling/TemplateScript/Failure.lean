import TemplateScript.Duration
import TemplateScript.IoFailure
import TemplateScript.Position
import TemplateScript.Json.Fault
import TemplateScript.Scan.State

namespace TemplateScript

/-!
# Failures and their texts

Every operation of the library fails with a cause below.  The wording is given
in one place, by `message` for the failure itself and by `sources` for what
lies behind it.  Only what is wrong with the text of a configuration is put into
words elsewhere, so these words are asked for where they are needed.
-/

namespace Scan.Malformation

/-- The reason in words. -/
def text : Scan.Malformation → String
  | .unterminatedCode => "unterminated code directive"
  | .unterminatedExpression => "unterminated expression directive"
  | .noTransition => "no transition for input character"

end Scan.Malformation

/-- Why an operation has no result. -/
inductive Failure where
  /-- The template has no script. -/
  | malformedTemplate (reason : Scan.Malformation) (place : Position)
  /-- The template could not be read. -/
  | unreadableInput (cause : IoFailure)
  /-- The scan was not done within the limit. -/
  | timedOut (limit : Duration)
  /-- There is no template at the path. -/
  | inputNotFound (path : String)
  /-- The configuration could not be read. -/
  | unreadableConfig (path : String) (cause : IoFailure)
  /-- The configuration is not one; its text says all about why. -/
  | invalidConfig (path : String) (fault : Json.Fault) (text : List Char)
  /-- A new configuration would replace something. -/
  | configExists (path : String)
  /-- No preset has the name. -/
  | unknownPreset (name : String)
  /-- The script was run and failed. -/
  | execution (message : String)
  /-- Some templates of a list could not be transpiled. -/
  | failedTemplates (failed total : Nat)
  /-- Reading or writing a file failed. -/
  | io (cause : IoFailure)
  /-- A failure from outside, and what was being done meanwhile, innermost first. -/
  | other (root : String) (contexts : List String)
  deriving DecidableEq

namespace Failure

/-- The names that an unknown preset's message offers. -/
def supportedPresets : String := "embedded-javascript, print, markers"

/-- The texts of a failure from outside, outermost first. -/
def layers (root : String) (contexts : List String) : List String :=
  contexts.reverse ++ [root]

/-- The failure in words. -/
def message : Failure → String
  | .malformedTemplate reason place =>
    "malformed template: " ++ reason.text ++ " at line " ++ toString place.line ++
      ", column " ++ toString place.column
  | .unreadableInput _ => "failed to read template input"
  | .timedOut limit => "transpilation timed out after " ++ limit.text
  | .inputNotFound path => "input file not found: " ++ path
  | .unreadableConfig path _ => "config file not found at " ++ path
  | .invalidConfig path _ _ => "failed to parse config at " ++ path
  | .configExists path => "config file already exists: " ++ path
  | .unknownPreset name =>
    "unknown preset: " ++ name ++ " (supported: " ++ supportedPresets ++ ")"
  | .execution message => "script execution failed: " ++ message
  | .failedTemplates failed total =>
    toString failed ++ " of " ++ toString total ++ " templates failed to transpile"
  | .io cause => cause.message
  | .other root contexts => (layers root contexts).headD root

/-- The texts of what lies behind a failure, nearest first. -/
def sources (explain : Json.Explanation) : Failure → List String
  | .unreadableInput cause => [cause.message]
  | .unreadableConfig _ cause => [cause.message]
  | .invalidConfig _ _ text => [explain text]
  | .other root contexts => (layers root contexts).drop 1
  | _ => []

/-- The failure and all that lies behind it, on one line. -/
def chain (explain : Json.Explanation) (f : Failure) : String :=
  String.intercalate ": " (f.message :: f.sources explain)

/-- The failure as a report of its own: the sources follow under a heading. -/
def report (explain : Json.Explanation) (f : Failure) : String :=
  "Error: " ++ f.message ++ "\n" ++
    match f.sources explain with
    | [] => ""
    | [cause] => "\nCaused by:\n    " ++ cause ++ "\n"
    | causes =>
      "\nCaused by:\n" ++ String.join (causes.zipIdx.map fun (cause, i) =>
        "    " ++ toString i ++ ": " ++ cause ++ "\n")

end Failure

end TemplateScript

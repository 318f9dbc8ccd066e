import TemplateScript.Position
import TemplateScript.Quotation

namespace TemplateScript
namespace Log

/-!
# The log

What the library reports while it works is a list of records.  A record says
what happened; its level and its line of text are derived from that.
-/

/-- How much attention a record deserves. -/
inductive Level where
  | warn
  | info
  | debug
  | trace
  deriving DecidableEq

namespace Level

/-- The level's name in a line of the log. -/
def text : Level → String
  | .warn => "WARN"
  | .info => "INFO"
  | .debug => "DEBUG"
  | .trace => "TRACE"

/-- The number of verbosity steps at which the level is shown. -/
def rank : Level → Nat
  | .warn => 0
  | .info => 1
  | .debug => 2
  | .trace => 3

end Level

/-- Something that happened. -/
inductive Record where
  /-- A directive was opened; the place is that of its `%`. -/
  | directiveOpened (place : Position)
  /-- A scan ended with a script of `size` bytes. -/
  | transpiled (chars size : Nat)
  /-- A script of `size` bytes goes to the executor. -/
  | executing (executor : String) (size : Nat)
  /-- The wrappers come from this configuration. -/
  | usingConfig (path : String)
  /-- There is no configuration at the path that was asked for. -/
  | configMissing (path : String)
  /-- The wrappers come from the preset that claims the input's extension. -/
  | usingPreset (name input : String)
  /-- A template is about to be transpiled. -/
  | transpiling (input : String)
  deriving DecidableEq

namespace Record

/-- The level of a record. -/
def level : Record → Level
  | .directiveOpened _ => .trace
  | .transpiled _ _ | .executing _ _ | .usingConfig _ | .usingPreset _ _ => .debug
  | .transpiling _ => .info
  | .configMissing _ => .warn

/-- The record in words, with its fields. -/
def text : Record → String
  | .directiveOpened place =>
    "directive opened line=" ++ toString place.line ++ " column=" ++ toString place.column
  | .transpiled chars size =>
    "transpiled template chars=" ++ toString chars ++ " script_len=" ++ toString size
  | .executing executor size =>
    "executing transpiled template executor=" ++ Quotation.quote executor ++ " script_len=" ++
      toString size
  | .usingConfig path => "using config " ++ path
  | .configMissing path => "config file " ++ path ++ " not found, using built-in defaults"
  | .usingPreset name input => "using preset " ++ name ++ " for " ++ input
  | .transpiling input => "transpiling " ++ input

/-- The record's line of the log.  A path in it may hold any character, so what
would steer a terminal is spelled out. -/
def line (r : Record) : String := r.level.text ++ " " ++ Quotation.harmless r.text

/-- Is the record shown at this verbosity? -/
def shownAt (verbosity : Nat) (r : Record) : Bool := r.level.rank ≤ verbosity

end Record

end Log
end TemplateScript

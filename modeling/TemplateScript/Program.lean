import TemplateScript.Arguments

namespace TemplateScript
namespace Program

/-!
# The program as a whole

From a command line to an exit status: 0 for success, 1 for a failed command,
2 for a command line that does not fit.
-/

/-- What a run leaves behind, apart from files. -/
structure Report where
  status : Nat
  output : String := ""
  errors : String := ""
  log : List Log.Record := []
  deriving DecidableEq

/-- The program's name and version; a command is named along with it. -/
def versionText : Option Arguments.Subcommand → String
  | none => "scriptlet 0.1.0\n"
  | some command => "scriptlet-" ++ command.name ++ " 0.1.0\n"

/-- What can be asked for. -/
def helpText : String :=
  "Transpile <% %> templates into executable scripts\n" ++
  "\n" ++
  "Usage: scriptlet [OPTIONS] <COMMAND>\n" ++
  "\n" ++
  "Commands:\n" ++
  "  transpile  Transpile a template into a script\n" ++
  "  check      Check that templates transpile without errors\n" ++
  "  presets    List the built-in delimiter presets\n" ++
  "  init       Write a default scriptlet.config.json\n" ++
  "  help       Print this message or the help of the given subcommand(s)\n" ++
  "\n" ++
  "Options:\n" ++
  "      --config <CONFIG>  Path to scriptlet.config.json (default: ./scriptlet.config.json) [default: scriptlet.config.json]\n" ++
  "  -v, --verbose...       Verbosity level (-v, -vv, -vvv)\n" ++
  "  -h, --help             Print help\n" ++
  "  -V, --version          Print version\n"

/-- What to say when a command line does not fit. -/
def usageText : String :=
  "error: the arguments do not fit\n\nFor more information, try '--help'.\n"

/-- The report of a command line that asks for no command. -/
def stopped : Arguments.Stop → Report
  | .usage => { status := 2, errors := usageText }
  | .version command => { status := 0, output := versionText command }
  | .help => { status := 0, output := helpText }

/-- The records that an invocation shows. -/
def shown (verbosity : Nat) (log : List Log.Record) : List Log.Record :=
  log.filter (Log.Record.shownAt verbosity)

/-- The report of a command that was carried out. -/
def finished (explain : Json.Explanation) (verbosity : Nat) (result : Except Failure Unit)
    (after : World) : Report :=
  match result with
  | .ok () => { status := 0, output := after.output, log := shown verbosity after.log }
  | .error f =>
    { status := 1, output := after.output, errors := f.report explain,
      log := shown verbosity after.log }

/-- Run the program in a world. -/
def run (explain : Json.Explanation) (args : List String) (timeoutVariable : Option String)
    (w : World) : Report × World :=
  match Arguments.read timeoutVariable args with
  | .error stop => (stopped stop, w)
  | .ok invocation =>
    let (result, after) := (invocation.command.action explain invocation.config).run w
    (finished explain invocation.verbosity result after, after)

end Program
end TemplateScript

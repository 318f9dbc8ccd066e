import TemplateScript.Command

namespace TemplateScript
namespace Arguments

/-!
# Command lines

A command line is read from left to right, first for the program and, after
the name of a command, for that command.  Each argument either is an option,
belongs to the option before it, or stands for itself.  The first thing that
does not fit ends the reading, and so do requests for help or for the version.
A value in an argument of its own is looked at only when its level goes on, so
a request to the command comes before a bad value in front of the command.

Options that both levels know count for the level they are met at; what is said
after the command's name wins over what is said before it.
-/

/-- The names of the commands. -/
inductive Subcommand where
  | transpile
  | check
  | presets
  | init
  deriving DecidableEq

namespace Subcommand

/-- The command's name. -/
def name : Subcommand → String
  | .transpile => "transpile"
  | .check => "check"
  | .presets => "presets"
  | .init => "init"

/-- The command of a name. -/
def ofName? (name : String) : Option Subcommand :=
  if name = "transpile" then some .transpile
  else if name = "check" then some .check
  else if name = "presets" then some .presets
  else if name = "init" then some .init
  else none

end Subcommand

/-- The options that have no value. -/
inductive Switch where
  | verbose
  | version
  | help
  | json
  deriving DecidableEq

/-- The options that have one. -/
inductive Setting where
  | config
  | preset
  | wrapper (slot : Slot)
  | output
  | timeout
  deriving DecidableEq

/-- An option. -/
inductive Opt where
  | switch (s : Switch)
  | setting (s : Setting)
  deriving DecidableEq

/-- The option of a long name. -/
def Opt.ofName? (name : String) : Option Opt :=
  if name = "verbose" then some (.switch .verbose)
  else if name = "version" then some (.switch .version)
  else if name = "help" then some (.switch .help)
  else if name = "json" then some (.switch .json)
  else if name = "config" then some (.setting .config)
  else if name = "preset" then some (.setting .preset)
  else if name = "output-start" then some (.setting (.wrapper .outputStart))
  else if name = "output-end" then some (.setting (.wrapper .outputEnd))
  else if name = "expr-start" then some (.setting (.wrapper .exprStart))
  else if name = "expr-end" then some (.setting (.wrapper .exprEnd))
  else if name = "output" then some (.setting .output)
  else if name = "timeout-ms" then some (.setting .timeout)
  else none

/-- The option of a letter. -/
def Opt.ofLetter? (c : Char) : Option Opt :=
  if c = 'v' then some (.switch .verbose)
  else if c = 'V' then some (.switch .version)
  else if c = 'h' then some (.switch .help)
  else if c = 'o' then some (.setting .output)
  else none

/-- Does a level know an option?  The program itself is the level of no command. -/
def Opt.knownTo (level : Option Subcommand) : Opt → Bool
  | .switch .verbose | .switch .version | .switch .help | .setting .config => true
  | .switch .json => level = some .presets
  | .setting .output | .setting .timeout => level = some .transpile
  | .setting .preset | .setting (.wrapper _) =>
    level = some .transpile ∨ level = some .check

/-- May the value of a setting look like an option? -/
def Setting.takesAnything : Setting → Bool
  | .preset | .wrapper _ => true
  | .config | .output | .timeout => false

/-- Does an argument look like an option?  A dash alone does not. -/
def looksLikeOption (arg : String) : Bool :=
  arg.toList.head? = some '-' ∧ arg ≠ "-"

/-- Why reading a command line ended early. -/
inductive Stop where
  /-- Something did not fit. -/
  | usage
  | version (command : Option Subcommand)
  | help
  deriving DecidableEq

/-- What a level was told. -/
structure Told where
  config : Option Path := none
  /-- How often more words were asked for. -/
  verbose : Nat := 0
  json : Bool := false
  preset : Option Choice := none
  strings : PartialWrappers := {}
  output : Option Path := none
  timeout : Option Nat := none
  /-- The arguments that stand for themselves. -/
  paths : List Path := []
  /-- The setting whose value must come next. -/
  pending : Option Setting := none
  /-- A value that stood in an argument of its own and was not looked at yet. -/
  held : Option (Setting × String) := none
  /-- All further arguments stand for themselves. -/
  onlyPaths : Bool := false
  deriving DecidableEq

/-- A whole number of 64 bits: decimal digits, and a plus sign before them. -/
def number? (text : String) : Option Nat :=
  let digits := if text.toList.head? = some '+' then text.toList.drop 1 else text.toList
  if digits.isEmpty then none
  else if digits.all fun c => decide ('0' ≤ c ∧ c ≤ '9') then
    let n := digits.foldl (fun n c => n * 10 + (c.toNat - 48)) 0
    if n < UInt64.size then some n else none
  else none

/-- A path, which must not be empty. -/
def path? (text : String) : Option Path := if text = "" then none else some ⟨text⟩

/-- Take something that may be said only once. -/
def once {α : Type} (before after : Option α) : Except Stop (Option α) :=
  match before, after with
  | none, some a => .ok (some a)
  | _, _ => .error .usage

namespace Told

/-- A setting gets its value. -/
def set (t : Told) (s : Setting) (value : String) : Except Stop Told :=
  match s with
  | .config => do return { t with config := ← once t.config (path? value) }
  | .output => do return { t with output := ← once t.output (path? value) }
  | .timeout => do return { t with timeout := ← once t.timeout (number? value) }
  | .preset => do return { t with preset := ← once t.preset (Choice.ofWord? value) }
  | .wrapper slot =>
    match t.strings.get? slot with
    | some _ => .error .usage
    | none => .ok { t with strings := t.strings.set value slot }

/-- Look at the value that is held back. -/
def settle (t : Told) : Except Stop Told :=
  match t.held with
  | some (s, value) => { t with held := none }.set s value
  | none => .ok t

/-- A switch is met. -/
def turnOn (level : Option Subcommand) (t : Told) : Switch → Except Stop Told
  | .verbose => .ok { t with verbose := t.verbose + 1 }
  | .version => .error (.version level)
  | .help => .error .help
  | .json => if t.json then .error .usage else .ok { t with json := true }

/-- An option by its long name, with the value after an equals sign. -/
def long (level : Option Subcommand) (t : Told) (name : String) (value : Option String) :
    Except Stop Told :=
  match (Opt.ofName? name).filter (Opt.knownTo level), value with
  | some (.switch s), none => t.turnOn level s
  | some (.setting s), some v => t.set s v
  | some (.setting s), none => .ok { t with pending := some s }
  | _, _ => .error .usage

/-- Options by their letters.  A setting takes the rest of the letters as its
value, without an equals sign before it, or else the next argument. -/
def letters (level : Option Subcommand) : Told → List Char → Except Stop Told
  | t, [] => .ok t
  | t, c :: rest =>
    match (Opt.ofLetter? c).filter (Opt.knownTo level) with
    | some (.switch s) =>
      match t.turnOn level s with
      | .ok t => t.letters level rest
      | .error stop => .error stop
    | some (.setting s) =>
      match rest with
      | [] => .ok { t with pending := some s }
      | '=' :: value => t.set s (String.ofList value)
      | value => t.set s (String.ofList value)
    | none => .error .usage

/-- How many arguments a command takes that stand for themselves. -/
def roomFor (level : Option Subcommand) (count : Nat) : Bool :=
  match level with
  | some .transpile => count < 1
  | some .check => true
  | some .presets | some .init | none => false

/-- An argument that stands for itself. -/
def stand (level : Option Subcommand) (t : Told) (arg : String) : Except Stop Told :=
  match path? arg with
  | some p =>
    if roomFor level t.paths.length then .ok { t with paths := t.paths ++ [p] }
    else .error .usage
  | none => .error .usage

/-- An option, by name or by letters. -/
def option (level : Option Subcommand) (t : Told) (arg : String) : Except Stop Told :=
  match arg.toList with
  | '-' :: '-' :: name =>
    let key := name.takeWhile fun c => decide (c ≠ '=')
    match name.drop key.length with
    | [] => t.long level (String.ofList key) none
    | _ :: value => t.long level (String.ofList key) (some (String.ofList value))
  | _ :: rest => t.letters level rest
  | [] => .error .usage

/-- Read one argument after the name of a command. -/
def read (level : Option Subcommand) (t : Told) (arg : String) : Except Stop Told :=
  match t.pending with
  | some s =>
    if s.takesAnything || !looksLikeOption arg then
      .ok { t with pending := none, held := some (s, arg) }
    else .error .usage
  | none => do
    let t ← t.settle
    if t.onlyPaths then t.stand level arg
    else if arg = "--" then .ok { t with onlyPaths := true }
    else if looksLikeOption arg then t.option level arg
    else t.stand level arg

/-- Read all arguments after the name of a command. -/
def readAll (command : Subcommand) (args : List String) : Except Stop Told := do
  let t ← args.foldlM (fun (t : Told) arg => t.read (some command) arg) {}
  if t.pending.isSome then .error .usage else t.settle

/-- What was asked for, unless something is missing. -/
def command (t : Told) (timeoutVariable : Option String) : Subcommand → Except Stop Command
  | .transpile =>
    match t.paths with
    | [input] =>
      match t.timeout, timeoutVariable with
      | some ms, _ => .ok (.transpile input ⟨t.preset, t.strings⟩ t.output (some ms))
      | none, some text =>
        match number? text with
        | some ms => .ok (.transpile input ⟨t.preset, t.strings⟩ t.output (some ms))
        | none => .error .usage
      | none, none => .ok (.transpile input ⟨t.preset, t.strings⟩ t.output none)
    | _ => .error .usage
  | .check =>
    match t.paths with
    | [] => .error .usage
    | inputs => .ok (.check inputs ⟨t.preset, t.strings⟩)
  | .presets => .ok (.presets t.json)
  | .init => .ok .init

end Told

/-- A command, the configuration it is to use, and how much of the log is shown. -/
structure Invocation where
  command : Command
  config : Path
  verbosity : Nat
  deriving DecidableEq

/-- The invocation that both levels together ask for. -/
def invocation (timeoutVariable : Option String) (program : Told) (name : Subcommand)
    (t : Told) : Except Stop Invocation :=
  match t.command timeoutVariable name with
  | .error stop => .error stop
  | .ok command =>
    .ok
      { command := command
        config := (t.config.or program.config).getD Config.standardPath
        verbosity := if t.verbose = 0 then program.verbose else t.verbose }

/-- What comes of the word `help` and the arguments after it, which may name one
command, or `help` itself. -/
def helpWith : List String → Stop
  | [] => .help
  | [name] => if name = "help" ∨ (Subcommand.ofName? name).isSome then .help else .usage
  | _ => .usage

/-- Read the arguments of the program; `program` is what it was told so far. -/
def readFrom (timeoutVariable : Option String) (program : Told) :
    List String → Except Stop Invocation
  | [] => .error .usage
  | arg :: rest =>
    if program.pending.isNone && !looksLikeOption arg then
      match Subcommand.ofName? arg with
      | some name => do
        let t ← Told.readAll name rest
        let program ← program.settle
        invocation timeoutVariable program name t
      | none => .error (if arg = "help" then helpWith rest else .usage)
    else if program.pending.isNone && decide (arg = "--") then .error .usage
    else
      match program.read none arg with
      | .ok program => readFrom timeoutVariable program rest
      | .error stop => .error stop

/-- Read a command line; the variable holds the timeout for a `transpile` that
is given none. -/
def read (timeoutVariable : Option String) (args : List String) : Except Stop Invocation :=
  readFrom timeoutVariable {} args

end Arguments
end TemplateScript

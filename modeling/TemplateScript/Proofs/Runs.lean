import TemplateScript.Proofs.Files
import TemplateScript.Proofs.Scripts

namespace TemplateScript

open TemplateScript.Action (inspection reading)

/-!
# What runs on templates leave behind

A script is made before anything is written, so a run that fails has written
nothing.  The only thing that is ever written is a whole script, to the file
that was asked for.  From one run to the next this adds up: whatever is found
after any number of runs was there before, or is the script of one of them.

A write that begins is completed here: it is refused, or the medium of the file
keeps all that is written.
-/

namespace Command

/-- Does the command make scripts of templates? -/
def onTemplates : Command → Bool
  | .transpile .. => true
  | .check .. => true
  | .presets .. => false
  | .init => false

/-- The path that a script is to be written to. -/
def output? : Command → Option Path
  | .transpile _ _ output _ => output
  | .check .. => none
  | .presets .. => none
  | .init => none

/-- The same command, with the script for standard output. -/
def toStandardOutput : Command → Command
  | .transpile input selection _ timeout => .transpile input selection none timeout
  | .check inputs selection => .check inputs selection
  | .presets json => .presets json
  | .init => .init

theorem onTemplates_toStandardOutput (c : Command) :
    c.toStandardOutput.onTemplates = c.onTemplates := by
  cases c <;> rfl

/-! ## Writing a script -/

theorem run_deliver_refused (input : Path) {path : Path} (text : String) {w : World}
    (nowhere : ¬ ∃ parent name, w.files.Creates path parent name) :
    ∃ cause, (deliver input (some path) text).run w = (.error (.io cause), w) := by
  rcases FileTree.write_refused nowhere w.medium (Utf8.encode text.toList) with ⟨cause, refused⟩
  refine ⟨cause, ?_⟩
  simp only [deliver, Action.run, refused]

theorem run_deliver_stored (input : Path) {path : Path} (text : String) {w : World}
    {parent : Location} {name : String} (creates : w.files.Creates path parent name)
    (keeps : w.medium (parent ++ [name]) = .keeps) :
    ∃ output, (deliver input (some path) text).run w =
      (.ok (), { w with
        files := w.files.insert (parent ++ [name]) (.file (Utf8.encode text.toList))
        output := output }) := by
  simp only [deliver, Action.run, creates.write, keeps]
  exact ⟨_, rfl⟩

theorem transpile_printing_keeps (explain : Json.Explanation) (config input : Path)
    (selection : Selection) (timeout : Option Nat) (w : World) :
    let printed := ((transpile input selection none timeout).action explain config).run w
    printed.2.files = w.files ∧ ∀ f, printed.1 = .error f → printed.2.output = w.output := by
  rw [run_transpile_printing]
  rcases ran : (script config input selection timeout).run w with ⟨failure | text, after⟩
  · exact ⟨(script_keeps ran).1, fun _ _ => (script_keeps ran).2⟩
  · refine ⟨(script_keeps ran).1, ?_⟩
    intro f impossible
    cases impossible

/-- With a path for the script there are two ways to end, if the media keep what
is written.  Either nothing has happened, because there is no script or because it
cannot be written there, or the script is stored. -/
theorem transpile_storing_cases (explain : Json.Explanation) (config input path : Path)
    (selection : Selection) (timeout : Option Nat) {w : World}
    (keeps : ∀ place, w.medium place = .keeps) :
    let stored := ((transpile input selection (some path) timeout).action explain config).run w
    let printed := ((transpile input selection none timeout).action explain config).run w
    (∃ f, stored.1 = .error f ∧ stored.2.files = w.files ∧ stored.2.output = w.output ∧
        ¬ (printed.1 = .ok () ∧ ∃ parent name, w.files.Creates path parent name)) ∨
      stored.1 = .ok () ∧ printed.1 = .ok () ∧
        ∃ text parent name, printed.2.output = w.output ++ text ∧
          w.files.Creates path parent name ∧
          stored.2.files =
            w.files.insert (parent ++ [name]) (.file (Utf8.encode text.toList)) := by
  intro stored printed
  have printing : printed = _ := run_transpile_printing explain config input selection timeout w
  rcases ran : (script config input selection timeout).run w with ⟨failure | text, after⟩
  · have storing : stored = (.error failure, after) := Action.run_bind_of_error _ ran
    rw [ran] at printing
    refine .inl ⟨failure, ?_⟩
    rw [storing, printing]
    refine ⟨rfl, (script_keeps ran).1, (script_keeps ran).2, ?_⟩
    rintro ⟨impossible, -⟩
    cases impossible
  · have storing : stored = (deliver input (some path) text).run after :=
      Action.run_bind_of_ok _ ran
    rw [ran] at printing
    rw [storing, printing, ← (script_keeps ran).1]
    by_cases somewhere : ∃ parent name, after.files.Creates path parent name
    · rcases somewhere with ⟨parent, name, creates⟩
      have medium := (script config input selection timeout).medium_run w
      rw [ran] at medium
      have lies : after.medium (parent ++ [name]) = .keeps := (congrFun medium _).trans (keeps _)
      rcases run_deliver_stored input text creates lies with ⟨output, delivered⟩
      rw [delivered]
      exact .inr ⟨rfl, rfl, text, parent, name, congrArg (· ++ text) (script_keeps ran).2, creates,
        rfl⟩
    · rcases run_deliver_refused input text somewhere with ⟨cause, refused⟩
      rw [refused]
      refine .inl ⟨.io cause, rfl, rfl, (script_keeps ran).2, ?_⟩
      rintro ⟨-, possible⟩
      exact somewhere possible

/-! ## Checking -/

theorem makesOnly_checkEach (explain : Json.Explanation) (config : Path) (selection : Selection)
    (inputs : List Path) (failed : Nat) :
    (checkEach explain config selection inputs failed).MakesOnly (.print :: reading) := by
  have looking : inspection ⊆ .print :: reading := by decide
  have reads : reading ⊆ .print :: reading := by decide
  have one (input : Path) : (checkOne config selection input).MakesOnly (.print :: reading) := by
    apply ((selection.makesOnly_resolve config input).mono looking).bind
    intro wrappers
    apply ((makesOnly_openTemplate input).mono looking).bind
    intro t
    apply ((t.makesOnly_transpile wrappers).mono reads).bind
    intro text
    trivial
  induction inputs generalizing failed with
  | nil => trivial
  | cons input rest ih =>
    apply (one input).attempt.bind
    intro result
    cases result with
    | ok size => exact ⟨by decide, ih failed⟩
    | error f => exact ⟨by decide, ih (failed + 1)⟩

theorem makesOnly_checkAll (explain : Json.Explanation) (config : Path) (selection : Selection)
    (inputs : List Path) :
    (checkAll explain config selection inputs).MakesOnly (.print :: reading) := by
  refine ⟨by decide, by decide, ?_⟩
  apply (makesOnly_checkEach explain config selection inputs 0).bind
  intro failed
  split <;> trivial

end Command

/-! ## One run after another -/

/-- A run of a command on templates: what is asked for, and what the run meets
apart from the files. -/
structure TemplateRun where
  explain : Json.Explanation
  config : Path
  command : Command
  onTemplates : command.onTemplates = true
  input : Bytes
  inTime : Bool

namespace TemplateRun

/-- The result of a run on some files, and the world that it leaves behind.  The
media keep whatever is written. -/
def outcome (r : TemplateRun) (files : FileTree) : Except Failure Unit × World :=
  (r.command.action r.explain r.config).run { files := files, input := r.input, inTime := r.inTime }

/-- The files that a run leaves behind. -/
def after (r : TemplateRun) (files : FileTree) : FileTree := (r.outcome files).2.files

/-- The same run without a path for the script. -/
def toStandardOutput (r : TemplateRun) : TemplateRun where
  explain := r.explain
  config := r.config
  command := r.command.toStandardOutput
  onTemplates := r.command.onTemplates_toStandardOutput.trans r.onTemplates
  input := r.input
  inTime := r.inTime

/-- What the same run writes to standard output if it has no path for the script. -/
def printed (r : TemplateRun) (files : FileTree) : String :=
  (r.toStandardOutput.outcome files).2.output

/-- What a run on some files may leave behind. -/
structure Contained (r : TemplateRun) (files : FileTree) : Prop where
  failed : ∀ f, (r.outcome files).1 = .error f → r.after files = files
  silent : ∀ input selection output timeout,
    r.command = .transpile input selection output timeout →
      ∀ f, (r.outcome files).1 = .error f → (r.outcome files).2.output = ""
  unstored : r.command.output? = none → r.after files = files
  stored : ∀ path, r.command.output? = some path → (r.outcome files).1 = .ok () →
    ∃ place, files.Wrote path (Utf8.encode (r.printed files).toList) (r.after files) place ∧
      ∀ before, files.resolve path = .ok before → before = place
  succeeds : ∀ path, r.command.output? = some path →
    ((r.outcome files).1 = .ok () ↔
      (r.toStandardOutput.outcome files).1 = .ok () ∧
        ∃ parent name, files.Creates path parent name)

theorem contained_check (explain : Json.Explanation) (config : Path) (inputs : List Path)
    (selection : Selection) (input : Bytes) (inTime : Bool) (files : FileTree) :
    Contained ⟨explain, config, .check inputs selection, rfl, input, inTime⟩ files := by
  have keeps : after ⟨explain, config, .check inputs selection, rfl, input, inTime⟩ files = files :=
    (Command.makesOnly_checkAll explain config selection inputs).files_eq (by decide) _
  refine ⟨fun _ _ => keeps, ?_, fun _ => keeps, ?_, ?_⟩
  · intro template selection output timeout impossible
    cases impossible
  · intro path impossible
    cases impossible
  · intro path impossible
    cases impossible

theorem contained_printing (explain : Json.Explanation) (config template : Path)
    (selection : Selection) (timeout : Option Nat) (input : Bytes) (inTime : Bool)
    (files : FileTree) :
    Contained ⟨explain, config, .transpile template selection none timeout, rfl, input, inTime⟩
      files := by
  rcases Command.transpile_printing_keeps explain config template selection timeout
    { files := files, input := input, inTime := inTime } with ⟨keeps, silent⟩
  refine ⟨fun _ _ => keeps, fun _ _ _ _ _ => silent, fun _ => keeps, ?_, ?_⟩
  · intro path impossible
    cases impossible
  · intro path impossible
    cases impossible

theorem contained_storing (explain : Json.Explanation) (config template path : Path)
    (selection : Selection) (timeout : Option Nat) (input : Bytes) (inTime : Bool)
    (files : FileTree) :
    Contained
      ⟨explain, config, .transpile template selection (some path) timeout, rfl, input, inTime⟩
      files := by
  have ends := Command.transpile_storing_cases explain config template path selection timeout
    (w := { files := files, input := input, inTime := inTime }) fun _ => rfl
  rcases ends with ⟨f, failed, keeps, silent, never⟩ |
    ⟨succeeded, printed, text, parent, name, output, creates, inserted⟩
  · refine ⟨fun _ _ => keeps, fun _ _ _ _ _ _ _ => silent, fun _ => keeps, ?_, ?_⟩
    · intro path _ succeeded
      cases failed.symm.trans succeeded
    · intro path same
      cases same
      constructor
      · intro succeeded
        cases failed.symm.trans succeeded
      · intro possible
        exact absurd possible never
  · refine ⟨?_, ?_, ?_, ?_, ?_⟩
    · intro f failed
      cases succeeded.symm.trans failed
    · intro _ _ _ _ _ f failed
      cases succeeded.symm.trans failed
    · intro impossible
      cases impossible
    · intro path same _
      cases same
      have wrote := creates.wrote (Utf8.encode text.toList)
      rw [← inserted, ← String.empty_append (s := text), ← output] at wrote
      exact ⟨parent ++ [name], wrote, fun before denotes => creates.place_eq denotes⟩
    · intro path same
      cases same
      exact ⟨fun _ => ⟨printed, parent, name, creates⟩, fun _ => succeeded⟩

theorem contained (r : TemplateRun) (files : FileTree) : r.Contained files := by
  rcases r with ⟨explain, config, command, onTemplates, input, inTime⟩
  cases command with
  | transpile template selection output timeout =>
    cases output with
    | none => exact contained_printing explain config template selection timeout input inTime files
    | some path =>
      exact contained_storing explain config template path selection timeout input inTime files
  | check inputs selection =>
    exact contained_check explain config inputs selection input inTime files
  | presets json => cases onTemplates
  | init => cases onTemplates

/-! ## Many runs -/

/-- The files after some runs, each of which finds what the one before it left. -/
def filesAfter (files : FileTree) (runs : List TemplateRun) : FileTree :=
  runs.foldl (fun files r => r.after files) files

/-- Every run is contained in the files that it finds. -/
def AllContained : FileTree → List TemplateRun → Prop
  | _, [] => True
  | files, r :: rest => r.Contained files ∧ AllContained (r.after files) rest

/-- The run stores its script at this place. -/
structure Leaves (r : TemplateRun) (files : FileTree) (place : Location) : Prop where
  succeeded : (r.outcome files).1 = .ok ()
  asked : ∃ path, r.command.output? = some path ∧ (r.after files).resolve path = .ok place
  holds : (r.after files).find? place = some (.file (Utf8.encode (r.printed files).toList))

theorem allContained (files : FileTree) (runs : List TemplateRun) : AllContained files runs := by
  induction runs generalizing files with
  | nil => trivial
  | cons r rest ih => exact ⟨r.contained files, ih (r.after files)⟩

/-- One run changes a place only by leaving its script there. -/
theorem find?_after (r : TemplateRun) (files : FileTree) (place : Location) :
    (r.after files).find? place = files.find? place ∨ r.Leaves files place := by
  have contained := r.contained files
  cases result : (r.outcome files).1 with
  | error f =>
    rw [contained.failed f result]
    exact .inl rfl
  | ok done =>
    cases asked : r.command.output? with
    | none =>
      rw [contained.unstored asked]
      exact .inl rfl
    | some path =>
      rcases contained.stored path asked result with ⟨written, wrote, -⟩
      by_cases same : place = written
      · subst same
        exact .inr ⟨result, ⟨path, asked, wrote.resolves⟩, wrote.holds⟩
      · exact .inl (wrote.others place same)

/-- What is found at a place after many runs was there at the start, or it is what
one of the runs left there. -/
theorem find?_filesAfter (files : FileTree) (runs : List TemplateRun) (place : Location) :
    (filesAfter files runs).find? place = files.find? place ∨
      ∃ front r back, runs = front ++ r :: back ∧ r.Leaves (filesAfter files front) place ∧
        (filesAfter files runs).find? place =
          (r.after (filesAfter files front)).find? place := by
  induction runs generalizing files with
  | nil => exact .inl rfl
  | cons r rest ih =>
    rcases ih (r.after files) with same | ⟨front, later, back, split, leaves, found⟩
    · rcases r.find?_after files place with unchanged | leaves
      · exact .inl (same.trans unchanged)
      · exact .inr ⟨[], r, rest, rfl, leaves, same⟩
    · exact .inr ⟨r :: front, later, back, congrArg (r :: ·) split, leaves, found⟩

/-- However many runs are made on templates, each of them writes its whole script
to the file that it was asked for, or nothing.  So each place holds in the end
what it held at the start or a script that was to be written there. -/
theorem runs_leave_only_scripts (files : FileTree) (runs : List TemplateRun) :
    AllContained files runs ∧
      ∀ place, (filesAfter files runs).find? place = files.find? place ∨
        ∃ front r back, runs = front ++ r :: back ∧ r.Leaves (filesAfter files front) place ∧
          (filesAfter files runs).find? place =
            some (.file (Utf8.encode (r.printed (filesAfter files front)).toList)) := by
  refine ⟨allContained files runs, ?_⟩
  intro place
  rcases find?_filesAfter files runs place with same | ⟨front, r, back, split, leaves, found⟩
  · exact .inl same
  · exact .inr ⟨front, r, back, split, leaves, found.trans leaves.holds⟩

end TemplateRun

end TemplateScript

import TemplateScript.Proofs.Selections

namespace TemplateScript
namespace Command

open TemplateScript.Action (inspection)

/-!
# Checking tells what transpiling would do

Checking makes the script of every template, one after another, and throws it
away.  A template that is a file is looked at without disturbing anything, so
what is reported about it is what transpiling it alone would have come to,
whatever was checked before.

The report puts a failure into words together with what lies behind it.  There are
seven ways in which making a script can fail as long as there is no time limit, and
the words for each are written out below.
-/

/-! ## Why a template has no script -/

/-- The words for a failure to make a script without a time limit, one form for
each way to fail.  What lies behind a failure follows it after a colon. -/
inductive Complaint (explain : Json.Explanation) : Failure → String → Prop where
  | malformedTemplate (reason : Scan.Malformation) (place : Position) :
      Complaint explain (.malformedTemplate reason place)
        ("malformed template: " ++ reason.text ++ " at line " ++ toString place.line ++
          ", column " ++ toString place.column)
  | unreadableInput (cause : IoFailure) :
      Complaint explain (.unreadableInput cause)
        ("failed to read template input: " ++ cause.message)
  | inputNotFound (path : String) :
      Complaint explain (.inputNotFound path) ("input file not found: " ++ path)
  | unreadableConfig (path : String) (cause : IoFailure) :
      Complaint explain (.unreadableConfig path cause)
        ("config file not found at " ++ path ++ ": " ++ cause.message)
  | invalidConfig (path : String) (fault : Json.Fault) (text : List Char) :
      Complaint explain (.invalidConfig path fault text)
        ("failed to parse config at " ++ path ++ ": " ++ explain text)
  | unknownPreset (name : String) :
      Complaint explain (.unknownPreset name)
        ("unknown preset: " ++ name ++ " (supported: " ++
          String.intercalate ", " (Preset.all.map Preset.name) ++ ")")
  | io (cause : IoFailure) : Complaint explain (.io cause) cause.message

/-- The failure and what lies behind it are put on one line in one of these forms. -/
def Complains (explain : Json.Explanation) (f : Failure) : Prop :=
  Complaint explain f (f.chain explain)

section Complaints

variable (explain : Json.Explanation)

theorem complains_drive (wrappers : Wrappers) (failure : Option IoFailure) (p : Scan.Progress)
    (text : List Char) {f : Failure}
    (failed : (p.drive wrappers failure text).result = .error f) : Complains explain f := by
  fun_induction Scan.Progress.drive wrappers failure p text with
  | case1 p cause =>
    cases failed
    exact .unreadableInput cause
  | case2 p =>
    unfold Scan.Progress.finish at failed
    split at failed
    · cases failed
      exact .malformedTemplate _ _
    · cases failed
  | case3 p rest ih => exact ih failed
  | case4 p c rest =>
    cases failed
    exact .malformedTemplate _ _
  | case5 p c rest _ _ ih => exact ih failed

theorem complains_transpile (wrappers : Wrappers) (t : Opened) :
    (t.transpile wrappers).FailsOnly (Complains explain) := by
  have events : t.events.FailsOnly (Complains explain) := by
    match t with
    | .standardInput => exact fun _ => trivial
    | .entry (.file bytes) => trivial
    | .entry .directory => trivial
  apply events.bind
  intro events
  exact Action.failsOnly_ofExcept fun f failed => complains_drive explain wrappers _ _ _ failed

theorem complains_openTemplate (input : Path) :
    (openTemplate input).FailsOnly (Complains explain) := by
  unfold openTemplate
  split
  · trivial
  · intro found
    cases found with
    | false => exact .inputNotFound input.spelling
    | true =>
      intro answer
      match answer with
      | .ok e => trivial
      | .error cause => exact .io cause

theorem complains_ofName (name : String) :
    (Action.ofExcept (Preset.ofName name)).FailsOnly (Complains explain) := by
  apply Action.failsOnly_ofExcept
  intro f unknown
  rcases Preset.ofName_eq_error_iff.mp unknown with ⟨-, rfl⟩
  exact .unknownPreset name

theorem complains_load (config : Path) :
    (Config.load config).FailsOnly (Complains explain) := by
  intro answer
  match answer with
  | .error cause => exact .unreadableConfig config.spelling cause
  | .ok .directory => exact .unreadableConfig config.spelling .directory
  | .ok (.file bytes) =>
    apply Action.failsOnly_ofExcept
    intro f failed
    unfold Config.ofBytes at failed
    split at failed
    · cases failed
      exact .unreadableConfig config.spelling .notText
    · split at failed
      · cases failed
      · cases failed
        exact .invalidConfig config.spelling _ _

theorem complains_resolve (config input : Path) (selection : Selection) :
    (selection.resolve config input).FailsOnly (Complains explain) := by
  refine Action.FailsOnly.bind ?_ fun _ => trivial
  unfold Selection.base
  cases selection.preset with
  | some choice => exact (complains_ofName explain choice.name).bind fun _ => trivial
  | none =>
    intro found
    cases found with
    | true =>
      refine (complains_load explain config).bind fun c => Action.failsOnly_ofExcept ?_
      intro f unknown
      rcases (c.resolve_eq_error_iff f).mp unknown with ⟨name, -, -, rfl⟩
      exact .unknownPreset name
    | false =>
      apply Action.failsOnly_ofExcept
      intro f failed
      rcases Selection.result_byExtension input with ⟨p, -, chosen⟩
      rw [chosen] at failed
      cases failed

theorem complains_script (config input : Path) (selection : Selection) :
    (script config input selection none).FailsOnly (Complains explain) := by
  apply (complains_resolve explain config input selection).bind
  intro wrappers
  apply (complains_openTemplate explain input).bind
  intro t
  exact complains_transpile explain wrappers t

end Complaints

/-! ## One template -/

/-- The size of the script that is made of a template, or why there is none. -/
def verdict (config : Path) (selection : Selection) (w : World) (input : Path) :
    Except Failure Nat :=
  ((script config input selection none).run w).1.map String.utf8ByteSize

theorem verdict_eq_ok_iff (explain : Json.Explanation) {config input : Path}
    {selection : Selection} {w : World} {n : Nat} :
    let transpiled := ((transpile input selection none none).action explain config).run w
    verdict config selection w input = .ok n ↔
      ∃ text, transpiled.1 = .ok () ∧ transpiled.2.output = w.output ++ text ∧
        text.utf8ByteSize = n := by
  intro transpiled
  simp only [transpiled]
  rw [verdict, run_transpile_printing]
  rcases ran : (script config input selection none).run w with ⟨failure | script, after⟩
  · constructor
    · intro impossible
      cases impossible
    · rintro ⟨text, impossible, -⟩
      cases impossible
  · have silent := (script_keeps ran).2
    constructor
    · intro size
      cases size
      exact ⟨script, rfl, congrArg (· ++ script) silent, rfl⟩
    · rintro ⟨text, -, printed, size⟩
      have same : w.output ++ script = w.output ++ text :=
        (congrArg (· ++ script) silent).symm.trans printed
      rw [← size, ← (String.append_right_inj w.output).mp same]
      rfl

theorem verdict_eq_error_iff (explain : Json.Explanation) {config input : Path}
    {selection : Selection} {w : World} {f : Failure} :
    verdict config selection w input = .error f ↔
      (((transpile input selection none none).action explain config).run w).1 = .error f := by
  rw [verdict, run_transpile_printing]
  rcases (script config input selection none).run w with ⟨failure | script, after⟩ <;>
    simp [Except.map]

theorem isOk_verdict (explain : Json.Explanation) (config input : Path) (selection : Selection)
    (w : World) :
    (verdict config selection w input).isOk =
      (((transpile input selection none none).action explain config).run w).1.isOk := by
  rw [verdict, run_transpile_printing]
  rcases (script config input selection none).run w with ⟨failure | script, after⟩ <;> rfl

/-- Checking a template comes to what transpiling it does. -/
theorem checkOne_result (config input : Path) (selection : Selection) (w : World) :
    ((checkOne config selection input).run w).1 = verdict config selection w input := by
  unfold verdict checkOne script
  apply Action.related_bind
    (R := fun checked made => checked.1 = made.1.map String.utf8ByteSize) fun _ _ => rfl
  intro wrappers resolvedIn _
  apply Action.related_bind
    (R := fun checked made => checked.1 = made.1.map String.utf8ByteSize) fun _ _ => rfl
  intro t openedIn _
  -- Transpiling leaves a note before it reads, which makes no difference to the result.
  have same := (t.makesOnly_transpile wrappers).result_eq (w := openedIn)
    (v := { openedIn with log := openedIn.log ++ [.transpiling input.spelling] })
    rfl (fun _ => rfl) (fun _ => rfl) (fun _ => rfl)
  change _ = ((t.transpile wrappers).run
    { openedIn with log := openedIn.log ++ [.transpiling input.spelling] }).1.map _
  rw [← same]
  rcases ran : (t.transpile wrappers).run openedIn with ⟨failure | text, after⟩
  · rw [Action.run_bind_of_error _ ran]
    rfl
  · rw [Action.run_bind_of_ok _ ran]
    rfl

theorem makesOnly_checkOne (config : Path) {input : Path} (selection : Selection)
    (named : input.sameAs standardInput = false) :
    (checkOne config selection input).MakesOnly inspection := by
  apply (selection.makesOnly_resolve config input).bind
  intro wrappers
  rw [openTemplate, if_neg (Bool.eq_false_iff.mp named)]
  refine ⟨by decide, ?_⟩
  intro found
  cases found with
  | false => trivial
  | true =>
    refine ⟨by decide, ?_⟩
    intro answer
    match answer with
    | .error cause => trivial
    | .ok (.file bytes) =>
      exact (Action.makesOnly_ofOutcome _ (by decide)).bind fun _ => trivial
    | .ok .directory =>
      exact (Action.makesOnly_ofOutcome _ (by decide)).bind fun _ => trivial

/-- What a file comes to depends on the files alone. -/
theorem verdict_congr (config : Path) {input : Path} (selection : Selection)
    (named : input.sameAs standardInput = false) {w w' : World} (files : w.files = w'.files) :
    verdict config selection w input = verdict config selection w' input := by
  rw [← checkOne_result, ← checkOne_result]
  exact (makesOnly_checkOne config selection named).result_eq files
    (fun impossible => absurd impossible (by decide))
    (fun impossible => absurd impossible (by decide))
    (fun impossible => absurd impossible (by decide))

/-! ## The report -/

/-- The line of the report about a template. -/
def line (explain : Json.Explanation) (input : Path) : Except Failure Nat → String
  | .ok size => "[OK] " ++ input.spelling ++ " (" ++ toString size ++ " bytes)\n"
  | .error f => "[ERROR] " ++ input.spelling ++ ": " ++ f.chain explain ++ "\n"

theorem run_success (input : Path) (size : Nat) (explain : Json.Explanation) (w : World) :
    (success (input.spelling ++ " (" ++ toString size ++ " bytes)")).run w =
      (.ok (), { w with output := w.output ++ line explain input (.ok size) }) := by
  have text : "[OK] " ++ (input.spelling ++ " (" ++ toString size ++ " bytes)") ++ "\n" =
      line explain input (.ok size) := by
    simp only [line, String.append_assoc]
    rfl
  rw [← text]
  rfl

theorem run_failure (input : Path) (f : Failure) (explain : Json.Explanation) (w : World) :
    (failure (input.spelling ++ ": " ++ f.chain explain)).run w =
      (.ok (), { w with output := w.output ++ line explain input (.error f) }) := by
  have text : "[ERROR] " ++ (input.spelling ++ ": " ++ f.chain explain) ++ "\n" =
      line explain input (.error f) := by
    simp only [line, String.append_assoc]
  rw [← text]
  rfl

theorem run_checkEach (explain : Json.Explanation) (config : Path) (selection : Selection)
    {inputs : List Path} (named : ∀ input ∈ inputs, input.sameAs standardInput = false)
    (failed : Nat) (start : World) {w : World} (files : w.files = start.files) :
    ∃ log, (checkEach explain config selection inputs failed).run w =
      (.ok (failed + inputs.countP fun input => !(verdict config selection start input).isOk),
        { w with
          output := w.output ++ String.join
            (inputs.map fun input => line explain input (verdict config selection start input))
          log := log }) := by
  induction inputs generalizing failed w with
  | nil =>
    refine ⟨w.log, ?_⟩
    simp only [checkEach, Action.run, List.countP_nil, Nat.add_zero, List.map_nil, String.join_nil,
      String.append_empty]
  | cons input rest ih =>
    have here := named input List.mem_cons_self
    have later : ∀ other ∈ rest, other.sameAs standardInput = false :=
      fun other member => named other (List.mem_cons_of_mem input member)
    rcases checked : (checkOne config selection input).run w with ⟨result, after⟩
    have outcome : verdict config selection start input = result := by
      rw [← verdict_congr config selection here files, ← checkOne_result, checked]
    rcases (makesOnly_checkOne config selection here).world_eq checked with ⟨noted, rfl⟩
    have attempted : (checkOne config selection input).attempt.run w =
        (.ok result, { w with log := noted }) := by
      rw [Action.run_attempt, checked]
    unfold checkEach
    rw [Action.run_bind_of_ok _ attempted, List.map_cons, String.join_cons, List.countP_cons,
      outcome, ← String.append_assoc]
    -- Either way one line is printed, and the rest is checked with the same files.
    cases result with
    | ok size =>
      change ∃ log,
        (success _ >>= fun _ => checkEach explain config selection rest failed).run _ = _
      rw [Action.run_bind_of_ok _ (run_success input size explain _)]
      exact ih later failed files
    | error f =>
      change ∃ log,
        (failure _ >>= fun _ => checkEach explain config selection rest (failed + 1)).run _ = _
      rw [Action.run_bind_of_ok _ (run_failure input f explain _)]
      rcases ih later (failed + 1)
        (w := { w with output := w.output ++ line explain input (.error f), log := noted }) files
        with ⟨log, ran⟩
      refine ⟨log, ran.trans ?_⟩
      rw [Nat.add_assoc, Nat.add_comm 1]
      rfl

/-! ## The whole command -/

theorem run_check (explain : Json.Explanation) (config : Path) (selection : Selection)
    {inputs : List Path} (named : ∀ input ∈ inputs, input.sameAs standardInput = false)
    (w : World) :
    let failures := inputs.countP fun input => !(verdict config selection w input).isOk
    ∃ log, ((check inputs selection).action explain config).run w =
      (if failures = 0 then .ok () else .error (.failedTemplates failures inputs.length),
        { w with
          output := w.output ++ "\nscriptlet check\n===============\n" ++ String.join
            (inputs.map fun input => line explain input (verdict config selection w input))
          log := log }) := by
  have titled : (header "scriptlet check").run w =
      (.ok (), { w with output := w.output ++ "\nscriptlet check\n===============\n" }) := by
    have lines : "\n" ++ "scriptlet check" ++ "\n" ++
        (String.ofList (List.replicate "scriptlet check".length '=') ++ "\n") =
          "\nscriptlet check\n===============\n" := by decide
    rw [← lines, ← String.append_assoc]
    rfl
  rcases run_checkEach explain config selection named 0 w
    (w := { w with output := w.output ++ "\nscriptlet check\n===============\n" }) rfl with
    ⟨log, ran⟩
  refine ⟨log, ?_⟩
  change (checkAll explain config selection inputs).run w = _
  unfold checkAll
  rw [Action.run_bind_of_ok _ titled, Action.run_bind_of_ok _ ran, Nat.zero_add]
  split <;> rfl

theorem line_eq_ok_iff {explain : Json.Explanation} {input : Path} {v : Except Failure Nat}
    {n : Nat} : line explain input v = line explain input (.ok n) ↔ v = .ok n := by
  constructor
  · intro equal
    have letters := congrArg String.toList equal
    cases v with
    | error f => simp [line] at letters
    | ok size =>
      have digits : Nat.toDigits 10 size = Nat.toDigits 10 n := by simpa [line] using letters
      have same := congrArg (Nat.ofDigitChars 10 · 0) digits
      simp only [Nat.ofDigitChars_ten_toDigits] at same
      rw [same]
  · intro equal
    rw [equal]

theorem complains_verdict (explain : Json.Explanation) {config input : Path}
    {selection : Selection} {w : World} {f : Failure}
    (failed : verdict config selection w input = .error f) : Complains explain f := by
  unfold verdict at failed
  rcases ran : ((script config input selection none).run w).1 with g | text
  · rw [ran] at failed
    cases failed
    exact (complains_script explain config input selection).of_run ran
  · rw [ran] at failed
    cases failed

theorem isOk_eq_false_iff {α : Type} {r : Except Failure α} :
    r.isOk = false ↔ ∃ f, r = .error f := by
  cases r <;> simp [Except.isOk, Except.toBool]

/-- The report on files has one line for each of them, in their order, which
depends on nothing but this file.  The line says how many bytes transpiling the
file would write, or it puts the failure of transpiling it into words.  The command
fails if one of the files would, with their number. -/
theorem check_agrees_with_transpile (explain : Json.Explanation) (config : Path)
    (selection : Selection) (inputs : List Path) (w : World)
    (named : ∀ input ∈ inputs, input.sameAs standardInput = false) :
    let checked := ((check inputs selection).action explain config).run w
    let transpiled := fun input =>
      ((transpile input selection none none).action explain config).run w
    let failures := inputs.countP fun input => !(transpiled input).1.isOk
    ∃ told : Path → String,
      checked.2.output = w.output ++ "\nscriptlet check\n===============\n" ++
        String.join (inputs.map told) ∧
      (∀ input n, told input = "[OK] " ++ input.spelling ++ " (" ++ toString n ++ " bytes)\n" ↔
        ∃ text, (transpiled input).1 = .ok () ∧
          (transpiled input).2.output = w.output ++ text ∧ text.utf8ByteSize = n) ∧
      (∀ input f, (transpiled input).1 = .error f → ∃ text, Complaint explain f text ∧
        told input = "[ERROR] " ++ input.spelling ++ ": " ++ text ++ "\n") ∧
      ((∃ f, checked.1 = .error f) ↔ ∃ input ∈ inputs, ∃ f, (transpiled input).1 = .error f) ∧
      ∀ f, checked.1 = .error f →
        f.message = toString failures ++ " of " ++ toString inputs.length ++
          " templates failed to transpile" := by
  intro checked transpiled failures
  rcases run_check explain config selection named w with ⟨log, ran⟩
  simp only [isOk_verdict explain] at ran
  have result : checked.1 =
      if failures = 0 then .ok () else .error (.failedTemplates failures inputs.length) :=
    congrArg Prod.fst ran
  refine ⟨fun input => line explain input (verdict config selection w input),
    congrArg (fun r => r.2.output) ran, ?_, ?_, ?_, ?_⟩
  · intro input n
    exact line_eq_ok_iff.trans (verdict_eq_ok_iff explain)
  · intro input f failed
    have refused := (verdict_eq_error_iff explain).mpr failed
    exact ⟨f.chain explain, complains_verdict explain refused,
      congrArg (line explain input) refused⟩
  · calc (∃ f, checked.1 = .error f)
        ↔ failures ≠ 0 := by rw [result]; split <;> simp [*]
      _ ↔ ∃ input ∈ inputs, (transpiled input).1.isOk = false := by simp [failures]
      _ ↔ ∃ input ∈ inputs, ∃ f, (transpiled input).1 = .error f := by
        simp only [isOk_eq_false_iff]
  · intro f failed
    rw [result] at failed
    split at failed
    · cases failed
    · cases failed
      rfl

/-- Two of three arguments are the same broken file. -/
theorem check_agrees_with_transpile_two_of_three :
    let inputs : List Path := [⟨"broken.ejs"⟩, ⟨"page.ejs"⟩, ⟨"./broken.ejs"⟩]
    let w : World :=
      { files := ⟨[(["page.ejs"], .file (Utf8.encode "Hi <%= x %>".toList)),
          (["broken.ejs"], .file (Utf8.encode "Hi <% x".toList))], []⟩ }
    (∀ input ∈ inputs, input.sameAs standardInput = false) ∧
      ∃ f, (((check inputs {}).action String.ofList Config.standardPath).run w).1 = .error f ∧
        f.message = "2 of 3 templates failed to transpile" := by
  intro inputs w
  have named : ∀ input ∈ inputs, input.sameAs standardInput = false := by
    subst inputs
    decide
  rcases check_agrees_with_transpile String.ofList Config.standardPath {} inputs w named with
    ⟨told, -, -, -, fails, message⟩
  have broken : (((transpile ⟨"broken.ejs"⟩ {} none none).action String.ofList
      Config.standardPath).run w).1 = .error (.malformedTemplate .unterminatedCode ⟨1, 4⟩) := by
    subst w
    decide +kernel
  rcases fails.mpr ⟨⟨"broken.ejs"⟩, List.mem_cons_self, _, broken⟩ with ⟨f, failed⟩
  refine ⟨named, f, failed, (message f failed).trans ?_⟩
  subst inputs w
  decide +kernel

end Command
end TemplateScript

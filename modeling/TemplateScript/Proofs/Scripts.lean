import TemplateScript.Program
import TemplateScript.Proofs.Actions
import TemplateScript.Proofs.Streams

namespace TemplateScript

open TemplateScript.Action (inspection reading)

/-!
# The script of a template, however it is read

A template is found, opened and read in order to make its script, and nothing is
written on the way.  With a time limit the template is read as a whole before it
is scanned; otherwise it is scanned as it is read.  Both ways end alike, except
that a directory is refused at different points and therefore with different
words.
-/

/-! ## What is asked for on the way to a script -/

theorem Config.makesOnly_load (p : Path) : (load p).MakesOnly inspection := by
  refine ⟨by decide, ?_⟩
  intro answer
  match answer with
  | .error cause => trivial
  | .ok .directory => trivial
  | .ok (.file bytes) => exact Action.makesOnly_ofExcept _

theorem Config.makesOnly_loadWrappers (p : Path) : (loadWrappers p).MakesOnly inspection := by
  apply (makesOnly_load p).bind
  intro c
  exact Action.makesOnly_ofExcept c.resolve

theorem Selection.makesOnly_base (s : Selection) (config input : Path) :
    (s.base config input).MakesOnly inspection := by
  unfold base
  cases s.preset with
  | some choice => exact (Action.makesOnly_ofExcept _).bind fun _ => trivial
  | none =>
    refine ⟨by decide, ?_⟩
    intro found
    cases found with
    | true => exact ⟨by decide, Config.makesOnly_loadWrappers config⟩
    | false => exact ⟨by decide, Action.makesOnly_ofOutcome _ (by decide)⟩

theorem Selection.makesOnly_resolve (s : Selection) (config input : Path) :
    (s.resolve config input).MakesOnly inspection := by
  apply (s.makesOnly_base config input).bind
  intro w
  trivial

namespace Command

theorem makesOnly_openTemplate (input : Path) : (openTemplate input).MakesOnly inspection := by
  unfold openTemplate
  split
  · trivial
  · refine ⟨by decide, ?_⟩
    intro found
    cases found with
    | false => trivial
    | true =>
      refine ⟨by decide, ?_⟩
      intro answer
      cases answer <;> trivial

namespace Opened

theorem makesOnly_transpile (w : Wrappers) (t : Opened) : (t.transpile w).MakesOnly reading := by
  have events : t.events.MakesOnly reading := by
    match t with
    | .standardInput => exact ⟨by decide, fun _ => trivial⟩
    | .entry (.file bytes) => trivial
    | .entry .directory => trivial
  apply events.bind
  intro events
  exact Action.makesOnly_ofOutcome _ (by decide)

theorem makesOnly_transpileWithin (w : Wrappers) (limit : Duration) (t : Opened) :
    (t.transpileWithin w limit).MakesOnly reading := by
  have bytes : t.bytes.MakesOnly reading := by
    match t with
    | .standardInput => exact ⟨by decide, fun _ => trivial⟩
    | .entry (.file bytes) => trivial
    | .entry .directory => trivial
  apply bytes.bind
  intro bytes
  refine ⟨by decide, ?_⟩
  intro inTime
  exact Action.makesOnly_ofOutcome _ (by decide)

end Opened

theorem makesOnly_script (config input : Path) (selection : Selection) (timeout : Option Nat) :
    (script config input selection timeout).MakesOnly reading := by
  have more : inspection ⊆ reading := by decide
  apply ((selection.makesOnly_resolve config input).mono more).bind
  intro w
  apply ((makesOnly_openTemplate input).mono more).bind
  intro t
  refine ⟨by decide, ?_⟩
  cases timeout with
  | some ms => exact t.makesOnly_transpileWithin w _
  | none => exact t.makesOnly_transpile w

/-- Making a script writes nothing, neither to a file nor to standard output. -/
theorem script_keeps {config input : Path} {selection : Selection} {timeout : Option Nat}
    {w after : World} {result : Except Failure String}
    (ran : (script config input selection timeout).run w = (result, after)) :
    after.files = w.files ∧ after.output = w.output := by
  have only := makesOnly_script config input selection timeout
  have reached := congrArg Prod.snd ran
  constructor
  · exact (congrArg World.files reached).symm.trans (only.files_eq (by decide) w)
  · exact (congrArg World.output reached).symm.trans (only.output_eq (by decide) w)

/-! ## Where a script goes -/

theorem run_transpile_printing (explain : Json.Explanation) (config input : Path)
    (selection : Selection) (timeout : Option Nat) (w : World) :
    ((transpile input selection none timeout).action explain config).run w =
      match (script config input selection timeout).run w with
      | (.ok text, after) => (.ok (), { after with output := after.output ++ text })
      | (.error f, after) => (.error f, after) := by
  change ((script config input selection timeout).bind (deliver input none)).run w = _
  rw [Action.run_bind]
  rcases (script config input selection timeout).run w with ⟨failure | text, after⟩ <;> rfl

end Command

/-! ## Reading first and scanning afterwards -/

/-- However a reader cuts up the bytes that it delivers, the outcome is that of
reading them first, if the time suffices. -/
theorem Wrappers.transpileWithin_eq_transpileReader (w : Wrappers) (limit : Duration)
    {bytes : Bytes} {events : List ReadEvent} (delivers : ReadEvent.delivered events = bytes)
    (intact : ReadEvent.failure? events = none) :
    w.transpileWithin limit true bytes = w.transpileReader events := by
  have same := CharSource.deliver_ofEvents_congr
    ((ReadEvent.delivered_chunk bytes).trans delivers.symm)
    ((ReadEvent.failure?_chunk bytes).trans intact.symm)
  simp only [transpileWithin, transpileBytes, transpileReader, same, if_true]

namespace Command

namespace Opened

theorem run_transpileWithin (wrappers : Wrappers) (limit : Duration) {t : Opened}
    (readable : t ≠ .entry .directory) {w : World} (inTime : w.inTime = true) :
    (t.transpileWithin wrappers limit).run w = (t.transpile wrappers).run w := by
  have same (bytes : Bytes) :
      wrappers.transpileWithin limit true bytes = wrappers.transpileReader [.chunk bytes] :=
    wrappers.transpileWithin_eq_transpileReader limit (ReadEvent.delivered_chunk bytes)
      (ReadEvent.failure?_chunk bytes)
  rcases w with ⟨files, medium, input, _, output, log⟩
  cases inTime
  match t with
  | .entry .directory => exact absurd rfl readable
  | .entry (.file bytes) =>
    change (Action.ofOutcome (wrappers.transpileWithin limit true bytes)).run _ = _
    rw [same]
    rfl
  | .standardInput =>
    change (Action.ofOutcome (wrappers.transpileWithin limit true input)).run _ = _
    rw [same]
    rfl

/-- A directory is opened without complaint.  Its scan fails at the first read,
and reading it first fails outright. -/
theorem run_directory (wrappers : Wrappers) (limit : Duration) (w : World) :
    (transpileWithin wrappers limit (.entry .directory)).run w = (.error (.io .directory), w) ∧
      (transpile wrappers (.entry .directory)).run w =
        (.error (.unreadableInput .directory), w) := by
  refine ⟨rfl, ?_⟩
  have outcome : wrappers.transpileReader [.failure .directory] =
      ⟨[], .error (.unreadableInput .directory)⟩ := rfl
  change (Action.ofOutcome (wrappers.transpileReader [.failure .directory])).run w = _
  rw [outcome]
  simp only [Action.ofOutcome, Action.ofExcept, Action.run, List.append_nil]

end Opened

theorem directory_of_openTemplate {input : Path} {w after : World}
    (opened : (openTemplate input).run w = (.ok (.entry .directory), after)) :
    input.sameAs standardInput = false ∧ w.files.access input = .ok .directory := by
  unfold openTemplate at opened
  by_cases standard : input.sameAs standardInput = true
  · rw [if_pos standard] at opened
    cases opened
  · rw [if_neg standard] at opened
    simp only [Action.run] at opened
    cases found : w.files.has input with
    | false =>
      rw [found] at opened
      cases opened
    | true =>
      rw [found] at opened
      simp only [Action.run] at opened
      cases accessed : w.files.access input with
      | error cause =>
        rw [accessed] at opened
        cases opened
      | ok entry =>
        rw [accessed] at opened
        cases opened
        exact ⟨Bool.eq_false_iff.mpr standard, rfl⟩

/-- Two runs of an action on a template end alike, or both are refused because
the template is a directory. -/
inductive EndsAlike {α : Type} (input : Path) (files : FileTree)
    (limited streamed : Except Failure α × World) : Prop where
  | same (equal : limited = streamed)
  | refused (notStandard : input.sameAs standardInput = false)
      (directory : files.access input = .ok .directory)
      (limitedRefused : limited.1 = .error (.io .directory))
      (streamedRefused : streamed.1 = .error (.unreadableInput .directory))
      (sameWorld : limited.2 = streamed.2)

theorem EndsAlike.bind {α β : Type} {input : Path} {files : FileTree} {m n : Action β} {w : World}
    (alike : EndsAlike input files (m.run w) (n.run w)) (f : β → Action α) :
    EndsAlike input files ((m >>= f).run w) ((n >>= f).run w) := by
  cases alike with
  | same equal =>
    apply EndsAlike.same
    rw [Action.bind_eq, Action.bind_eq, Action.run_bind, Action.run_bind, equal]
  | refused notStandard directory limitedRefused streamedRefused sameWorld =>
    rw [Action.run_bind_of_error f (Prod.ext limitedRefused rfl),
      Action.run_bind_of_error f (Prod.ext streamedRefused rfl)]
    exact .refused notStandard directory rfl rfl sameWorld

theorem script_endsAlike (config input : Path) (selection : Selection) (ms : Nat) {w : World}
    (inTime : w.inTime = true) :
    EndsAlike input w.files ((script config input selection (some ms)).run w)
      ((script config input selection none).run w) := by
  have failing (failure : Failure) (after : World) :
      EndsAlike (α := String) input w.files (.error failure, after) (.error failure, after) :=
    .same rfl
  apply Action.related_bind (R := EndsAlike input w.files) failing
  intro wrappers after resolved
  rcases (selection.makesOnly_resolve config input).world_eq resolved with ⟨_, rfl⟩
  apply Action.related_bind (R := EndsAlike input w.files) failing
  intro t after opened
  rcases (makesOnly_openTemplate input).world_eq opened with ⟨log, rfl⟩
  -- Up to here nothing was different; what is left depends on what was opened.
  by_cases directory : t = .entry .directory
  · subst directory
    rcases directory_of_openTemplate opened with ⟨notStandard, found⟩
    rcases Opened.run_directory wrappers (.ofMilliseconds ms)
      { w with log := log ++ [.transpiling input.spelling] } with ⟨limited, streamed⟩
    exact .refused notStandard found (congrArg Prod.fst limited) (congrArg Prod.fst streamed)
      ((congrArg Prod.snd limited).trans (congrArg Prod.snd streamed).symm)
  · apply EndsAlike.same
    exact Opened.run_transpileWithin wrappers (.ofMilliseconds ms) directory inTime

/-- A time limit that is not reached makes no difference: the exit status,
standard output and the files are the same with and without it, and so is the
failure, unless the template is a directory.  The reading of a template may be
cut up in any way. -/
theorem transpile_within_limit_agrees (explain : Json.Explanation) (config input : Path)
    (selection : Selection) (output : Option Path) (ms : Nat) (verbosity : Nat) (w : World)
    (inTime : w.inTime = true) :
    let limited := ((transpile input selection output (some ms)).action explain config).run w
    let streamed := ((transpile input selection output none).action explain config).run w
    (Program.finished explain verbosity limited.1 limited.2).status =
        (Program.finished explain verbosity streamed.1 streamed.2).status ∧
      limited.2.output = streamed.2.output ∧
      limited.2.files = streamed.2.files ∧
      (input.sameAs standardInput = true ∨ w.files.access input ≠ .ok .directory →
        limited.1 = streamed.1) ∧
      ∀ wrappers bytes events, ReadEvent.delivered events = bytes →
        ReadEvent.failure? events = none →
        Wrappers.transpileWithin wrappers (.ofMilliseconds ms) true bytes =
          Wrappers.transpileReader wrappers events := by
  intro limited streamed
  have cut (wrappers : Wrappers) (bytes : Bytes) (events : List ReadEvent)
      (delivers : ReadEvent.delivered events = bytes) (intact : ReadEvent.failure? events = none) :
      wrappers.transpileWithin (.ofMilliseconds ms) true bytes = wrappers.transpileReader events :=
    wrappers.transpileWithin_eq_transpileReader _ delivers intact
  have alike : EndsAlike input w.files limited streamed :=
    (script_endsAlike config input selection ms inTime).bind (deliver input output)
  cases alike with
  | same equal =>
    rw [equal]
    exact ⟨rfl, rfl, rfl, fun _ => rfl, cut⟩
  | refused notStandard directory limitedRefused streamedRefused sameWorld =>
    rw [limitedRefused, streamedRefused, sameWorld]
    refine ⟨rfl, rfl, rfl, ?_, cut⟩
    rintro (standard | readable)
    · exact absurd standard (Bool.eq_false_iff.mp notStandard)
    · exact absurd directory readable

/-- A file that breaks off within a directive and within a character. -/
theorem transpile_within_limit_agrees_on_cut_file :
    let input : Path := ⟨"page.ejs"⟩
    let output : Option Path := some ⟨"page.js"⟩
    let bytes : Bytes := [0x61, 0x3c, 0x25, 0xc3]
    let w : World := { files := ⟨[(["page.ejs"], .file bytes)], []⟩ }
    let events : List ReadEvent :=
      [.chunk [0x61, 0x3c], .failure ⟨.interrupted, ""⟩, .chunk [0x25, 0xc3]]
    w.inTime = true ∧ w.files.access input = .ok (.file bytes) ∧
      ReadEvent.delivered events = bytes ∧ ReadEvent.failure? events = none ∧
      (((transpile input {} output (some 5000)).action String.ofList Config.standardPath).run w).1 =
        (((transpile input {} output none).action String.ofList Config.standardPath).run w).1 ∧
      Preset.standard.wrappers.transpileWithin (.ofMilliseconds 5000) true bytes =
        Preset.standard.wrappers.transpileReader events := by
  intro input output bytes w events
  have regular : w.files.access input = .ok (.file bytes) := by
    subst w bytes input
    rfl
  rcases transpile_within_limit_agrees String.ofList Config.standardPath input {} output 5000 0 w
    rfl with ⟨-, -, -, failures, readings⟩
  refine ⟨rfl, regular, rfl, rfl, failures (.inr ?_), readings _ bytes events rfl rfl⟩
  rw [regular]
  intro impossible
  cases impossible

end Command

end TemplateScript

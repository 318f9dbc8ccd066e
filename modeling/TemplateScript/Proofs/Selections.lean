import Mathlib.Data.List.TakeWhile
import Mathlib.Tactic.SplitIfs
import TemplateScript.Proofs.Scripts

namespace TemplateScript

/-!
# Where the wrappers of a template come from

The wrappers of a template have one source: a preset that is asked for, or else a
configuration that is found, or else the extension of the template.  The sources
before the one that counts are not there, and those behind it are not asked.
In particular a configuration that cannot be used is a failure only where it
counts, and then no string that is given for a slot makes up for it.

Strings for single slots are put in afterwards.  Each slot looks at its own string
and at nothing else, so they cannot get into each other's way.
-/

namespace Path

/-! ## Extensions -/

/-- The last component of the path is a name with the extension: some characters, a
dot, and the extension without a further dot. -/
def HasExtension (p : Path) (extension : String) : Prop :=
  ∃ stem, stem ≠ "" ∧ '.' ∉ extension.toList ∧ p.fileName? = some (stem ++ "." ++ extension)

theorem extensionOf?_append {stem extension : String} (proper : stem ≠ "")
    (last : '.' ∉ extension.toList) :
    extensionOf? (stem ++ "." ++ extension) = some extension := by
  have reversed : (stem ++ "." ++ extension).toList.reverse =
      extension.toList.reverse ++ '.' :: stem.toList.reverse := by simp
  have after : (extension.toList.reverse ++ '.' :: stem.toList.reverse).takeWhile
      (fun c => decide (c ≠ '.')) = extension.toList.reverse := by
    rw [List.takeWhile_append_of_pos, List.takeWhile_cons_of_neg (by decide), List.append_nil]
    intro c member
    apply decide_eq_true
    rintro rfl
    exact last (List.mem_reverse.mp member)
  have front : stem.toList.reverse ≠ [] := by
    intro empty
    exact proper (String.toList_eq_nil_iff.mp (List.reverse_eq_nil_iff.mp empty))
  rcases List.exists_cons_of_ne_nil front with ⟨c, rest, split⟩
  simp only [extensionOf?, reversed, after, List.drop_left]
  rw [split]
  simp only [List.reverse_reverse, String.ofList_toList]

theorem exists_eq_of_extensionOf? {name extension : String}
    (found : extensionOf? name = some extension) :
    ∃ stem, stem ≠ "" ∧ '.' ∉ extension.toList ∧ name = stem ++ "." ++ extension := by
  simp only [extensionOf?] at found
  generalize split : name.toList.reverse.takeWhile (fun c => decide (c ≠ '.')) = after at found
  have parts : name.toList.reverse =
      after ++ name.toList.reverse.dropWhile fun c => decide (c ≠ '.') := by
    rw [← split, List.takeWhile_append_dropWhile]
  have noDot : '.' ∉ after := by
    intro member
    rw [← split] at member
    exact absurd (List.mem_takeWhile_imp member) (by decide)
  have dot := List.head?_dropWhile_not (fun c => decide (c ≠ '.')) name.toList.reverse
  rw [parts, List.drop_left] at found
  split at found
  · rename_i c d rest dropped
    rw [dropped] at parts dot
    cases found
    have first : c = '.' := by simpa using dot
    refine ⟨String.ofList (rest.reverse ++ [d]), ?_, ?_, ?_⟩
    · simp
    · simpa using noDot
    · apply String.toList_inj.mp
      rw [← List.reverse_inj, parts, first]
      simp
  · cases found

theorem extension?_eq_some_iff {p : Path} {extension : String} :
    p.extension? = some extension ↔ p.HasExtension extension := by
  rw [extension?, Option.bind_eq_some_iff]
  constructor
  · rintro ⟨name, last, found⟩
    rcases exists_eq_of_extensionOf? found with ⟨stem, proper, noDot, rfl⟩
    exact ⟨stem, proper, noDot, last⟩
  · rintro ⟨stem, proper, noDot, last⟩
    exact ⟨_, last, extensionOf?_append proper noDot⟩

end Path

namespace Preset

/-! ## Presets by name and by extension -/

/-- A name finds the listed preset that has it, and no other. -/
theorem ofName_eq_ok_iff {name : String} {p : Preset} :
    ofName name = .ok p ↔ p ∈ all ∧ p.name = name := by
  constructor
  · intro found
    unfold ofName at found
    split_ifs at found with javaScript prints marks
    · cases found
      exact ⟨by decide, javaScript.symm⟩
    · cases found
      exact ⟨by decide, prints.symm⟩
    · cases found
      exact ⟨by decide, marks.symm⟩
  · rintro ⟨listed, rfl⟩
    simp only [all, List.mem_cons, List.not_mem_nil, or_false] at listed
    rcases listed with rfl | rfl | rfl <;> rfl

/-- A name that no listed preset has is unknown, and nothing else goes wrong. -/
theorem ofName_eq_error_iff {name : String} {f : Failure} :
    ofName name = .error f ↔ (∀ p ∈ all, p.name ≠ name) ∧ f = .unknownPreset name := by
  constructor
  · intro unknown
    constructor
    · intro p listed named
      rw [ofName_eq_ok_iff.mpr ⟨listed, named⟩] at unknown
      cases unknown
    · unfold ofName at unknown
      split_ifs at unknown
      cases unknown
      rfl
  · rintro ⟨unlisted, rfl⟩
    have javaScript : name ≠ "embedded-javascript" := (unlisted embeddedJavaScript (by decide)).symm
    have prints : name ≠ "print" := (unlisted print (by decide)).symm
    have marks : name ≠ "markers" := (unlisted markers (by decide)).symm
    rw [ofName, if_neg javaScript, if_neg prints, if_neg marks]

/-- The preset lists the extension, up to the case of English letters. -/
def Claims (p : Preset) (extension : String) : Prop :=
  ∃ listed ∈ p.extensions, extension.toLower = listed.toLower

theorem any_sameExtension_iff {p : Preset} {extension : String} :
    p.extensions.any (sameExtension extension) = true ↔ p.Claims extension := by
  simp only [List.any_eq_true, sameExtension, decide_eq_true_iff, Claims]

theorem eq_embeddedJavaScript_of_claims {p : Preset} {extension : String} (listed : p ∈ all)
    (claims : p.Claims extension) : p = embeddedJavaScript := by
  rcases claims with ⟨own, member, -⟩
  simp only [all, List.mem_cons, List.not_mem_nil, or_false] at listed
  rcases listed with rfl | rfl | rfl
  · rfl
  · cases member
  · cases member

/-- An extension finds the listed preset that claims it.  No two of them claim the same. -/
theorem ofExtension?_eq_some_iff {extension : String} {p : Preset} :
    ofExtension? extension = some p ↔ p ∈ all ∧ p.Claims extension := by
  constructor
  · intro found
    have matched := List.find?_some found
    exact ⟨List.mem_of_find?_eq_some found, any_sameExtension_iff.mp matched⟩
  · rintro ⟨listed, claims⟩
    cases eq_embeddedJavaScript_of_claims listed claims
    exact List.find?_cons_of_pos (any_sameExtension_iff.mpr claims)

theorem ofExtension?_eq_none_iff {extension : String} :
    ofExtension? extension = none ↔ ∀ p ∈ all, ¬ p.Claims extension := by
  simp only [ofExtension?, List.find?_eq_none, any_sameExtension_iff]

end Preset

namespace Config

/-! ## Configurations -/

/-- The wrappers that a configuration stands for: those that it gives, whatever
preset it names besides; otherwise those of the listed preset that it names; and
the standard ones if it says nothing. -/
inductive Chooses : Config → Wrappers → Prop where
  | given (preset : Option String) (wrappers : Wrappers) :
      Chooses ⟨preset, some wrappers⟩ wrappers
  | named {p : Preset} (listed : p ∈ Preset.all) : Chooses ⟨some p.name, none⟩ p.wrappers
  | standard : Chooses ⟨none, none⟩ Preset.standard.wrappers

theorem resolve_eq_ok_iff (c : Config) (wrappers : Wrappers) :
    c.resolve = .ok wrappers ↔ c.Chooses wrappers := by
  constructor
  · intro resolved
    rcases c with ⟨preset, own⟩
    cases own with
    | some own =>
      cases resolved
      exact .given preset wrappers
    | none =>
      cases preset with
      | none =>
        cases resolved
        exact .standard
      | some name =>
        cases found : Preset.ofName name with
        | error f => simp [resolve, found] at resolved
        | ok p =>
          rcases Preset.ofName_eq_ok_iff.mp found with ⟨listed, rfl⟩
          simp only [resolve, found, Except.ok.injEq] at resolved
          subst resolved
          exact .named listed
  · intro chooses
    cases chooses with
    | given preset => rfl
    | named listed => simp only [resolve, Preset.ofName_eq_ok_iff.mpr ⟨listed, rfl⟩]
    | standard => rfl

/-- Only a name can fail, if it is unknown and no wrappers are given. -/
theorem resolve_eq_error_iff (c : Config) (f : Failure) :
    c.resolve = .error f ↔
      ∃ name, c = ⟨some name, none⟩ ∧ (∀ p ∈ Preset.all, p.name ≠ name) ∧
        f = .unknownPreset name := by
  constructor
  · intro failed
    rcases c with ⟨preset, own⟩
    match own, preset with
    | some given, _ => cases failed
    | none, none => cases failed
    | none, some name =>
      cases found : Preset.ofName name with
      | ok p => simp [resolve, found] at failed
      | error g =>
        simp only [resolve, found, Except.error.injEq] at failed
        exact ⟨name, rfl, Preset.ofName_eq_error_iff.mp (failed ▸ found)⟩
  · rintro ⟨name, rfl, unknown⟩
    simp only [resolve, Preset.ofName_eq_error_iff.mpr unknown]

theorem result_loadWrappers (p : Path) (w : World) :
    ((loadWrappers p).run w).1 = ((load p).run w).1.bind resolve := by
  change (((load p).bind fun c => .ofExcept c.resolve).run w).1 = _
  rw [Action.run_bind]
  rcases (load p).run w with ⟨failure | c, after⟩
  · rfl
  · change ((Action.ofExcept c.resolve).run after).1 = c.resolve
    cases c.resolve <;> rfl

/-- Wrappers are loaded exactly if the configuration is and if it chooses any. -/
theorem loadWrappers_eq_ok_iff (p : Path) (w : World) (wrappers : Wrappers) :
    ((loadWrappers p).run w).1 = .ok wrappers ↔
      ∃ c, ((load p).run w).1 = .ok c ∧ c.resolve = .ok wrappers := by
  rw [result_loadWrappers]
  rcases ((load p).run w).1 with failure | c <;> simp [Except.bind]

theorem loadWrappers_eq_error_iff (p : Path) (w : World) (failure : Failure) :
    ((loadWrappers p).run w).1 = .error failure ↔
      ((load p).run w).1 = .error failure ∨
        ∃ c, ((load p).run w).1 = .ok c ∧ c.resolve = .error failure := by
  rw [result_loadWrappers]
  rcases ((load p).run w).1 with other | c <;> simp [Except.bind]

end Config

namespace Selection

/-- The wrappers of a template, or why there are none. -/
def result (s : Selection) (config input : Path) (w : World) : Except Failure Wrappers :=
  ((s.resolve config input).run w).1

/-- The preset of a template for which nothing else is said: the listed one that
claims its extension, or the standard one if none does. -/
inductive Suits (input : Path) : Preset → Prop where
  | claimed {p : Preset} {extension : String} (has : input.HasExtension extension)
      (listed : p ∈ Preset.all) (claims : p.Claims extension) : Suits input p
  | unclaimed (noClaim : ∀ extension, input.HasExtension extension →
      ∀ p ∈ Preset.all, ¬ p.Claims extension) : Suits input Preset.standard

/-- Each slot has the string that was given for it, with its escapes read, and
otherwise what it has in the base. -/
def Fills (s : Selection) (base chosen : Wrappers) : Prop :=
  ∀ slot, chosen.get slot = (s.strings.get? slot).elim (base.get slot) Escape.decode

/-! ## Slots -/

theorem fills_iff (s : Selection) (base chosen : Wrappers) :
    s.Fills base chosen ↔ chosen = base.override (s.strings.map Escape.decode) := by
  have slots (slot : Slot) : (base.override (s.strings.map Escape.decode)).get slot =
      (s.strings.get? slot).elim (base.get slot) Escape.decode := by
    rw [Wrappers.get_override, PartialWrappers.get?_map]
    cases s.strings.get? slot <;> rfl
  constructor
  · intro fills
    apply Wrappers.ext_get
    intro slot
    rw [fills slot, slots slot]
  · rintro rfl
    exact slots

theorem Fills.get_eq {s t : Selection} {base chosen changed : Wrappers}
    (first : s.Fills base chosen) (second : t.Fills base changed) {slot : Slot}
    (same : t.strings.get? slot = s.strings.get? slot) : changed.get slot = chosen.get slot := by
  rw [first slot, second slot, same]

/-! ## Sources -/

/-- The strings for single slots have no part in the choice of the source. -/
theorem base_congr {s t : Selection} (same : t.preset = s.preset) (config input : Path) :
    t.base config input = s.base config input := by
  simp only [base, same]

theorem run_resolve (s : Selection) (config input : Path) (w : World) :
    (s.resolve config input).run w =
      (((s.base config input).run w).1.map fun b => b.override (s.strings.map Escape.decode),
        ((s.base config input).run w).2) := by
  change ((s.base config input).bind _).run w = _
  rw [Action.run_bind]
  rcases (s.base config input).run w with ⟨failure | chosen, after⟩ <;> rfl

theorem result_eq_ok_iff (s : Selection) (config input : Path) (w : World) (chosen : Wrappers) :
    s.result config input w = .ok chosen ↔
      ∃ b, ((s.base config input).run w).1 = .ok b ∧ s.Fills b chosen := by
  rw [result, run_resolve]
  rcases ((s.base config input).run w).1 with failure | b
  · simp [Except.map]
  · simp [Except.map, fills_iff, eq_comm]

theorem result_eq_error_iff (s : Selection) (config input : Path) (w : World) (failure : Failure) :
    s.result config input w = .error failure ↔
      ((s.base config input).run w).1 = .error failure := by
  rw [result, run_resolve]
  rcases ((s.base config input).run w).1 with other | b <;> simp [Except.map]

/-- A preset is asked for with its name. -/
theorem ofWord?_eq_some_iff {word : String} {choice : Choice} :
    Choice.ofWord? word = some choice ↔ word = choice.name := by
  constructor
  · intro asked
    unfold Choice.ofWord? at asked
    split_ifs at asked with javaScript prints marks
    · cases asked
      exact javaScript
    · cases asked
      exact prints
    · cases asked
      exact marks
  · rintro rfl
    cases choice <;> rfl

/-- What can be asked for is listed. -/
theorem exists_name_eq (choice : Choice) : ∃ p ∈ Preset.all, p.name = choice.name := by
  cases choice <;> decide

theorem base_of_choice {s : Selection} {choice : Choice} (asked : s.preset = some choice)
    {p : Preset} (listed : p ∈ Preset.all) (named : p.name = choice.name) (config input : Path) :
    s.base config input = .done p.wrappers := by
  simp only [base, asked, Preset.ofName_eq_ok_iff.mpr ⟨listed, named⟩]
  rfl

theorem run_base_found {s : Selection} (unasked : s.preset = none) {config : Path} {w : World}
    (found : w.files.has config = true) (input : Path) :
    (s.base config input).run w =
      (Config.loadWrappers config).run
        { w with log := w.log ++ [.usingConfig config.spelling] } := by
  simp only [base, unasked, Action.run, found]

/-- The extension always decides on some preset. -/
theorem result_byExtension (input : Path) :
    ∃ p, Suits input p ∧ (byExtension input).result = .ok p.wrappers := by
  unfold byExtension
  cases found : input.extension?.bind Preset.ofExtension? with
  | some p =>
    rcases Option.bind_eq_some_iff.mp found with ⟨extension, has, claimed⟩
    rcases Preset.ofExtension?_eq_some_iff.mp claimed with ⟨listed, claims⟩
    exact ⟨p, .claimed (Path.extension?_eq_some_iff.mp has) listed claims, rfl⟩
  | none =>
    refine ⟨Preset.standard, .unclaimed fun extension has => ?_, rfl⟩
    have unknown := Option.bind_eq_none_iff.mp found extension (Path.extension?_eq_some_iff.mpr has)
    exact Preset.ofExtension?_eq_none_iff.mp unknown

theorem run_base_missing {s : Selection} (unasked : s.preset = none) {config : Path} {w : World}
    (missing : w.files.has config = false) (input : Path) :
    ∃ p, Suits input p ∧ ((s.base config input).run w).1 = .ok p.wrappers := by
  rcases result_byExtension input with ⟨p, suits, chosen⟩
  refine ⟨p, suits, ?_⟩
  simp only [base, unasked, Action.run, missing]
  change ((Action.ofExcept (byExtension input).result).run _).1 = _
  rw [chosen]
  rfl

/-- A configuration chooses the wrappers that it gives, or else those of the preset
that it names, which must be listed, or else the standard ones.  A preset is asked
for with its name, and it is taken without a look at anything else.  Otherwise a
configuration that is found is taken whatever the template is, and there are
wrappers exactly if it can be loaded and chooses some.  Where there is neither, the
template's extension decides, and nothing can fail.  Whatever was taken, each slot
has its own string if one was given; so a change to the string of one slot changes
this slot at most, and no failure. -/
theorem resolve_slot_by_slot (s : Selection) (config input : Path) (w : World) :
    (∀ c : Config,
      (∀ base, c.resolve = .ok base ↔ c.Chooses base) ∧
      ∀ failure, c.resolve = .error failure ↔
        ∃ name, c = ⟨some name, none⟩ ∧ (∀ p ∈ Preset.all, p.name ≠ name) ∧
          failure = .unknownPreset name) ∧
    (∀ choice, s.preset = some choice →
      (s.resolve config input).MakesOnly [] ∧
      ∃ p ∈ Preset.all, (∀ word, Choice.ofWord? word = some choice ↔ word = p.name) ∧
        ∃ chosen, s.Fills p.wrappers chosen ∧
          ∀ (anyConfig anyInput : Path) (v : World),
            (s.resolve anyConfig anyInput).run v = (.ok chosen, v)) ∧
    (s.preset = none → w.files.has config = true →
      (∀ anyInput, (s.resolve config anyInput).run w = (s.resolve config input).run w) ∧
      (∀ failure, s.result config input w = .error failure ↔
        ((Config.load config).run w).1 = .error failure ∨
          ∃ c, ((Config.load config).run w).1 = .ok c ∧ c.resolve = .error failure) ∧
      ∀ chosen, s.result config input w = .ok chosen ↔
        ∃ c base, ((Config.load config).run w).1 = .ok c ∧ c.resolve = .ok base ∧
          s.Fills base chosen) ∧
    (s.preset = none → w.files.has config = false →
      ∃ p chosen, Suits input p ∧ s.result config input w = .ok chosen ∧
        s.Fills p.wrappers chosen) ∧
    ∀ (t : Selection) (slot : Slot), t.preset = s.preset →
      (∀ other, other ≠ slot → t.strings.get? other = s.strings.get? other) →
      (∀ failure, t.result config input w = .error failure ↔
        s.result config input w = .error failure) ∧
      ∀ chosen changed, s.result config input w = .ok chosen →
        t.result config input w = .ok changed →
        ∀ other, other ≠ slot → changed.get other = chosen.get other := by
  refine ⟨fun c => ⟨c.resolve_eq_ok_iff, c.resolve_eq_error_iff⟩, ?_, ?_, ?_, ?_⟩
  · intro choice asked
    rcases exists_name_eq choice with ⟨p, listed, named⟩
    have taken := base_of_choice asked listed named
    constructor
    · have only : (s.base config input).MakesOnly [] := by
        rw [taken]
        trivial
      exact only.bind fun _ => trivial
    · refine ⟨p, listed, fun word => ?_, _, (s.fills_iff _ _).mpr rfl, ?_⟩
      · rw [ofWord?_eq_some_iff, named]
      · intro anyConfig anyInput v
        rw [run_resolve, taken]
        rfl
  · intro unasked found
    have source := run_base_found unasked found
    -- The record that comes first is not seen by loading.
    have loads := (Config.makesOnly_load config).result_eq
      (w := { w with log := w.log ++ [.usingConfig config.spelling] }) (v := w)
      rfl (fun _ => rfl) (fun _ => rfl) (fun _ => rfl)
    refine ⟨fun anyInput => ?_, fun failure => ?_, fun chosen => ?_⟩
    · rw [run_resolve, run_resolve, source, source]
    · rw [result_eq_error_iff, source, Config.loadWrappers_eq_error_iff, loads]
    · simp only [result_eq_ok_iff, source, Config.loadWrappers_eq_ok_iff, loads]
      constructor
      · rintro ⟨base, ⟨c, loaded, resolved⟩, fills⟩
        exact ⟨c, base, loaded, resolved, fills⟩
      · rintro ⟨c, base, loaded, resolved, fills⟩
        exact ⟨base, ⟨c, loaded, resolved⟩, fills⟩
  · intro unasked missing
    rcases run_base_missing unasked missing input with ⟨p, suits, taken⟩
    have fills := (s.fills_iff p.wrappers _).mpr rfl
    exact ⟨p, _, suits, (s.result_eq_ok_iff config input w _).mpr ⟨_, taken, fills⟩, fills⟩
  · intro t slot samePreset elsewhere
    have sameBase := base_congr samePreset config input
    constructor
    · intro failure
      rw [result_eq_error_iff, result_eq_error_iff, sameBase]
    · intro chosen changed succeeds alsoSucceeds other different
      rcases (s.result_eq_ok_iff config input w chosen).mp succeeds with ⟨base, found, fills⟩
      rcases (t.result_eq_ok_iff config input w changed).mp alsoSucceeds with
        ⟨otherBase, alsoFound, alsoFills⟩
      rw [sameBase, found] at alsoFound
      cases alsoFound
      exact fills.get_eq alsoFills (elsewhere other different)

theorem resolve_slot_by_slot_beside_broken_config :
    let config : Path := ⟨"c.json"⟩
    let w : World := { files := ⟨[(["c.json"], .file [0x7B])], []⟩ }
    let strings : PartialWrappers := ⟨some "", some "\\n", some "(", some ")"⟩
    w.files.has config = true ∧
      (resolve ⟨some .print, strings⟩ config ⟨"a.ejs"⟩).run w = (.ok ⟨"", "\n", "(", ")"⟩, w) ∧
      result ⟨none, strings⟩ config ⟨"a.ejs"⟩ w =
        .error (.invalidConfig "c.json" .truncated ['\x7B']) := by
  intro config w strings
  have found : w.files.has config = true := by
    subst w config
    decide
  have broken : ((Config.load config).run w).1 =
      .error (.invalidConfig "c.json" .truncated ['\x7B']) := by
    subst w config
    rfl
  rcases (resolve_slot_by_slot ⟨some .print, strings⟩ config ⟨"a.ejs"⟩ w).2.1 _ rfl with
    ⟨-, p, -, -, chosen, fills, runs⟩
  rcases (resolve_slot_by_slot ⟨none, strings⟩ config ⟨"a.ejs"⟩ w).2.2.1 rfl found with
    ⟨-, failures, -⟩
  refine ⟨found, ?_, (failures _).mpr (.inl broken)⟩
  rw [runs, (fills_iff _ _ _).mp fills]
  rfl

end Selection

end TemplateScript

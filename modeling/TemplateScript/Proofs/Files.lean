import TemplateScript.FileTree

namespace TemplateScript
namespace FileTree

/-!
# Writing a file and finding it again

A file is written at one place.  The way to that place leads through
directories only, and the place itself holds none, so writing the file does not
disturb the way: the path that was written to denotes the file afterwards.

Nothing is assumed about the tree, not even that what is found at some place has
a directory above it.
-/

/-! ## Ways through a tree -/

/-- A way that leads somewhere goes on from a directory. -/
theorem follow_cons_eq_ok {t : FileTree} {here last : Location} {step : Path.Step}
    {rest : List Path.Step} :
    t.follow here (step :: rest) = .ok last ↔
      t.find? here = some .directory ∧
        match step with
        | .stay => t.follow here rest = .ok last
        | .up => t.follow here.dropLast rest = .ok last
        | .down name =>
          ¬ longestName < name.utf8ByteSize ∧ (t.find? (here ++ [name])).isSome = true ∧
            t.follow (here ++ [name]) rest = .ok last := by
  cases found : t.find? here with
  | none => simp [follow, found]
  | some entry =>
    cases entry with
    | file content => simp [follow, found]
    | directory =>
      cases step with
      | stay => simp [follow, found]
      | up => simp [follow, found]
      | down name =>
        by_cases long : longestName < name.utf8ByteSize
        · simp [follow, found, long]
        · by_cases there : (t.find? (here ++ [name])).isSome = true
          · simp [follow, found, long, there]
          · simp [follow, found, long, there]

theorem follow_append {t : FileTree} {here middle : Location} {front back : List Path.Step}
    (first : t.follow here front = .ok middle) :
    t.follow here (front ++ back) = t.follow middle back := by
  induction front generalizing here with
  | nil =>
    cases first
    rfl
  | cons step front ih =>
    rcases follow_cons_eq_ok.mp first with ⟨directory, goesOn⟩
    cases step with
    | stay =>
      simp only [List.cons_append, follow, directory]
      exact ih goesOn
    | up =>
      simp only [List.cons_append, follow, directory]
      exact ih goesOn
    | down name =>
      rcases goesOn with ⟨short, there, goesOn⟩
      simp only [List.cons_append, follow, directory, if_neg short, if_pos there]
      exact ih goesOn

/-- A way is not disturbed as long as its directories stay directories and what
is there stays there, whatever the files hold. -/
theorem follow_mono {t after : FileTree}
    (directories : ∀ place, t.find? place = some .directory → after.find? place = some .directory)
    (present : ∀ place, (t.find? place).isSome = true → (after.find? place).isSome = true)
    {here last : Location} {steps : List Path.Step} (leads : t.follow here steps = .ok last) :
    after.follow here steps = .ok last := by
  induction steps generalizing here with
  | nil => exact leads
  | cons step steps ih =>
    rcases follow_cons_eq_ok.mp leads with ⟨directory, goesOn⟩
    apply follow_cons_eq_ok.mpr
    refine ⟨directories here directory, ?_⟩
    cases step with
    | stay => exact ih goesOn
    | up => exact ih goesOn
    | down name =>
      rcases goesOn with ⟨short, there, goesOn⟩
      exact ⟨short, present _ there, ih goesOn⟩

/-- Ways through a tree are not disturbed by a file at a place that holds no
directory. -/
theorem follow_insert_file {t : FileTree} {place : Location} (below : place ≠ [])
    (noDirectory : t.find? place ≠ some .directory) (content : Bytes) {here last : Location}
    {steps : List Path.Step} (leads : t.follow here steps = .ok last) :
    (t.insert place (.file content)).follow here steps = .ok last := by
  refine follow_mono ?_ ?_ leads
  · intro other directory
    have different : other ≠ place := by
      intro same
      subst same
      exact noDirectory directory
    rw [find?_insert_of_ne t _ different, directory]
  · intro other there
    by_cases same : other = place
    · rw [same, find?_insert_self t _ below]
      rfl
    · rw [find?_insert_of_ne t _ same]
      exact there

/-! ## The place of a file -/

/-- What it takes to write a file to a path: a directory that the path leads to
up to its last name, and a name in it that no directory bears. -/
structure Creates (t : FileTree) (p : Path) (parent : Location) (name : String) : Prop where
  wellFormed : objection? p = none
  noSlash : p.endsWithSlash = false
  lastStep : p.steps = p.steps.dropLast ++ [.down name]
  leads : t.follow (t.origin p) p.steps.dropLast = .ok parent
  inDirectory : t.find? parent = some .directory
  short : ¬ longestName < name.utf8ByteSize
  noDirectory : t.find? (parent ++ [name]) ≠ some .directory

theorem creates_of_child {t : FileTree} {p : Path} {name : String} {parent place : Location}
    (wellFormed : objection? p = none) (last : p.steps.getLast? = some (.down name))
    (leads : t.follow (t.origin p) p.steps.dropLast = .ok parent)
    (child : t.child parent name p.endsWithSlash = .ok place) :
    t.Creates p parent name ∧ place = parent ++ [name] := by
  unfold FileTree.child at child
  cases found : t.find? parent with
  | none =>
    rw [found] at child
    cases child
  | some entry =>
    cases entry with
    | file content =>
      rw [found] at child
      cases child
    | directory =>
      simp only [found] at child
      cases slash : p.endsWithSlash with
      | true =>
        rw [slash, if_pos rfl] at child
        cases child
      | false =>
        rw [slash, if_neg Bool.false_ne_true] at child
        by_cases long : longestName < name.utf8ByteSize
        · rw [if_pos long] at child
          cases child
        · rw [if_neg long] at child
          by_cases taken : t.find? (parent ++ [name]) = some .directory
          · rw [if_pos taken] at child
            cases child
          · rw [if_neg taken] at child
            cases child
            rcases List.getLast?_eq_some_iff.mp last with ⟨before, split⟩
            have lastStep : p.steps = p.steps.dropLast ++ [.down name] := by
              rw [split, List.dropLast_concat]
            exact ⟨⟨wellFormed, slash, lastStep, leads, found, long, taken⟩, rfl⟩

/-- A path that does not end in a name denotes a directory, if anything. -/
theorem creates_of_target {t : FileTree} {p : Path} {place : Location}
    (target : t.target p = .ok place) :
    ∃ parent name, t.Creates p parent name ∧ place = parent ++ [name] := by
  unfold FileTree.target at target
  cases wellFormed : objection? p with
  | some cause =>
    rw [wellFormed] at target
    cases target
  | none =>
    rw [wellFormed] at target
    cases last : p.steps.getLast? with
    | none =>
      simp only [last] at target
      split at target <;> cases target
    | some step =>
      rw [last] at target
      cases step with
      | stay =>
        simp only at target
        split at target <;> cases target
      | up =>
        simp only at target
        split at target <;> cases target
      | down name =>
        cases leads : t.follow (t.origin p) p.steps.dropLast with
        | error cause =>
          simp only [leads] at target
          cases target
        | ok parent =>
          simp only [leads] at target
          exact ⟨parent, name, creates_of_child wellFormed last leads target⟩

/-- There is one place under a path at which a file can be written. -/
theorem Creates.unique {t : FileTree} {p : Path} {parent other : Location} {name second : String}
    (creates : t.Creates p parent name) (also : t.Creates p other second) :
    other ++ [second] = parent ++ [name] := by
  have sameParent : Except.ok other = Except.ok parent := also.leads.symm.trans creates.leads
  have sameStep := also.lastStep.symm.trans creates.lastStep
  cases sameParent
  cases List.append_cancel_left sameStep
  rfl

/-- The path denotes whatever is at its place. -/
theorem Creates.resolve_eq {t : FileTree} {p : Path} {parent : Location} {name : String}
    (creates : t.Creates p parent name) : t.resolve p = t.follow parent [.down name] := by
  unfold FileTree.resolve
  rw [creates.wellFormed, creates.noSlash, creates.lastStep]
  exact follow_append creates.leads

theorem Creates.resolve_of_isSome {t : FileTree} {p : Path} {parent : Location} {name : String}
    (creates : t.Creates p parent name) (there : (t.find? (parent ++ [name])).isSome = true) :
    t.resolve p = .ok (parent ++ [name]) := by
  rw [creates.resolve_eq]
  apply follow_cons_eq_ok.mpr
  exact ⟨creates.inDirectory, creates.short, there, rfl⟩

/-- A file that was written can be written again. -/
theorem Creates.insert {t : FileTree} {p : Path} {parent : Location} {name : String}
    (creates : t.Creates p parent name) (content : Bytes) :
    (t.insert (parent ++ [name]) (.file content)).Creates p parent name where
  wellFormed := creates.wellFormed
  noSlash := creates.noSlash
  lastStep := creates.lastStep
  leads := follow_insert_file (by simp) creates.noDirectory content creates.leads
  inDirectory := by rw [find?_insert_of_ne t _ (by simp), creates.inDirectory]
  short := creates.short
  noDirectory := by simp [find?_insert_self t]

/-- A file is found again by the path that it was written to. -/
theorem Creates.resolve {t : FileTree} {p : Path} {parent : Location} {name : String}
    (creates : t.Creates p parent name) (content : Bytes) :
    (t.insert (parent ++ [name]) (.file content)).resolve p = .ok (parent ++ [name]) := by
  apply (creates.insert content).resolve_of_isSome
  rw [find?_insert_self t _ (by simp)]
  rfl

/-- A path that denotes something before the file is written denotes its place. -/
theorem Creates.place_eq {t : FileTree} {p : Path} {parent place : Location} {name : String}
    (creates : t.Creates p parent name) (denotes : t.resolve p = .ok place) :
    place = parent ++ [name] := by
  rw [creates.resolve_eq] at denotes
  rcases follow_cons_eq_ok.mp denotes with ⟨-, -, -, arrived⟩
  cases arrived
  rfl

/-- A path under which nothing is found has nothing at its place. -/
theorem Creates.find?_eq_none {t : FileTree} {p : Path} {parent : Location} {name : String}
    (creates : t.Creates p parent name) (absent : t.has p = false) :
    t.find? (parent ++ [name]) = none := by
  apply Option.not_isSome_iff_eq_none.mp
  intro there
  rw [FileTree.has, creates.resolve_of_isSome there] at absent
  cases absent

theorem Creates.write {t : FileTree} {p : Path} {parent : Location} {name : String}
    (creates : t.Creates p parent name) (medium : Location → Medium) (content : Bytes) :
    t.write medium p content =
      (t.insert (parent ++ [name]) (.file ((medium (parent ++ [name])).kept content)),
        (medium (parent ++ [name])).answer) := by
  have last : p.steps.getLast? = some (.down name) := by
    rw [creates.lastStep, List.getLast?_concat]
  have target : t.target p = .ok (parent ++ [name]) := by
    simp only [FileTree.target, FileTree.child, creates.wellFormed, last, creates.leads,
      creates.inDirectory, creates.noSlash, Bool.false_eq_true, if_false, if_neg creates.short,
      if_neg creates.noDirectory]
  simp only [FileTree.write, FileTree.create, target, insert_insert]

/-- Where no file can be created or replaced, a write is refused. -/
theorem write_refused {t : FileTree} {p : Path}
    (nowhere : ¬ ∃ parent name, t.Creates p parent name) (medium : Location → Medium)
    (content : Bytes) : ∃ cause, t.write medium p content = (t, .error cause) := by
  cases target : t.target p with
  | error cause =>
    refine ⟨cause, ?_⟩
    simp only [FileTree.write, FileTree.create, target]
  | ok place =>
    rcases creates_of_target target with ⟨parent, name, creates, -⟩
    exact absurd ⟨parent, name, creates⟩ nowhere

/-! ## What a write changes -/

/-- A write that begins leaves a file at the place that the path denotes from then
on, and changes nothing anywhere else. -/
structure Wrote (t : FileTree) (p : Path) (content : Bytes) (after : FileTree)
    (place : Location) : Prop where
  resolves : after.resolve p = .ok place
  holds : after.find? place = some (.file content)
  others : ∀ other, other ≠ place → after.find? other = t.find? other
  workingDirectory : after.workingDirectory = t.workingDirectory

theorem Creates.wrote {t : FileTree} {p : Path} {parent : Location} {name : String}
    (creates : t.Creates p parent name) (content : Bytes) :
    t.Wrote p content (t.insert (parent ++ [name]) (.file content)) (parent ++ [name]) where
  resolves := creates.resolve content
  holds := find?_insert_self t _ (by simp)
  others := fun _ different => find?_insert_of_ne t _ different
  workingDirectory := rfl

theorem Wrote.access {t after : FileTree} {p : Path} {content : Bytes} {place : Location}
    (wrote : t.Wrote p content after place) : after.access p = .ok (.file content) := by
  simp only [FileTree.access, wrote.resolves, wrote.holds]

/-! ## Longer spellings -/

/-- All that is found in one tree is found in the other as well. -/
structure Keeps (t after : FileTree) : Prop where
  workingDirectory : after.workingDirectory = t.workingDirectory
  entries : ∀ place entry, t.find? place = some entry → after.find? place = some entry

theorem Keeps.refl (t : FileTree) : t.Keeps t := ⟨rfl, fun _ _ found => found⟩

theorem Keeps.trans {t middle after : FileTree} (first : t.Keeps middle)
    (second : middle.Keeps after) : t.Keeps after :=
  ⟨second.workingDirectory.trans first.workingDirectory,
    fun place entry found => second.entries place entry (first.entries place entry found)⟩

/-- A path that denotes a place goes on to denote it. -/
theorem Keeps.resolve {t after : FileTree} (keeps : t.Keeps after) {p : Path} {place : Location}
    (denotes : t.resolve p = .ok place) : after.resolve p = .ok place := by
  unfold FileTree.resolve at denotes ⊢
  have sameOrigin : after.origin p = t.origin p := by
    rw [origin, origin, keeps.workingDirectory]
  rw [sameOrigin]
  cases wellFormed : objection? p with
  | some cause =>
    rw [wellFormed] at denotes
    cases denotes
  | none =>
    rw [wellFormed] at denotes
    refine follow_mono (fun place => keeps.entries place .directory) ?_ denotes
    intro place there
    rcases Option.isSome_iff_exists.mp there with ⟨entry, found⟩
    rw [keeps.entries place entry found]
    rfl

end FileTree
end TemplateScript

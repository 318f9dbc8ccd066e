import TemplateScript.Proofs.Actions
import TemplateScript.Proofs.ConfigFiles

namespace TemplateScript
namespace Config

open FileTree (Creates Keeps Wrote)

/-!
# Requests for configurations

A configuration is created only where nothing is found yet.  To look and to
write are two steps over paths that may be spelled in many ways, but they meet
at one place: a file can be written under a path only at the place that the
path denotes if it denotes anything.  So a write behind a look that found
nothing adds a file and replaces none.

Nothing else writes, so a tree only grows while configurations are created and
loaded, and all that it grows by are standard configurations, as far as their
media have taken them.  Where a medium fails, the new file stays behind with the
bytes that it got; it was not there before, so nothing is lost by it.
-/

/-- What can be asked for. -/
inductive Request where
  | init (p : Path)
  | load (p : Path)
  /-- Load a configuration and take the wrappers that it chooses. -/
  | loadWrappers (p : Path)
  deriving DecidableEq

/-- What a request is answered with. -/
inductive Answer where
  | config (c : Config)
  | wrappers (w : Wrappers)
  deriving DecidableEq

/-- The bytes that are written to a file that is created. -/
def standardContent : Bytes := Utf8.encode standard.render.toList

namespace Request

def action : Request → Action Answer
  | .init p => (Config.init p).bind fun c => .done (.config c)
  | .load p => (Config.load p).bind fun c => .done (.config c)
  | .loadWrappers p => (Config.loadWrappers p).bind fun w => .done (.wrappers w)

/-- The answer to a request, or why there is none. -/
def result (r : Request) (w : World) : Except Failure Answer := (r.action.run w).1

/-- The world that a request leaves behind. -/
def after (r : Request) (w : World) : World := (r.action.run w).2

end Request

/-! ## One request -/

theorem run_init_found {p : Path} {w : World} (found : w.files.has p = true) :
    (Config.init p).run w = (.error (.configExists p.spelling), w) := by
  simp only [Config.init, Action.run, found]

theorem run_init_unfound {p : Path} {w : World} (unfound : w.files.has p = false) :
    (Config.init p).run w =
      (((standard.save p).run w).1.map fun _ => standard, ((standard.save p).run w).2) := by
  simp only [Config.init, Action.run, unfound, Action.bind_eq, Action.run_bind]
  rcases (standard.save p).run w with ⟨failure | done, after⟩ <;> rfl

theorem world_load (p : Path) (w : World) : ((load p).run w).2 = w := by
  unfold load
  rw [Action.run]
  rcases w.files.access p with cause | (content | _)
  · rfl
  · change ((Action.ofExcept (ofBytes p content)).run w).2 = w
    cases ofBytes p content <;> rfl
  · rfl

theorem world_loadWrappers (p : Path) (w : World) : ((loadWrappers p).run w).2 = w := by
  have same := world_load p w
  rcases ran : (load p).run w with ⟨failure | c, after⟩
  all_goals
    rw [ran] at same
    change after = w at same
    subst same
  · exact congrArg Prod.snd (Action.run_bind_of_error _ ran)
  · have resolving : (loadWrappers p).run after = (Action.ofExcept c.resolve).run after :=
      Action.run_bind_of_ok _ ran
    rw [resolving]
    cases c.resolve <;> rfl

namespace Request

/-- A file was added under a path, at a place where nothing was.  It holds as much
of the standard configuration as was kept. -/
structure Adds (p : Path) (w after : World) (place : Location) : Prop where
  unfound : w.files.has p = false
  absent : w.files.find? place = none
  wrote : w.files.Wrote p ((w.medium place).kept standardContent) after.files place
  only : after = { w with files := after.files }

/-- The ways in which a request can end. -/
inductive Ends (w : World) : Request → Except Failure Answer → World → Prop where
  | loaded {r : Request} (result : Except Failure Answer) (loading : ∀ p, r ≠ .init p) :
      Ends w r result w
  | refused {p : Path} (found : w.files.has p = true) :
      Ends w (.init p) (.error (.configExists p.spelling)) w
  | unwritable {p : Path} (cause : IoFailure) (unfound : w.files.has p = false)
      (nowhere : ¬ ∃ parent name, w.files.Creates p parent name) :
      Ends w (.init p) (.error (.io cause)) w
  | created {p : Path} {after : World} {parent : Location} {name : String}
      (creates : w.files.Creates p parent name) (adds : Adds p w after (parent ++ [name]))
      (told : (w.medium (parent ++ [name])).answer = .ok ()) :
      Ends w (.init p) (.ok (.config standard)) after
  /-- The file was opened, but not written to the end. -/
  | brokenOff {p : Path} {after : World} {parent : Location} {name : String} {taken : Nat}
      {cause : IoFailure} (creates : w.files.Creates p parent name)
      (adds : Adds p w after (parent ++ [name]))
      (lies : w.medium (parent ++ [name]) = .fails taken cause) :
      Ends w (.init p) (.error (.io cause)) after

theorem result_init (p : Path) (w : World) :
    (init p).result w = ((Config.init p).run w).1.map .config := by
  simp only [result, action, Action.run_bind]
  rcases (Config.init p).run w with ⟨failure | c, after⟩ <;> rfl

theorem after_init (p : Path) (w : World) : (init p).after w = ((Config.init p).run w).2 := by
  simp only [after, action, Action.run_bind]
  rcases (Config.init p).run w with ⟨failure | c, after⟩ <;> rfl

theorem after_load (p : Path) (w : World) : (load p).after w = w := by
  have same := world_load p w
  simp only [after, action, Action.run_bind]
  rcases ran : (Config.load p).run w with ⟨failure | c, after⟩
  all_goals
    rw [ran] at same
    exact same

theorem after_loadWrappers (p : Path) (w : World) : (loadWrappers p).after w = w := by
  have same := world_loadWrappers p w
  simp only [after, action, Action.run_bind]
  rcases ran : (Config.loadWrappers p).run w with ⟨failure | c, after⟩
  all_goals
    rw [ran] at same
    exact same

theorem ends_init (p : Path) (w : World) :
    Ends w (.init p) ((init p).result w) ((init p).after w) := by
  cases found : w.files.has p with
  | true =>
    rw [result_init, after_init, run_init_found found]
    exact .refused found
  | false =>
    rw [result_init, after_init, run_init_unfound found]
    by_cases somewhere : ∃ parent name, w.files.Creates p parent name
    · rcases somewhere with ⟨parent, name, creates⟩
      rw [run_save_created standard creates]
      have adds : Adds p w { w with files := w.files.insert (parent ++ [name]) _ } _ :=
        ⟨found, creates.find?_eq_none found, creates.wrote _, rfl⟩
      -- What the writer is told tells which of the two endings it is.
      cases lies : w.medium (parent ++ [name]) with
      | keeps =>
        rw [lies] at adds
        exact .created creates adds (by rw [lies]; rfl)
      | discards =>
        rw [lies] at adds
        exact .created creates adds (by rw [lies]; rfl)
      | fails taken cause =>
        rw [lies] at adds
        exact .brokenOff creates adds lies
    · rcases run_save_refused standard somewhere with ⟨cause, refused⟩
      rw [refused]
      exact .unwritable cause found somewhere

theorem ends (r : Request) (w : World) : Ends w r (r.result w) (r.after w) := by
  cases r with
  | init p => exact ends_init p w
  | load p =>
    rw [after_load]
    exact .loaded _ (fun _ => Request.noConfusion)
  | loadWrappers p =>
    rw [after_loadWrappers]
    exact .loaded _ (fun _ => Request.noConfusion)

/-- A request that fails has done nothing, unless it opened a new file on a medium
that failed. -/
theorem Ends.unchanged {r : Request} {w after : World} {f : Failure}
    (ends : Ends w r (.error f) after) :
    after = w ∨
      ∃ p place taken cause, r = .init p ∧ w.medium place = .fails taken cause ∧ f = .io cause ∧
        Adds p w after place := by
  cases ends with
  | loaded => exact .inl rfl
  | refused => exact .inl rfl
  | unwritable => exact .inl rfl
  | brokenOff creates adds lies => exact .inr ⟨_, _, _, _, rfl, lies, rfl, adds⟩

theorem Ends.adds {p : Path} {w after : World} {answer : Answer}
    (ends : Ends w (.init p) (.ok answer) after) :
    answer = .config standard ∧ ∃ place, Adds p w after place := by
  cases ends with
  | loaded _ loading => exact absurd rfl (loading p)
  | created _ adds _ => exact ⟨rfl, _, adds⟩

/-- Nothing is lost from a tree, and all that is new in it are standard
configurations, as far as they were kept. -/
structure Grows (medium : Location → Medium) (t after : FileTree) : Prop where
  keeps : t.Keeps after
  fresh : ∀ place entry, t.find? place = none → after.find? place = some entry →
    entry = .file ((medium place).kept standardContent)

variable {medium : Location → Medium}

theorem Grows.refl (t : FileTree) : Grows medium t t := by
  refine ⟨Keeps.refl t, ?_⟩
  intro place entry absent found
  rw [absent] at found
  cases found

theorem Grows.trans {t middle after : FileTree} (first : Grows medium t middle)
    (second : Grows medium middle after) : Grows medium t after := by
  refine ⟨first.keeps.trans second.keeps, ?_⟩
  intro place entry absent found
  cases between : middle.find? place with
  | none => exact second.fresh place entry between found
  | some added =>
    have kept := second.keeps.entries place added between
    rw [kept] at found
    cases found
    exact first.fresh place entry absent between

end Request
end Config
end TemplateScript

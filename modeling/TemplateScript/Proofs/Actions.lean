import TemplateScript.Action

namespace TemplateScript
namespace Action

/-!
# What an action can do to its surroundings

The kinds of requests that an action can make are read off the action itself,
whatever it is answered, and so are the ways in which it can fail.  The kinds
bound what carrying it out changes: each kind of request has one effect on a world,
and what no effect disturbs is the same afterwards.  They also bound what the result
depends on, since standard output and the log are never read, and standard input,
the time limit and the media of the files only by requests of their own kinds.
-/

variable {α β : Type}

theorem bind_eq (m : Action α) (f : α → Action β) : (m >>= f) = m.bind f := rfl

theorem run_bind_of_ok {m : Action α} (f : α → Action β) {w after : World} {a : α}
    (ran : m.run w = (.ok a, after)) : (m >>= f).run w = (f a).run after := by
  rw [bind_eq, run_bind, ran]

theorem run_bind_of_error {m : Action α} (f : α → Action β) {w after : World} {failure : Failure}
    (ran : m.run w = (.error failure, after)) : (m >>= f).run w = (.error failure, after) := by
  rw [bind_eq, run_bind, ran]

/-- Two actions that begin alike end in related ways if what follows does, and if
an early failure is related to itself. -/
theorem related_bind {γ : Type} {m : Action α} {f : α → Action β} {g : α → Action γ} {w : World}
    {R : Except Failure β × World → Except Failure γ × World → Prop}
    (failing : ∀ failure after, R (.error failure, after) (.error failure, after))
    (rest : ∀ a after, m.run w = (.ok a, after) → R ((f a).run after) ((g a).run after)) :
    R ((m >>= f).run w) ((m >>= g).run w) := by
  rcases ran : m.run w with ⟨failure | a, after⟩
  · rw [run_bind_of_error f ran, run_bind_of_error g ran]
    exact failing failure after
  · rw [run_bind_of_ok f ran, run_bind_of_ok g ran]
    exact rest a after ran

/-! ## Kinds of requests -/

/-- The kinds of requests to the surroundings. -/
inductive Kind where
  | probe
  | access
  | input
  | store
  | deadline
  | print
  | note
  deriving DecidableEq

variable {kinds : List Kind}

/-- Whatever the answers are, only requests of these kinds are made. -/
def MakesOnly (kinds : List Kind) : Action α → Prop
  | .done _ => True
  | .fail _ => True
  | .probe _ next => .probe ∈ kinds ∧ ∀ answer, (next answer).MakesOnly kinds
  | .access _ next => .access ∈ kinds ∧ ∀ answer, (next answer).MakesOnly kinds
  | .input next => .input ∈ kinds ∧ ∀ answer, (next answer).MakesOnly kinds
  | .store _ _ next => .store ∈ kinds ∧ ∀ answer, (next answer).MakesOnly kinds
  | .deadline _ next => .deadline ∈ kinds ∧ ∀ answer, (next answer).MakesOnly kinds
  | .print _ next => .print ∈ kinds ∧ next.MakesOnly kinds
  | .note _ next => .note ∈ kinds ∧ next.MakesOnly kinds

theorem MakesOnly.mono {m : Action α} {more : List Kind} (only : m.MakesOnly kinds)
    (subset : kinds ⊆ more) : m.MakesOnly more := by
  induction m with
  | done a => trivial
  | fail failure => trivial
  | probe p next ih => exact ⟨subset only.1, fun answer => ih answer (only.2 answer)⟩
  | access p next ih => exact ⟨subset only.1, fun answer => ih answer (only.2 answer)⟩
  | input next ih => exact ⟨subset only.1, fun answer => ih answer (only.2 answer)⟩
  | store p content next ih => exact ⟨subset only.1, fun answer => ih answer (only.2 answer)⟩
  | deadline limit next ih => exact ⟨subset only.1, fun answer => ih answer (only.2 answer)⟩
  | print text next ih => exact ⟨subset only.1, ih only.2⟩
  | note records next ih => exact ⟨subset only.1, ih only.2⟩

theorem MakesOnly.bind {m : Action α} {f : α → Action β} (first : m.MakesOnly kinds)
    (rest : ∀ a, (f a).MakesOnly kinds) : (m >>= f).MakesOnly kinds := by
  rw [bind_eq]
  induction m with
  | done a => exact rest a
  | fail failure => trivial
  | probe p next ih => exact ⟨first.1, fun answer => ih answer (first.2 answer)⟩
  | access p next ih => exact ⟨first.1, fun answer => ih answer (first.2 answer)⟩
  | input next ih => exact ⟨first.1, fun answer => ih answer (first.2 answer)⟩
  | store p content next ih => exact ⟨first.1, fun answer => ih answer (first.2 answer)⟩
  | deadline limit next ih => exact ⟨first.1, fun answer => ih answer (first.2 answer)⟩
  | print text next ih => exact ⟨first.1, ih first.2⟩
  | note records next ih => exact ⟨first.1, ih first.2⟩

theorem MakesOnly.attempt {m : Action α} (only : m.MakesOnly kinds) :
    m.attempt.MakesOnly kinds := by
  induction m with
  | done a => trivial
  | fail failure => trivial
  | probe p next ih => exact ⟨only.1, fun answer => ih answer (only.2 answer)⟩
  | access p next ih => exact ⟨only.1, fun answer => ih answer (only.2 answer)⟩
  | input next ih => exact ⟨only.1, fun answer => ih answer (only.2 answer)⟩
  | store p content next ih => exact ⟨only.1, fun answer => ih answer (only.2 answer)⟩
  | deadline limit next ih => exact ⟨only.1, fun answer => ih answer (only.2 answer)⟩
  | print text next ih => exact ⟨only.1, ih only.2⟩
  | note records next ih => exact ⟨only.1, ih only.2⟩

theorem makesOnly_ofExcept (r : Except Failure α) : (ofExcept r).MakesOnly kinds := by
  cases r <;> trivial

theorem makesOnly_ofOutcome (o : Outcome α) (notes : .note ∈ kinds) :
    (ofOutcome o).MakesOnly kinds :=
  ⟨notes, makesOnly_ofExcept o.result⟩

/-! ## Ways to fail -/

variable {P : Failure → Prop}

/-- Whatever the answers are, the action fails in no other way than these. -/
def FailsOnly (P : Failure → Prop) : Action α → Prop
  | .done _ => True
  | .fail failure => P failure
  | .probe _ next => ∀ answer, (next answer).FailsOnly P
  | .access _ next => ∀ answer, (next answer).FailsOnly P
  | .input next => ∀ answer, (next answer).FailsOnly P
  | .store _ _ next => ∀ answer, (next answer).FailsOnly P
  | .deadline _ next => ∀ answer, (next answer).FailsOnly P
  | .print _ next => next.FailsOnly P
  | .note _ next => next.FailsOnly P

theorem FailsOnly.bind {m : Action α} {f : α → Action β} (first : m.FailsOnly P)
    (rest : ∀ a, (f a).FailsOnly P) : (m >>= f).FailsOnly P := by
  rw [bind_eq]
  induction m with
  | done a => exact rest a
  | fail failure => exact first
  | probe p next ih => exact fun answer => ih answer (first answer)
  | access p next ih => exact fun answer => ih answer (first answer)
  | input next ih => exact fun answer => ih answer (first answer)
  | store p content next ih => exact fun answer => ih answer (first answer)
  | deadline limit next ih => exact fun answer => ih answer (first answer)
  | print text next ih => exact ih first
  | note records next ih => exact ih first

theorem failsOnly_ofExcept {r : Except Failure α}
    (failing : ∀ failure, r = .error failure → P failure) : (ofExcept r).FailsOnly P := by
  cases r with
  | ok a => trivial
  | error failure => exact failing failure rfl

theorem FailsOnly.of_run {m : Action α} (only : m.FailsOnly P) {w : World} {failure : Failure}
    (failed : (m.run w).1 = .error failure) : P failure := by
  induction m generalizing w with
  | done a => cases failed
  | fail f =>
    cases failed
    exact only
  | probe p next ih => exact ih _ (only _) failed
  | access p next ih => exact ih _ (only _) failed
  | input next ih => exact ih _ (only _) failed
  | store p content next ih => exact ih _ (only _) failed
  | deadline limit next ih => exact ih _ (only _) failed
  | print text next ih => exact ih only failed
  | note records next ih => exact ih only failed

/-! ## What a request changes -/

/-- The ways in which a request of a kind can change a world.  Requests that only
ask change nothing. -/
inductive Change : Kind → World → World → Prop where
  | input (w : World) : Change .input w { w with input := [] }
  | store (w : World) (p : Path) (content : Bytes) :
      Change .store w { w with files := (w.files.write w.medium p content).1 }
  | print (w : World) (text : String) : Change .print w { w with output := w.output ++ text }
  | note (w : World) (records : List Log.Record) :
      Change .note w { w with log := w.log ++ records }

/-- What every change of the allowed kinds keeps holds after the action. -/
theorem MakesOnly.invariant {m : Action α} (only : m.MakesOnly kinds) {P : World → Prop}
    (keeps : ∀ kind ∈ kinds, ∀ before after, Change kind before after → P before → P after)
    {w : World} (holds : P w) : P (m.run w).2 := by
  induction m generalizing w with
  | done a => exact holds
  | fail failure => exact holds
  | probe p next ih => exact ih _ (only.2 _) holds
  | access p next ih => exact ih _ (only.2 _) holds
  | input next ih => exact ih _ (only.2 _) (keeps _ only.1 _ _ (.input w) holds)
  | store p content next ih =>
    exact ih _ (only.2 _) (keeps _ only.1 _ _ (.store w p content) holds)
  | deadline limit next ih => exact ih _ (only.2 _) holds
  | print text next ih => exact ih only.2 (keeps _ only.1 _ _ (.print w text) holds)
  | note records next ih => exact ih only.2 (keeps _ only.1 _ _ (.note w records) holds)

theorem MakesOnly.files_eq {m : Action α} (only : m.MakesOnly kinds) (noStore : .store ∉ kinds)
    (w : World) : (m.run w).2.files = w.files := by
  apply only.invariant (P := fun v => v.files = w.files) _ rfl
  intro kind allowed before after change same
  cases change with
  | input => exact same
  | store => exact absurd allowed noStore
  | print text => exact same
  | note records => exact same

theorem MakesOnly.output_eq {m : Action α} (only : m.MakesOnly kinds) (noPrint : .print ∉ kinds)
    (w : World) : (m.run w).2.output = w.output := by
  apply only.invariant (P := fun v => v.output = w.output) _ rfl
  intro kind allowed before after change same
  cases change with
  | input => exact same
  | store => exact same
  | print text => exact absurd allowed noPrint
  | note records => exact same

/-- No request changes what the files lie on. -/
theorem medium_run (m : Action α) (w : World) : (m.run w).2.medium = w.medium := by
  induction m generalizing w with
  | done a => rfl
  | fail failure => rfl
  | probe p next ih => exact ih _ w
  | access p next ih => exact ih _ w
  | input next ih => exact ih _ _
  | store p content next ih => exact ih _ _
  | deadline limit next ih => exact ih _ w
  | print text next ih => exact ih _
  | note records next ih => exact ih _

/-- The requests that look around and leave notes, but disturb nothing. -/
def inspection : List Kind := [.probe, .access, .note]

/-- The requests that find out all there is to know.  What they take from
standard input is gone. -/
def reading : List Kind := .input :: .deadline :: inspection

/-- Looking around changes nothing but the log. -/
theorem MakesOnly.world_eq {m : Action α} (only : m.MakesOnly inspection) {w after : World}
    {result : Except Failure α} (ran : m.run w = (result, after)) :
    ∃ log, after = { w with log := log } := by
  have reached : (m.run w).2 = after := congrArg Prod.snd ran
  rw [← reached]
  apply only.invariant (P := fun v => ∃ log, v = { w with log := log }) _ ⟨w.log, rfl⟩
  rintro kind allowed before after change ⟨log, rfl⟩
  cases change with
  | input => exact absurd allowed (by decide)
  | store => exact absurd allowed (by decide)
  | print => exact absurd allowed (by decide)
  | note _ records => exact ⟨log ++ records, rfl⟩

/-! ## What a result depends on -/

/-- Two worlds with the same files give the same result, unless the action asks
for standard input or for the time or writes a file, and these differ. -/
theorem MakesOnly.result_eq {m : Action α} (only : m.MakesOnly kinds) {w v : World}
    (files : w.files = v.files) (input : .input ∈ kinds → w.input = v.input)
    (inTime : .deadline ∈ kinds → w.inTime = v.inTime)
    (medium : .store ∈ kinds → w.medium = v.medium) : (m.run w).1 = (m.run v).1 := by
  induction m generalizing w v with
  | done a => rfl
  | fail failure => rfl
  | probe p next ih =>
    simp only [run, files]
    exact ih _ (only.2 _) files input inTime medium
  | access p next ih =>
    simp only [run, files]
    exact ih _ (only.2 _) files input inTime medium
  | input next ih =>
    simp only [run, input only.1]
    exact ih _ (only.2 _) files (fun _ => rfl) inTime medium
  | store p content next ih =>
    simp only [run, files, medium only.1]
    exact ih _ (only.2 _) rfl input inTime fun _ => rfl
  | deadline limit next ih =>
    simp only [run, inTime only.1]
    exact ih _ (only.2 _) files input inTime medium
  | print text next ih => exact ih only.2 files input inTime medium
  | note records next ih => exact ih only.2 files input inTime medium

end Action
end TemplateScript

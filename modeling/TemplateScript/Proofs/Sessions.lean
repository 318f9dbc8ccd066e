import TemplateScript.Engine

namespace TemplateScript

variable {σ β ν : Type}

/-!
# Sessions of an engine

Requests are served one after another, and only the executor may remember
something from one to the next.  It is called for the templates that have a
script and are to be evaluated, and for nothing else: an executor that records
what it is given ends up with exactly their scripts.

Nothing is assumed about the executor otherwise.  It may keep any state, answer
differently every time, and fail.
-/

/-- An executor that keeps, among whatever else, a record of the scripts that it
is given. -/
structure Recorder (σ β ν : Type) extends Executor σ β ν where
  seen : σ → List String
  records : ∀ s script bindings, seen (execute s script bindings).2 = seen s ++ [script]

/-- The executor that records scripts and answers each of them on its own. -/
def Recorder.ofAnswer (name : String) (answer : String → β → Except Failure ν) :
    Recorder (List String) β ν where
  toExecutor := .recording name answer
  seen := id
  records := fun _ _ _ => rfl

namespace Engine

/-- The script that a request hands to the executor. -/
def Request.script? (w : Wrappers) : Request β → Option String
  | .eval events _ => (w.transpileReader events).result.toOption
  | .preprocess _ => none

/-- Serve requests one after another. -/
def serveAll (e : Engine σ β ν) : σ → List (Request β) → List (Outcome (Reply ν)) × σ
  | s, [] => ([], s)
  | s, request :: rest =>
    let (outcome, s) := e.serve s request
    let (outcomes, s) := e.serveAll s rest
    (outcome :: outcomes, s)

/-! ## One request -/

/-- What serving a request comes to, in terms of transpiling its template.  The
state that follows is the one that the executor leaves, if it is called. -/
inductive Serves (e : Engine σ β ν) : σ → Request β → Except Failure (Reply ν) → σ → Prop where
  | preprocessed (s : σ) (events : List ReadEvent) :
      Serves e s (.preprocess events) ((e.wrappers.transpileReader events).result.map .script) s
  | refused (s : σ) {events : List ReadEvent} (bindings : β) {f : Failure}
      (failed : (e.wrappers.transpileReader events).result = .error f) :
      Serves e s (.eval events bindings) (.error f) s
  | executed (s : σ) {events : List ReadEvent} (bindings : β) {script : String}
      (made : (e.wrappers.transpileReader events).result = .ok script) :
      Serves e s (.eval events bindings) ((e.executor.execute s script bindings).1.map .value)
        (e.executor.execute s script bindings).2

theorem serve_refused (e : Engine σ β ν) (s : σ) {events : List ReadEvent} (bindings : β)
    {log : List Log.Record} {f : Failure}
    (failed : e.wrappers.transpileReader events = ⟨log, .error f⟩) :
    e.serve s (.eval events bindings) = (⟨log, .error f⟩, s) := by
  simp only [serve, eval, preprocess, failed]
  rfl

theorem serve_executed (e : Engine σ β ν) (s : σ) {events : List ReadEvent} (bindings : β)
    {log : List Log.Record} {script : String}
    (made : e.wrappers.transpileReader events = ⟨log, .ok script⟩) :
    e.serve s (.eval events bindings) =
      (⟨log ++ [.executing e.executor.name script.utf8ByteSize],
        (e.executor.execute s script bindings).1.map .value⟩,
        (e.executor.execute s script bindings).2) := by
  simp only [serve, eval, preprocess, made]

theorem serves (e : Engine σ β ν) (s : σ) (request : Request β) :
    e.Serves s request (e.serve s request).1.result (e.serve s request).2 := by
  cases request with
  | preprocess events => exact .preprocessed s events
  | eval events bindings =>
    rcases transpiled : e.wrappers.transpileReader events with ⟨log, f | script⟩
    · rw [e.serve_refused s bindings transpiled]
      exact .refused s bindings (congrArg Outcome.result transpiled)
    · rw [e.serve_executed s bindings transpiled]
      exact .executed s bindings (congrArg Outcome.result transpiled)

/-- One request adds its script to the record, if it has one for the executor. -/
theorem Serves.seen_eq {w : Wrappers} {x : Recorder σ β ν} {s after : σ} {request : Request β}
    {reply : Except Failure (Reply ν)} (served : Serves ⟨w, x.toExecutor⟩ s request reply after) :
    x.seen after = x.seen s ++ (request.script? w).toList := by
  cases served with
  | preprocessed events => exact (List.append_nil _).symm
  | refused bindings failed =>
    simp only [Request.script?, failed, Except.toOption, Option.toList, List.append_nil]
  | executed bindings made =>
    simp only [Request.script?, made, Except.toOption, Option.toList]
    exact x.records s _ bindings

/-- If the executor's answers do not depend on its state, neither does what a
request comes to. -/
theorem serve_outcome_eq {e : Engine σ β ν}
    (stateless : ∀ s t script bindings,
      (e.executor.execute s script bindings).1 = (e.executor.execute t script bindings).1)
    (s t : σ) (request : Request β) : (e.serve s request).1 = (e.serve t request).1 := by
  cases request with
  | preprocess events => rfl
  | eval events bindings =>
    rcases transpiled : e.wrappers.transpileReader events with ⟨log, f | script⟩
    · rw [e.serve_refused s bindings transpiled, e.serve_refused t bindings transpiled]
    · rw [e.serve_executed s bindings transpiled, e.serve_executed t bindings transpiled,
        stateless s t]

/-! ## Many requests -/

/-- A session: each request is served in the state that the one before it left. -/
inductive Session (e : Engine σ β ν) :
    σ → List (Request β) → List (Except Failure (Reply ν)) → σ → Prop where
  | nil (s : σ) : Session e s [] [] s
  | cons {s middle last : σ} {request : Request β} {reply : Except Failure (Reply ν)}
      {requests : List (Request β)} {replies : List (Except Failure (Reply ν))}
      (first : Serves e s request reply middle) (rest : Session e middle requests replies last) :
      Session e s (request :: requests) (reply :: replies) last

theorem session (e : Engine σ β ν) (s : σ) (requests : List (Request β)) :
    e.Session s requests ((e.serveAll s requests).1.map Outcome.result)
      (e.serveAll s requests).2 := by
  induction requests generalizing s with
  | nil => exact .nil s
  | cons request rest ih => exact .cons (e.serves s request) (ih (e.serve s request).2)

theorem Session.seen_eq {w : Wrappers} {x : Recorder σ β ν} {s last : σ}
    {requests : List (Request β)} {replies : List (Except Failure (Reply ν))}
    (session : Session ⟨w, x.toExecutor⟩ s requests replies last) :
    x.seen last = x.seen s ++ requests.filterMap (Request.script? w) := by
  induction session with
  | nil s => exact (List.append_nil _).symm
  | @cons _ _ _ request _ requests _ first rest ih =>
    have split : (request :: requests).filterMap (Request.script? w) =
        (request.script? w).toList ++ requests.filterMap (Request.script? w) := by
      rw [List.filterMap_cons]
      cases request.script? w <;> rfl
    rw [ih, first.seen_eq, split, List.append_assoc]

theorem serveAll_outcomes_eq {e : Engine σ β ν}
    (stateless : ∀ s t script bindings,
      (e.executor.execute s script bindings).1 = (e.executor.execute t script bindings).1)
    (s alone : σ) (requests : List (Request β)) :
    (e.serveAll s requests).1 = requests.map fun request => (e.serve alone request).1 := by
  induction requests generalizing s with
  | nil => rfl
  | cons request rest ih =>
    change (e.serve s request).1 :: (e.serveAll (e.serve s request).2 rest).1 = _
    rw [serve_outcome_eq stateless s alone request, ih, List.map_cons]

/-- In a session the executor is given the scripts of the templates that are to be
evaluated and have one, in this order and once each.  Every reply is that of the
transpiler or of the executor; if the executor's answers do not depend on its
state, every request is served as if it were the only one. -/
theorem session_executes_exactly_the_scripts (w : Wrappers) (x : Recorder σ β ν) (s : σ)
    (requests : List (Request β)) :
    let e : Engine σ β ν := ⟨w, x.toExecutor⟩
    let served := e.serveAll s requests
    e.Session s requests (served.1.map Outcome.result) served.2 ∧
      x.seen served.2 = x.seen s ++ requests.filterMap (Request.script? w) ∧
      ((∀ s t script bindings,
          (x.execute s script bindings).1 = (x.execute t script bindings).1) →
        ∀ alone, served.1 = requests.map fun request => (e.serve alone request).1) := by
  intro e served
  have session := e.session s requests
  exact ⟨session, session.seen_eq, fun stateless alone =>
    serveAll_outcomes_eq stateless s alone requests⟩

/-- Of five templates, one is malformed, one cannot be read and one is not to be
run. -/
theorem session_executes_two_of_five :
    let w : Wrappers := ⟨"w(\"", "\");", "w(", ");"⟩
    let x : Recorder (List String) Unit Nat :=
      .ofAnswer "counter" fun script _ =>
        if script.length < 9 then .error (.execution "too short") else .ok script.length
    let requests : List (Request Unit) :=
      [.eval [.chunk (Utf8.encode "<%= x %>".toList)] (),
        .eval [.chunk (Utf8.encode "a<% if".toList)] (),
        .preprocess [.chunk (Utf8.encode "a".toList)],
        .eval [.chunk [0x61], .failure ⟨.other "BrokenPipe", ""⟩] (),
        .eval [] ()]
    (∀ s t script bindings, (x.execute s script bindings).1 = (x.execute t script bindings).1) ∧
      x.seen (serveAll ⟨w, x.toExecutor⟩ [] requests).2 =
        ["w( x );w(\"\");", "w(\"\");"] ∧
      (serveAll ⟨w, x.toExecutor⟩ [] requests).1 =
        requests.map fun request => (serve ⟨w, x.toExecutor⟩ [] request).1 := by
  intro w x requests
  have stateless : ∀ s t script bindings,
      (x.execute s script bindings).1 = (x.execute t script bindings).1 := fun _ _ _ _ => rfl
  rcases session_executes_exactly_the_scripts w x [] requests with ⟨-, seen, independent⟩
  have scripts : requests.filterMap (Request.script? w) =
      ["w( x );w(\"\");", "w(\"\");"] := by
    subst requests w
    decide +kernel
  exact ⟨stateless, seen.trans scripts, independent stateless []⟩

end Engine
end TemplateScript

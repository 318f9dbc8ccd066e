import TemplateScript.Transpile

namespace TemplateScript

/-!
# Running templates

An executor runs scripts.  What it is, and what running does to it, is left to
the caller; the engine transpiles and hands over exactly the scripts of the
templates that have one.
-/

/-- Something that runs scripts with bindings `β` in scope and gives values `ν`;
`σ` is its state. -/
structure Executor (σ β ν : Type) where
  name : String
  execute : σ → String → β → Except Failure ν × σ

namespace Executor

variable {β ν : Type}

/-- An executor that records every script before it answers. -/
def recording (name : String) (answer : String → β → Except Failure ν) :
    Executor (List String) β ν where
  name := name
  execute := fun seen script bindings => (answer script bindings, seen ++ [script])

end Executor

/-- Wrappers for the templates and an executor for their scripts. -/
structure Engine (σ β ν : Type) where
  wrappers : Wrappers
  executor : Executor σ β ν

namespace Engine

variable {σ β ν : Type}

/-- Transpile a template without running it. -/
def preprocess (e : Engine σ β ν) (events : List ReadEvent) : Outcome String :=
  e.wrappers.transpileReader events

/-- Transpile a template and run its script. -/
def eval (e : Engine σ β ν) (s : σ) (events : List ReadEvent) (bindings : β) : Outcome ν × σ :=
  match e.preprocess events with
  | ⟨log, .error f⟩ => (⟨log, .error f⟩, s)
  | ⟨log, .ok script⟩ =>
    let (result, s) := e.executor.execute s script bindings
    (⟨log ++ [.executing e.executor.name script.utf8ByteSize], result⟩, s)

/-- Something to be done with a template. -/
inductive Request (β : Type) where
  | eval (events : List ReadEvent) (bindings : β)
  | preprocess (events : List ReadEvent)

/-- What was made of a template. -/
inductive Reply (ν : Type) where
  | value (v : ν)
  | script (s : String)

/-- Serve one request. -/
def serve (e : Engine σ β ν) (s : σ) : Request β → Outcome (Reply ν) × σ
  | .eval events bindings =>
    let (outcome, s) := e.eval s events bindings
    (⟨outcome.log, outcome.result.map .value⟩, s)
  | .preprocess events =>
    let outcome := e.preprocess events
    (⟨outcome.log, outcome.result.map .script⟩, s)

end Engine

end TemplateScript

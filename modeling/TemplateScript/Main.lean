import TemplateScript.Program

namespace TemplateScript
namespace Main

/-!
# Running the program

The outer layer: actions are carried out by the system, and what they print
goes to the standard streams.
-/

/-- What the system says about a failed operation. -/
def ofSystem (e : IO.Error) : IoFailure :=
  match e with
  | .noFileOrDirectory .. => .noSuchFile
  | .inappropriateType _ code _ => if code = 21 then .directory else .throughFile
  | .invalidArgument _ 36 _ => .tooLong
  | e => ⟨.other "Other", toString e⟩

/-- All bytes of a stream. -/
partial def readAll (stream : IO.FS.Stream) (done : ByteArray) : IO ByteArray := do
  let chunk ← stream.read 65536
  if chunk.isEmpty then return done else readAll stream (done ++ chunk)

/-- Open what a path denotes and read it.  A directory can be opened, but not read. -/
def accessFile (p : Path) : IO (Except IoFailure Entry) := do
  try
    let handle ← IO.FS.Handle.mk p.spelling .read
    let content ← readAll (IO.FS.Stream.ofHandle handle) .empty
    return .ok (.file content.toList)
  catch e =>
    let cause := ofSystem e
    return if cause = .directory then .ok .directory else .error cause

/-- Is something found at a path?  It need not be readable. -/
def probeFile (p : Path) : IO Bool := do
  try
    let _ ← IO.FS.realPath p.spelling
    return true
  catch _ =>
    return false

/-- Write a file. -/
def storeFile (p : Path) (content : Bytes) : IO (Except IoFailure Unit) := do
  try
    IO.FS.writeBinFile p.spelling (ByteArray.mk content.toArray)
    return .ok ()
  catch e =>
    return .error (ofSystem e)

/-- Wait for a task, but not beyond a point in time. -/
partial def finishedBy {α : Type} (point : Nat) (task : Task α) : IO Bool := do
  if ← IO.hasFinished task then return true
  else if point ≤ (← IO.monoNanosNow) then return false
  else
    IO.sleep 1
    finishedBy point task

/-- Carry out an action; records are shown up to a verbosity. -/
partial def perform {α : Type} (verbosity : Nat) : Action α → IO (Except Failure α)
  | .done a => return .ok a
  | .fail f => return .error f
  | .probe p next => do
    let answer ← probeFile p
    perform verbosity (next answer)
  | .access p next => do
    let answer ← accessFile p
    perform verbosity (next answer)
  | .input next => do
    let answer ← readAll (← IO.getStdin) .empty
    perform verbosity (next answer.toList)
  | .store p content next => do
    let answer ← storeFile p content
    perform verbosity (next answer)
  | .deadline limit next => do
    let point := (← IO.monoNanosNow) + limit.nanoseconds
    let task := Task.spawn fun _ => next true
    if ← finishedBy point task then perform verbosity task.get
    else perform verbosity (next false)
  | .print text next => do
    (← IO.getStdout).putStr text
    perform verbosity next
  | .note records next => do
    for r in Program.shown verbosity records do
      (← IO.getStderr).putStrLn r.line
    perform verbosity next

/-- What is wrong with the text of a configuration. -/
def explain (text : List Char) : String :=
  match Config.parse text with
  | .error .truncated => "the text ends too early"
  | .error .malformed => "the text is not JSON"
  | _ => "the text is not a configuration"

/-- Run the program with the given arguments. -/
def run (args : List String) : IO UInt32 := do
  let timeoutVariable ← IO.getEnv "SCRIPTLET_TIMEOUT_MS"
  match Arguments.read timeoutVariable args with
  | .error stop =>
    let report := Program.stopped stop
    (← IO.getStdout).putStr report.output
    (← IO.getStderr).putStr report.errors
    return report.status.toUInt32
  | .ok invocation =>
    let action := invocation.command.action explain invocation.config
    match ← perform invocation.verbosity action with
    | .ok () => return 0
    | .error f =>
      (← IO.getStderr).putStr (f.report explain)
      return 1

end Main
end TemplateScript

/-- The command line. -/
def main (args : List String) : IO UInt32 := TemplateScript.Main.run args

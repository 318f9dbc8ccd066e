import TemplateScript.Wrappers

namespace TemplateScript
namespace Scan

/-!
# The scan, one character at a time

A template is literal text with directives: `<% code %>` and `<%= expression %>`.
A state says what has been read as far as it matters for what follows.  A step
takes the script that has been written so far, appends what the character causes
to be written, and gives the next state.  A `<` or `%` that turns out to open or
close nothing is written by the step that finds out, and the character at hand
then gets the rule of the text it belongs to.

The steps know nothing about positions or logs.
-/

/-- What has been read, as far as the next character's meaning depends on it. -/
inductive State where
  /-- Nothing yet. -/
  | start
  /-- Literal text; its statement is open. -/
  | literal
  /-- The body of a code directive. -/
  | code
  /-- The body of an expression directive. -/
  | expression
  /-- A `<` in literal text. -/
  | tagPending
  /-- A `<` as the first character, with no statement open. -/
  | firstTagPending
  /-- A `%` in a code body. -/
  | codeClosePending
  /-- A `<%`; the next character tells which kind of directive it is. -/
  | directiveOpened
  /-- A `%` in an expression body. -/
  | expressionClosePending
  /-- No rule applied.  Nothing leads out of it. -/
  | invalid
  deriving DecidableEq

/-- Why a template has no script. -/
inductive Malformation where
  /-- It ends inside a code directive. -/
  | unterminatedCode
  /-- It ends inside an expression directive. -/
  | unterminatedExpression
  /-- A character met no rule. -/
  | noTransition
  deriving DecidableEq

/-- Literal text is escaped for a quoted string: a quote gets a backslash, and a
newline is written as an escape and splits the statement. -/
def literalStep (w : Wrappers) (script : String) (c : Char) : State × String :=
  if c = '<' then (.tagPending, script)
  else if c = '\n' then (.literal, script ++ "\\n" ++ w.outputEnd ++ w.outputStart)
  else if c = '"' then (.literal, script ++ "\\\"")
  else (.literal, script.push c)

/-- Code is copied until a `%` may close it. -/
def codeStep (script : String) (c : Char) : State × String :=
  if c = '%' then (.codeClosePending, script) else (.code, script.push c)

/-- An expression is copied until a `%` may close it. -/
def expressionStep (script : String) (c : Char) : State × String :=
  if c = '%' then (.expressionClosePending, script) else (.expression, script.push c)

namespace State

/-- Read one character into the script that has been written so far. -/
def step (w : Wrappers) (s : State) (script : String) (c : Char) : State × String :=
  match s with
  | .start =>
    if c = '<' then (.firstTagPending, script) else literalStep w (script ++ w.outputStart) c
  | .literal => literalStep w script c
  | .tagPending =>
    if c = '%' then (.directiveOpened, script ++ w.outputEnd)
    else literalStep w (script.push '<') c
  | .firstTagPending =>
    if c = '%' then (.directiveOpened, script)
    else literalStep w ((script ++ w.outputStart).push '<') c
  | .directiveOpened =>
    if c = '=' then (.expression, script ++ w.exprStart) else codeStep script c
  | .code => codeStep script c
  | .codeClosePending =>
    if c = '>' then (.literal, script ++ w.outputStart) else codeStep (script.push '%') c
  | .expression => expressionStep script c
  | .expressionClosePending =>
    if c = '>' then (.literal, script ++ w.exprEnd ++ w.outputStart)
    else expressionStep (script.push '%') c
  | .invalid => (.invalid, script)

/-- End of the template: the whole script, or why there is none.  An open
statement is closed, and a `<` that opened nothing is literal text. -/
def finish (w : Wrappers) (s : State) (script : String) : Except Malformation String :=
  match s with
  | .start => .ok (script ++ w.outputStart ++ w.outputEnd)
  | .literal => .ok (script ++ w.outputEnd)
  | .tagPending => .ok (script.push '<' ++ w.outputEnd)
  | .firstTagPending => .ok ((script ++ w.outputStart).push '<' ++ w.outputEnd)
  | .directiveOpened | .code | .codeClosePending => .error .unterminatedCode
  | .expression | .expressionClosePending => .error .unterminatedExpression
  | .invalid => .error .noTransition

/-- Does this state hold a `<` that may open a directive? -/
def holdsTag : State → Bool
  | .tagPending | .firstTagPending => true
  | _ => false

end State

end Scan
end TemplateScript

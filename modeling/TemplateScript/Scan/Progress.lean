import TemplateScript.Position
import TemplateScript.Scan.State

namespace TemplateScript
namespace Scan

/-!
# A scan in progress

Beside the state and the script, a scan keeps what later messages tell: where it
stands, where the last `<` that may open a directive stood, and where directives
were opened.
-/

/-- Where a scan stands and what it has found. -/
structure Progress where
  state : State := .start
  script : String := ""
  /-- The place of the next character. -/
  position : Position := .origin
  /-- The place of the last `<` in literal text. -/
  tag : Position := .origin
  /-- The places of the `%` of every directive opener, in order. -/
  openers : Array Position := #[]
  consumed : Nat := 0

namespace Progress

/-- Read one character. -/
def feed (w : Wrappers) (p : Progress) (c : Char) : Progress :=
  let (next, script) := p.state.step w p.script c
  { state := next
    script := script
    position := p.position.advance c
    tag := if next.holdsTag then p.position else p.tag
    openers := if next = .directiveOpened then p.openers.push p.position else p.openers
    consumed := p.consumed + 1 }

/-- The place that a malformation is reported at: the opener of the directive
that was not closed. -/
def place (p : Progress) : Malformation → Position
  | .unterminatedCode | .unterminatedExpression => p.tag
  | .noTransition => p.position

end Progress

end Scan
end TemplateScript

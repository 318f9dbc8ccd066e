import TemplateScript.CharSource
import TemplateScript.Outcome
import TemplateScript.Scan.Progress

namespace TemplateScript

/-!
# From a template to a script

A template is transpiled from a text, from a reader, or from bytes within a
time limit.  All three scan what was delivered; a template that could not be
read to its end has no script, whatever the scan had made of it so far.
Carriage returns are not part of a template: they are passed over, and nothing
counts them.
-/

namespace Scan
namespace Progress

/-- The records of the directives opened so far. -/
def records (p : Progress) : List Log.Record :=
  p.openers.toList.map .directiveOpened

/-- The scan ends without a script. -/
def breakOff (p : Progress) (f : Failure) : Outcome String := ⟨p.records, .error f⟩

/-- The template ends here. -/
def finish (w : Wrappers) (p : Progress) : Outcome String :=
  match p.state.finish w p.script with
  | .error reason => p.breakOff (.malformedTemplate reason (p.place reason))
  | .ok script => ⟨p.records ++ [.transpiled p.consumed script.utf8ByteSize], .ok script⟩

/-- Scan on through the characters that are delivered, up to the failure that
ended the delivery, if one did.  Nothing is read beyond a character without a rule. -/
def drive (w : Wrappers) (failure : Option IoFailure) (p : Progress) :
    List Char → Outcome String
  | [] =>
    match failure with
    | some cause => p.breakOff (.unreadableInput cause)
    | none => p.finish w
  | c :: rest =>
    if c = '\r' then p.drive w failure rest
    else if p.state = .invalid then p.breakOff (.malformedTemplate .noTransition p.position)
    else (p.feed w c).drive w failure rest

end Progress
end Scan

namespace Wrappers

open Scan

/-- The outcome of a delivered text, scanned from a state. -/
def transpileFrom (w : Wrappers) (initial : State) (d : Delivery) : Outcome String :=
  ({ state := initial } : Progress).drive w d.failure d.text

/-- The outcome for a delivered text. -/
def transpileDelivery (w : Wrappers) (d : Delivery) : Outcome String :=
  w.transpileFrom .start d

/-- Transpile a text. -/
def transpile (w : Wrappers) (template : List Char) : Outcome String :=
  w.transpileDelivery ⟨template, none⟩

/-- Transpile what a reader delivers up to its first end. -/
def transpileReader (w : Wrappers) (events : List ReadEvent) : Outcome String :=
  w.transpileDelivery (CharSource.ofEvents events).deliver

/-- Transpile bytes that are all at hand. -/
def transpileBytes (w : Wrappers) (bytes : Bytes) : Outcome String :=
  w.transpileReader [.chunk bytes]

/-- Transpile bytes within a limit; `inTime` tells whether the scan was done
before the limit passed. -/
def transpileWithin (w : Wrappers) (limit : Duration) (inTime : Bool) (bytes : Bytes) :
    Outcome String :=
  if inTime then w.transpileBytes bytes else .fail (.timedOut limit)

end Wrappers

end TemplateScript

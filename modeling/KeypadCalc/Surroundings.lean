import KeypadCalc.Log
import KeypadCalc.Remote

/-!
# KeypadCalc — what the program works in

The parts of its surroundings that the program reads and changes: the wire to a remote calculator,
the ids at hand, the journal of log records, and a supply of fresh ids. `Work` is a computation in
them. A `Calculator.Service` is a calculator as the keypad sees it, near or far: a text in, an
outcome out, and whatever it does to its surroundings.
-/

namespace KeypadCalc

structure Surroundings where
  wire : Remote.Wire := {}
  context : Context := {}
  /-- The least level that the journal keeps. -/
  threshold : Log.Level := .info
  /-- The records kept, in order. -/
  journal : List Log.Record := []
  /-- The number of fresh ids given out. -/
  idsIssued : Nat := 0
  /-- The fresh ids in the order in which they are given out. -/
  freshId : Nat → String := fun n => "id-" ++ toString n

abbrev Work := StateM Surroundings

namespace Surroundings

/-- The surroundings after an event: a record of it is kept if its level reaches the threshold. -/
def note (w : Surroundings) (event : Log.Event) : Surroundings :=
  if w.threshold.rank ≤ event.level.rank then
    { w with journal := w.journal ++ [.of w.context event] }
  else w

end Surroundings

namespace Work

def note (event : Log.Event) : Work Unit :=
  modify (·.note event)

def setId (v : Context.Slot) (value : Option String) : Work Context.Token :=
  modifyGet fun w =>
    let (token, context) := w.context.set v value
    (token, { w with context })

/-- Restores an id; a token that restores nothing changes nothing. -/
def resetId (v : Context.Slot) (token : Context.Token) : Work Unit :=
  modify fun w =>
    match w.context.reset v token with
    | .ok context => { w with context }
    | .error _ => w

def freshId : Work String :=
  modifyGet fun w => (w.freshId w.idsIssued, { w with idsIssued := w.idsIssued + 1 })

/-- Sets the id of the request: the given one, or a fresh one where there is none or it is empty. -/
def setRequestId (given : Option String) : Work Context.Token := do
  match given with
  | some id => if id.isEmpty then setId .requestId (← freshId) else setId .requestId id
  | none => setId .requestId (← freshId)

end Work

abbrev Calculator.Service := String → Work Outcome

/-- The calculator of this program. That an expression is evaluated is noted before it is. -/
def Calculator.localService (limits : Limits) : Calculator.Service := fun text => do
  if let .ok cleaned := accept limits text then
    Work.note (.evaluation cleaned)
  return ((evaluate limits text).map Answer.raw).mapError .refused

/-- A remote calculator. That it cannot be reached is noted. -/
def Remote.Client.service (library : Remote.Library) (client : Remote.Client) :
    Calculator.Service := fun text => do
  let attempt ← modifyGet fun w =>
    let (attempt, wire) := client.attempt text w.wire
    (attempt, { w with wire })
  if let .answered (.lost reason) := attempt then
    Work.note (.remoteUnavailable client.url reason)
  return attempt.outcome library

end KeypadCalc

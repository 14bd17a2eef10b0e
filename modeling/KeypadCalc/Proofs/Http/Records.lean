import KeypadCalc.Proofs.Http.Refusal
import KeypadCalc.Proofs.Scope

/-!
# KeypadCalc — what is noted for a request

A calculation notes its events with the ids at hand, near or far and from a keypad or not
(`Work.Calculates`). A press sets the id of its session for as long as it asks for a calculation
(`pressKey_run_of_gather`), so the records of the calculation show that session, and no other record
of the request does (`Files`, `serve_settles`).
-/

namespace KeypadCalc

/-! ## What calculators and keypads note -/

/-- An event of a calculation, near or far, or of a keypad that asks for one. -/
def Log.Event.isOfCalculation : Log.Event → Bool
  | .keypadEvaluation _ | .keypadEvaluationFailed .. | .evaluation _ | .remoteUnavailable .. => true
  | .requestStarted .. | .requestEnded .. | .failureReported .. => false

/-- A record of a calculation with the ids at hand. -/
structure Log.Record.OfCalculation (ids : Ids) (r : Log.Record) : Prop where
  event : r.event.isOfCalculation = true
  under : r.Under ids

/-- Settles with records of calculations alone. -/
abbrev Work.Calculates {α : Type} (x : Work α) : Prop :=
  x.Settles Log.Record.OfCalculation

/-- An event of a calculation is noted with the ids at hand. -/
theorem calculates_note {event : Log.Event} (h : event.isOfCalculation = true) :
    (Work.note event).Calculates :=
  Work.settles_note fun c => ⟨h, .of c event⟩

theorem calculates_localService (limits : Limits) (text : String) :
    (Calculator.localService limits text).Calculates := by
  unfold Calculator.localService
  dsimp only
  split
  · exact .bind (calculates_note rfl) fun _ => .pure _
  · exact .pure _

/-- A client notes at most that nothing has arrived. -/
theorem calculates_client (library : Remote.Library) (client : Remote.Client) (text : String) :
    (client.service library text).Calculates := by
  unfold Remote.Client.service
  refine Work.Settles.bind (Work.settles_exchange (client.attempt text)) fun attempt => ?_
  dsimp only
  split
  · exact .bind (calculates_note rfl) fun _ => .pure _
  · exact .pure _

section

variable {service : Calculator.Service} (hservice : ∀ text, (service text).Calculates)

include hservice

/-- A press notes what it asks, and what the calculator notes. -/
theorem Keypad.calculates_press (maxDigits : Int) (s : Keypad.State) (k : Keypad.Key) :
    (Keypad.press service maxDigits s k).Calculates := by
  have hanswer (expression : String) : (Keypad.answerFor service expression).Calculates := by
    unfold Keypad.answerFor
    refine Work.Settles.bind (calculates_note rfl) fun _ => .bind (hservice _) fun outcome => ?_
    split
    · exact .pure _
    · exact .bind (calculates_note rfl) fun _ => .pure _
    · exact .pure _
  unfold Keypad.press
  dsimp only
  split
  · exact .bind (hanswer _) fun _ => .pure _
  · exact .pure _

theorem Session.Store.calculates_update (maxDigits : Int) (store : Session.Store) (id : String)
    (k : Keypad.Key) :
    (store.update id fun state => Keypad.press service maxDigits state k).Calculates := by
  unfold Session.Store.update
  dsimp only
  refine Work.Settles.bind (Keypad.calculates_press hservice maxDigits _ k) fun result => ?_
  cases result with
  | ok state => exact .pure _
  | error breakdown => exact .pure _

end

namespace Http

open Keypad (Key State)

theorem calculates_workings {platform : Platform} {environment : Settings.Environment}
    {ws : Workings} (h : workings platform environment = .ok ws) (text : String) :
    (ws.service text).Calculates := by
  rcases service_of_workings h with ⟨limits, hservice⟩ | ⟨client, hservice⟩
  · exact hservice ▸ calculates_localService limits text
  · exact hservice ▸ calculates_client platform.library client text

/-! ## What a request notes -/

/-- A record that is made for a request: with the id of the request, and with the session that it
presses, if any, where a calculation is noted. All else is noted with the session at hand. -/
structure Files (pressed? : Option String) (ids : Ids) (r : Log.Record) : Prop where
  requestId : r.requestId = Context.shown (ids .requestId)
  sessionId : r.sessionId = Context.shown
    (if r.event.isOfCalculation then pressed?.or (ids .sessionId) else ids .sessionId)

namespace Files

variable {pressed? : Option String} {ids : Ids} {r : Log.Record}

/-- A record of something else files under the ids at hand. -/
theorem of_not_calculation (hevent : r.event.isOfCalculation = false) (h : r.Under ids) :
    Files pressed? ids r :=
  ⟨h.requestId, by rw [hevent]; exact h.sessionId⟩

/-- Outside a press a calculation shows no session of its own. -/
theorem of_not_pressed (h : r.OfCalculation ids) : Files none ids r :=
  ⟨h.under.requestId, by rw [h.event]; exact h.under.sessionId⟩

/-- Within a press it shows the session that is pressed. -/
theorem of_pressed {session : String}
    (h : r.OfCalculation (Function.update ids .sessionId (some session))) :
    Files (some session) ids r :=
  ⟨h.under.requestId, by rw [h.event]; exact h.under.sessionId⟩

end Files

/-- The session in which a call presses a key. -/
def Call.pressed? : Call → Option String
  | .keypadPress session _ => some session
  | _ => none

section Settling

variable (platform : Platform) (environment : Settings.Environment) (store : Session.Store)

/-- A request to evaluate an expression calculates, whatever it comes to. -/
theorem calculate_settles (query : Input String) :
    (calculate platform environment query).Calculates := by
  unfold calculate
  split
  · exact .pure _
  · refine Work.Settles.bind (calculates_localService _ _) fun outcome => ?_
    cases outcome with
    | ok answer => exact .pure _
    | error breakdown => exact .pure _

/-- A press notes its calculation with the session that it presses in, and restores what was at hand
before. -/
theorem pressKey_settles (session : String) (key : Input Key) :
    (pressKey platform environment store session key).Settles
      fun ids => Log.Record.OfCalculation (Function.update ids .sessionId (some session)) := by
  intro w hw
  cases hgather : key.gather (workings platform environment) with
  | error ending =>
    rw [pressKey_run_of_refused hgather]
    exact .refl _ w
  | ok gathered =>
    obtain ⟨ws, k⟩ := gathered
    have hservice := calculates_workings (gather_eq_ok_iff.1 hgather).2
    -- the update calculates with the session at hand, between setting and resetting it
    have hupdate := Session.Store.calculates_update hservice ws.maxDigits store session k
      ((Work.setId .sessionId (some session)).run w).2 (hw.set .sessionId (some session))
    rw [Work.get_setId] at hupdate
    rw [pressKey_run_of_gather hgather]
    exact hupdate.restored hw

/-- The handler of a request restores the ids, and its records file under them. -/
theorem serve_settles (call : Call) :
    (call.serve platform environment store).Settles (Files call.pressed?) := by
  cases call with
  | calculate query =>
    refine Work.Settles.bind ?_ fun _ => .pure _
    exact fun w hw => (calculate_settles platform environment query w hw).imp
      fun _ => .of_not_pressed
  | keypadPress session key =>
    exact fun w hw => (pressKey_settles platform environment store session key w hw).imp
      fun _ => .of_pressed
  | _ => exact .pure _

theorem response?_settles (framework : Framework) (path : String) (ending : Ending)
    (pressed? : Option String) :
    (ending.response? framework path).Settles (Files pressed?) := by
  cases ending with
  | failed failure =>
    refine Work.Settles.bind (Work.settles_note fun c => ?_) fun _ => ?_
    · exact .of_not_calculation rfl (.of c _)
    · exact fun w _ => .refl _ w
  | _ => exact .pure _

end Settling

end Http

end KeypadCalc

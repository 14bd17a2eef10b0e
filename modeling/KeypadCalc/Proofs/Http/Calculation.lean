import KeypadCalc.Proofs.Calculator
import KeypadCalc.Proofs.Http.Frame

/-!
# KeypadCalc — what the server says about an expression

A request for the value of an expression ends as the calculator of the server answers
(`calculate_run`), and a response in JSON reports just that (`Server.handle_reports`): everything
around the handler notes, and adds headers.
-/

namespace KeypadCalc.Http

/-- A status and a payload report the outcome of a calculation. The id of the request, which stands in
the report of a refusal, is left open. -/
inductive Reports : Nat → Json → Except CalculatorError Answer → Prop where
  | answer (answer : Answer) : Reports 200 answer.raw.toJson (.ok answer)
  | refusal (error : CalculatorError) (traceId : Option String) :
      Reports error.failure.kind.status (error.failure.payload traceId) (.error error)

/-- How the handler that evaluates ends. -/
def Ending.ofOutcome (framework : Framework) : Except CalculatorError Answer → Ending
  | .ok answer => framework.written 200 answer.raw.toJson
  | .error error => .failed error.failure

/-- A response in JSON that conveys an outcome reports it: what cannot be written is answered in
plain text. -/
theorem Response.Conveys.reports {framework : Framework} {response : Response}
    {outcome : Except CalculatorError Answer} {payload : Json}
    (h : response.Conveys framework (.ofOutcome framework outcome))
    (hbody : response.body = .json payload) : Reports response.status payload outcome := by
  obtain ⟨traceId, hstatus, hsaid⟩ := h
  rw [hbody] at hsaid
  -- a payload in the answer means that the framework wrote it, so the other branch is none
  cases outcome with
  | ok answer =>
    rw [Ending.ofOutcome, Framework.written] at hstatus hsaid
    split at hsaid
    · next hwrites =>
      cases hsaid
      rw [hstatus, if_pos hwrites]
      exact .answer answer
    · cases hsaid
  | error error =>
    rw [Ending.ofOutcome, Ending.reported?] at hstatus hsaid
    split at hsaid
    · next hwrites =>
      cases hsaid
      rw [hstatus, if_pos hwrites]
      exact .refusal error traceId
    · cases hsaid

section

variable {environment : Settings.Environment} {settings : Settings} {text : String}

theorem calculate_run (platform : Platform)
    (hsettings : Settings.ofEnvironment environment = .ok settings) (text : String)
    (w : Surroundings) :
    ((calculate platform environment (.given text)).run w).1 =
      .ofOutcome platform.framework
        (Calculator.evaluate (settings.limits platform.stack) text) := by
  have hgather : (Input.given text).gather (settingsFor environment) = .ok (settings, text) :=
    gather_eq_ok_iff.2 ⟨rfl, settingsFor_eq_ok hsettings⟩
  rw [calculate, hgather]
  dsimp only
  rw [run_bind, Calculator.localService_run]
  cases Calculator.evaluate (settings.limits platform.stack) text <;> rfl

theorem Server.ending_of_calculate {server : Server} {request : Request}
    (hsettings : Settings.ofEnvironment server.environment = .ok settings)
    (hcall : server.call request = .calculate (.given text)) :
    server.ending request = .ofOutcome server.platform.framework
      (Calculator.evaluate (settings.limits server.platform.stack) text) := by
  rw [ending, handling_of_call hcall, ← calculate_run server.platform hsettings text
    (server.inside request)]
  rfl

/-- **The server says of an expression what its calculator answers.** -/
theorem Server.handle_reports (server : Server) {request : Request} {payload : Json}
    (hsettings : Settings.ofEnvironment server.environment = .ok settings)
    (hcall : server.call request = .calculate (.given text))
    (hbody : (server.handle request).1.body = .json payload) :
    Reports (server.handle request).1.status payload
      (Calculator.evaluate (settings.limits server.platform.stack) text) := by
  have hconveys := server.handle_conveys request
  rw [ending_of_calculate hsettings hcall] at hconveys
  exact hconveys.reports hbody

/-- An answer that can be written is the response. -/
theorem Server.handle_answer (server : Server) {request : Request} {a : Answer}
    (hsettings : Settings.ofEnvironment server.environment = .ok settings)
    (hcall : server.call request = .calculate (.given text))
    (ha : Calculator.evaluate (settings.limits server.platform.stack) text = .ok a)
    (hwrites : server.platform.framework.writes a.raw.toJson = true) :
    (server.handle request).1.status = 200 ∧
      (server.handle request).1.body = .json a.raw.toJson := by
  obtain ⟨traceId, hstatus, hbody⟩ := server.handle_conveys request
  rw [ending_of_calculate hsettings hcall, ha, Ending.ofOutcome, Framework.written, if_pos hwrites]
    at hstatus hbody
  exact ⟨hstatus, hbody⟩

end

end KeypadCalc.Http

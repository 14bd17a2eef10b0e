import KeypadCalc.Proofs.Http.Calculation
import KeypadCalc.Proofs.Settings.Limits

/-!
# KeypadCalc — what a reply brings back

A server with the settings of the calculator at hand is asked for the value of a text, and its
response arrives unchanged (`Reply.AnswersFor`). What a client makes of this reply is then what the
calculator at hand makes of the text (`Mirrors`): the same answer, or a fault with the message and
the type of its refusal.
-/

namespace KeypadCalc.Remote

/-- The message and the type that a failure is reported with are read back. -/
theorem refusal_payload (status : Nat) (failure : Failure) (traceId : Option String) :
    refusal status (failure.payload traceId) =
      .refused status (some failure.message) (.string failure.kind.type) := by
  rfl

/-- A reply that brings unchanged what a server in an environment responds to a request that asks it
for the value of a text. -/
inductive Reply.AnswersFor (library : Library) (environment : Settings.Environment)
    (text : String) : Reply → Prop where
  | delivered (server : Http.Server) (request : Http.Request) (body : ByteArray) (payload : Json)
      (hserver : server.environment = environment)
      (hcall : server.call request = .calculate (.given text))
      (hpayload : (server.handle request).1.body = .json payload)
      (hbody : Json.ofBytes library.nesting body = .ok payload) :
      AnswersFor library environment text (.delivered (server.handle request).1.status body)

/-- An outcome of the calculator at hand for a text, and one of a remote calculator that mirrors
it. -/
inductive Mirrors (text : String) : (near far : Outcome) → Prop where
  | answer {a b : RawAnswer} (hresult : b.result = a.result) (hdisplay : b.display = a.display) :
      Mirrors text (.ok a) (.ok b)
  | blank (hblank : (Text.trim text).isEmpty = true) :
      Mirrors text (.error (.refused .emptyExpression)) (.error (.refused .emptyExpression))
  | refusal {error : CalculatorError} {fault : RemoteFault}
      (htext : (Text.trim text).isEmpty = false)
      (hmessage : fault.message = error.failure.message)
      (hdetails : fault.details =
        [("status", .int 400), ("remoteType", .string error.failure.kind.type)]) :
      Mirrors text (.error (.refused error)) (.error (.refused (.remote fault)))

/-- A reply for a text without the blanks around it mirrors what the calculator at hand makes of the
text. -/
theorem mirrors_of_answersFor {library : Library} (hlibrary : library.Lawful)
    {environment : Settings.Environment} {settings : Settings} {text : String} {reply : Reply}
    (hsettings : Settings.ofEnvironment environment = .ok settings) (stack : Evaluator.Stack)
    (htext : (Text.trim text).isEmpty = false)
    (h : reply.AnswersFor library environment (Text.trim text)) :
    Mirrors text
      (((Calculator.evaluate (settings.limits stack) text).map Answer.raw).mapError .refused)
      (reply.outcome library) := by
  obtain ⟨server, request, body, payload, rfl, hcall, hpayload, hbody⟩ := h
  have hreports := server.handle_reports hsettings hcall hpayload
  -- the server may run on another stack, and has been asked about the shorter text
  rw [Calculator.evaluate_limits hsettings _ stack, Calculator.evaluate_trim] at hreports
  rw [Reply.outcome, hbody, interpret]
  generalize (server.handle request).1.status = status at hreports ⊢
  cases houtcome : Calculator.evaluate (settings.limits stack) text with
  | ok a =>
    rw [houtcome] at hreports
    cases hreports with
    | answer answer =>
      rw [if_pos rfl, hlibrary.validate_raw]
      exact .answer rfl rfl
  | error error =>
    rw [houtcome] at hreports
    cases hreports with
    | refusal error traceId =>
      -- a refusal is never reported with the status of success
      rw [Calculator.status_of_evaluate_eq_error houtcome, if_neg (by decide), refusal_payload]
      exact .refusal htext rfl rfl

end KeypadCalc.Remote

import KeypadCalc.Context
import KeypadCalc.Json.Basic
import KeypadCalc.Text.Upper

/-!
# KeypadCalc — log records

What the program notes about its work is an `Event`; each kind of event has a fixed level, logger
and message, and carries its own fields. A record is an event with the request and the session at
hand, and it is kept if its level reaches that of the journal.
-/

namespace KeypadCalc.Log

/-- The levels at which events are noted, from the least to the most serious. -/
inductive Level where
  | debug
  | info
  | warning
  | error
  | critical
  deriving DecidableEq, Repr

namespace Level

/-- How grave a level is. -/
def rank : Level → Nat
  | .debug => 10
  | .info => 20
  | .warning => 30
  | .error => 40
  | .critical => 50

/-- How a record names its level. -/
def name : Level → String
  | .debug => "DEBUG"
  | .info => "INFO"
  | .warning => "WARNING"
  | .error => "ERROR"
  | .critical => "CRITICAL"

/-- The level that a name in capitals sets. A journal whose level is not set takes that of all
other records. -/
def ofName? : String → Option Level
  | "DEBUG" => some .debug
  | "INFO" => some .info
  | "NOTSET" => some .info
  | "WARN" => some .warning
  | "WARNING" => some .warning
  | "ERROR" => some .error
  | "CRITICAL" => some .critical
  | "FATAL" => some .critical
  | _ => none

end Level

/-- What is worth noting. -/
inductive Event where
  | requestStarted (method path : String)
  | requestEnded (method path : String) (status : Nat)
  | failureReported (type path : String)
  | keypadEvaluation (expression : String)
  | keypadEvaluationFailed (expression type : String) (message : Json)
  | evaluation (expression : String)
  | remoteUnavailable (url reason : String)

namespace Event

/-- The level that an event is noted on. -/
def level : Event → Level
  | .evaluation _ => .debug
  | .remoteUnavailable .. => .warning
  | _ => .info

/-- The part of the program that notes an event. -/
def logger : Event → String
  | .requestStarted .. | .requestEnded .. => "calculator_app.request"
  | .failureReported .. => "calculator_app.errors"
  | .keypadEvaluation _ | .keypadEvaluationFailed .. => "calculator_app.keypad"
  | .evaluation _ => "calculator_app.evaluator"
  | .remoteUnavailable .. => "calculator_app.calculator_http"

/-- What a record calls an event. -/
def message : Event → String
  | .requestStarted .. => "request.start"
  | .requestEnded .. => "request.end"
  | .failureReported .. => "request.app_error"
  | .keypadEvaluation _ => "keypad.evaluate"
  | .keypadEvaluationFailed .. => "keypad.evaluate_failed"
  | .evaluation _ => "expression.evaluate"
  | .remoteUnavailable .. => "calculator_http.unavailable"

/-- What a record tells of an event besides. -/
def fields : Event → List (String × Json)
  | .requestStarted method path => [("method", .string method), ("path", .string path)]
  | .requestEnded method path status =>
    [("method", .string method), ("path", .string path), ("status_code", .int status)]
  | .failureReported type path => [("error_type", .string type), ("path", .string path)]
  | .keypadEvaluation expression => [("expression", .string expression)]
  | .keypadEvaluationFailed expression type message =>
    [("expression", .string expression), ("error_type", .string type), ("error", message)]
  | .evaluation expression => [("expression", .string expression)]
  | .remoteUnavailable url reason => [("url", .string url), ("error", .string reason)]

end Event

/-- An event with the ids that were at hand. -/
structure Record where
  event : Event
  requestId : String
  sessionId : String

/-- The record of an event. An id that is not set is shown as a dash. -/
def Record.of (context : Context) (event : Event) : Record :=
  ⟨event, Context.shown context.requestId, Context.shown context.sessionId⟩

/-- A record as it is written. -/
def Record.toJson (r : Record) : Json :=
  .ofFields (("levelname", .string r.event.level.name) :: ("name", .string r.event.logger)
    :: ("message", .string r.event.message) :: ("request_id", .string r.requestId)
    :: ("session_id", .string r.sessionId) :: r.event.fields)

/-- How the loggers are set up: their levels, whether they hand records on, and the level of all
other records. -/
structure Configuration where
  levels : List (String × String)
  handsOn : List (String × Bool)
  other : String
  deriving DecidableEq, Repr

/-- The loggers of the server, whose level is fixed. -/
def serverLoggers : List String := ["uvicorn", "uvicorn.error", "uvicorn.access"]

def programLogger : String := "calculator_app"

/-- The set-up for a level: the program's own loggers have it, in capitals, and all others note
what is informative. No logger hands its records on. -/
def configuration (level : String) : Configuration where
  levels := serverLoggers.map (·, "INFO") ++ [(programLogger, Text.upper level)]
  handsOn := (serverLoggers ++ [programLogger]).map (·, false)
  other := "INFO"

end KeypadCalc.Log

import KeypadCalc.Display
import KeypadCalc.Evaluator
import KeypadCalc.Failure
import KeypadCalc.Issue

/-!
# KeypadCalc — the calculator

A calculator answers a text with the text itself, the number it evaluates to and what the display
shows for it. The blanks around an expression do not count: an expression without any other
character is refused, and so is one that is longer than allowed; what is left is evaluated, and the
value is shown. `CalculatorError` lists the causes of a refusal, and `CalculatorError.failure` words
them.
-/

namespace KeypadCalc

/-- A number as it is handed on: a whole double becomes an integer. -/
inductive Number where
  | int (n : Int)
  | float (x : Float)
  deriving DecidableEq

namespace Number

/-- A whole double is the integer that it is. -/
def ofFloat (x : Float) : Number :=
  match Binary64.toInt? x with
  | some n => .int n
  | none => .float x

def toJson : Number → Json
  | .int n => .int n
  | .float x => .float x

end Number

/-- What a calculator answers: the text as it was given, its value, and how that is displayed. -/
structure Answer where
  expression : String
  result : Number
  display : String
  deriving DecidableEq

namespace Answer

def toJson (a : Answer) : Json :=
  .object [("expression", .string a.expression), ("result", a.result.toJson),
    ("display", .string a.display)]

end Answer

/-- Why a remote calculator has not answered. -/
inductive RemoteFault where
  /-- No address of a remote calculator is set. -/
  | notConfigured
  /-- The remote calculator could not be reached. -/
  | unavailable
  /-- It answered with a status other than success, perhaps with a message and a type. -/
  | refused (status : Nat) (message : Option Json) (remoteType : Json)
  /-- It answered with success, but not in JSON. -/
  | notJson

/-- Why an expression is refused. -/
inductive CalculatorError where
  | emptyExpression
  | tooLong (limit : Int)
  /-- The expression has a fault; `maxDepth` is the limit on levels that it was read under. -/
  | faulty (expression : String) (maxDepth : Int) (fault : Fault)
  /-- The value cannot be shown. -/
  | notFinite (value : Display.NonFinite)
  | remote (fault : RemoteFault)

namespace Fault

/-- All faults of grammar are of one kind. -/
def kind : Fault → Failure.Kind
  | .divisionByZero => .divisionByZero
  | _ => .invalidExpression

/-- The place of a fault of grammar; the end of an expression is behind its last character. -/
def position? (expression : String) : Fault → Option Nat
  | .stray s => some s.position
  | .unexpected (some t) => some t.position
  | .unexpected none => some expression.length
  | .nestingTooDeep => none
  | .divisionByZero => none

/-- What is said of a fault, with the position where it has one. -/
def message : Fault → String
  | .stray s =>
    "Invalid expression: unexpected character " ++ Text.quoted (String.singleton s.char)
      ++ " at position " ++ toString s.position ++ "."
  | .unexpected (some t) =>
    "Invalid expression: unexpected " ++ Text.quoted t.text ++ " at position "
      ++ toString t.position ++ "."
  | .unexpected none => "Invalid expression: unexpected end of input."
  | .nestingTooDeep => "Invalid expression: nesting is too deep."
  | .divisionByZero => "Division by zero is not allowed."

/-- The details that report a fault: the expression, with the place of a fault of grammar, or with
the limit on levels where that was passed. -/
def details (expression : String) (maxDepth : Int) (fault : Fault) : List (String × Json) :=
  ("expression", .string expression) ::
    match fault, fault.position? expression with
    | _, some n => [("position", .int n)]
    | .nestingTooDeep, none => [("maxDepth", .int maxDepth)]
    | _, none => []

/-- The report of a fault in an expression. -/
def failure (expression : String) (maxDepth : Int) (fault : Fault) : Failure :=
  ⟨fault.kind, .string fault.message, fault.details expression maxDepth⟩

end Fault

namespace RemoteFault

/-- The message that reports a fault; that of the remote calculator is passed on as it came. -/
def message : RemoteFault → Json
  | .notConfigured => .string "CALC_HTTP_BASE_URL is not configured."
  | .unavailable => .string "Calculator service is unavailable."
  | .refused _ message _ => message.getD (.string "Calculator request failed.")
  | .notJson => .string "Calculator response was not valid JSON."

/-- What is told of a remote refusal: its status and its type. -/
def details : RemoteFault → List (String × Json)
  | .refused status _ remoteType => [("status", .int status), ("remoteType", remoteType)]
  | _ => []

end RemoteFault

namespace CalculatorError

/-- The report of a refusal. -/
def failure : CalculatorError → Failure
  | .emptyExpression => ⟨.invalidExpression, .string "Expression cannot be empty.", []⟩
  | .tooLong limit =>
    ⟨.invalidExpression,
      .string ("Expression exceeds " ++ toString limit ++ " characters."), []⟩
  | .faulty expression maxDepth fault => fault.failure expression maxDepth
  | .notFinite value =>
    ⟨.nonFiniteResult, .string "Result is not a finite number.", [("value", .string value.name)]⟩
  | .remote fault => ⟨.remoteCalculator, fault.message, fault.details⟩

end CalculatorError

/-- What an evaluation has to do with: the stack of the machine, and the limits that are set. -/
structure Limits where
  stack : Evaluator.Stack
  maxLength : Int := 1000
  maxDepth : Int := Evaluator.defaultMaxDepth
  deriving DecidableEq, Repr

namespace Calculator

/-- The part of a text that is evaluated, if it is neither empty nor too long. -/
def accept (limits : Limits) (text : String) : Except CalculatorError String :=
  let cleaned := Text.trim text
  if cleaned.isEmpty then .error .emptyExpression
  else if limits.maxLength < cleaned.length then .error (.tooLong limits.maxLength)
  else .ok cleaned

/-- The value of an admitted expression, and the text that shows it. -/
def compute (limits : Limits) (cleaned : String) : Except CalculatorError (Float × String) :=
  match Evaluator.evaluate limits.stack limits.maxDepth cleaned with
  | .error fault => .error (.faulty cleaned limits.maxDepth fault)
  | .ok value =>
    match Display.text value with
    | .error bad => .error (.notFinite bad)
    | .ok display => .ok (value, display)

/-- The answer to a text. The text stands in the answer as it was given. -/
def evaluate (limits : Limits) (text : String) : Except CalculatorError Answer := do
  let cleaned ← accept limits text
  let (value, display) ← compute limits cleaned
  return ⟨text, Number.ofFloat value, display⟩

end Calculator

end KeypadCalc

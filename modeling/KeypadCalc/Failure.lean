import KeypadCalc.Json.Basic

/-!
# KeypadCalc — failures and how they are reported

Whatever goes wrong in the program's own domain is reported in one shape: a kind, a message and
details. Kinds form a tree; each has a status for a response and a type that names it to a client.
A message is a JSON value, since a remote calculator may have worded it.
-/

namespace KeypadCalc

inductive Failure.Kind where
  | app
  | calculator
  | evaluation
  | divisionByZero
  | invalidExpression
  | nonFiniteResult
  | remoteCalculator
  | sessionNotFound
  deriving DecidableEq, Repr

namespace Failure.Kind

def parent? : Kind → Option Kind
  | .app => none
  | .calculator => some .app
  | .evaluation => some .calculator
  | .divisionByZero => some .evaluation
  | .invalidExpression => some .evaluation
  | .nonFiniteResult => some .calculator
  | .remoteCalculator => some .calculator
  | .sessionNotFound => some .app

def height : Kind → Nat
  | .app => 0
  | .calculator => 1
  | .evaluation => 2
  | .divisionByZero => 3
  | .invalidExpression => 3
  | .nonFiniteResult => 2
  | .remoteCalculator => 2
  | .sessionNotFound => 1

theorem height_of_parent? {k p : Kind} (h : k.parent? = some p) : p.height < k.height := by
  cases k <;> simp [parent?] at h <;> subst h <;> decide

-- `h` is used in `decreasing_by`, which the linter does not see.
set_option linter.unusedVariables false in
/-- A kind and the kinds that it is a special case of, from the special to the general. -/
def ancestors (k : Kind) : List Kind :=
  match h : k.parent? with
  | none => [k]
  | some p => k :: p.ancestors
termination_by k.height
decreasing_by exact height_of_parent? h

def status : Kind → Nat
  | .app => 500
  | .calculator | .evaluation | .divisionByZero | .invalidExpression | .nonFiniteResult => 400
  | .remoteCalculator => 502
  | .sessionNotFound => 404

def type : Kind → String
  | .app => "APP_ERROR"
  | .calculator => "CALCULATOR_ERROR"
  | .evaluation => "EVALUATION_ERROR"
  | .divisionByZero => "DIVISION_BY_ZERO"
  | .invalidExpression => "INVALID_EXPRESSION"
  | .nonFiniteResult => "NON_FINITE_RESULT"
  | .remoteCalculator => "CALCULATOR_HTTP_ERROR"
  | .sessionNotFound => "KEYPAD_SESSION_NOT_FOUND"

end Failure.Kind

structure Failure where
  kind : Failure.Kind
  message : Json
  details : List (String × Json)

namespace Failure

/-- The body of a response that reports a failure. Details and the id of the request are left out
where there are none. -/
def payload (failure : Failure) (traceId : Option String) : Json :=
  let core := [("type", Json.string failure.kind.type), ("message", failure.message)]
  let details := if failure.details.isEmpty then [] else [("details", Json.ofFields failure.details)]
  let trace := match traceId with
    | some id => if id.isEmpty then [] else [("traceId", Json.string id)]
    | none => []
  .object [("error", .ofFields (core ++ details ++ trace))]

end Failure

end KeypadCalc

import KeypadCalc.Calculator

/-!
# KeypadCalc — the calculator as a tool

Programs that call tools by name find the calculator under `name`. They call it with the text of an
expression or with an object that holds one, and the number alone is handed back, without further
work on it.
-/

namespace KeypadCalc.Tool

def name : String := "calculator"

/-- What the tool gives is the answer to whoever asked, and nothing follows it. -/
def isFinal : Bool := true

inductive Fault where
  /-- The call holds no expression. -/
  | unfit (issues : List Issue)
  | refused (error : CalculatorError)

def expressionOf : Json → Checked String
  | .string text => .ok text.shown
  | .object fields => Issue.required fields "expression" Issue.checkString
  | _ => .error [⟨.modelType, []⟩]

def invoke (limits : Limits) (call : Json) : Except Fault Number := do
  let text ← (expressionOf call).mapError .unfit
  let answer ← (Calculator.evaluate limits text).mapError .refused
  return answer.result

end KeypadCalc.Tool

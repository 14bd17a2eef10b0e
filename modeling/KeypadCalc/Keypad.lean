import KeypadCalc.Surroundings

/-!
# KeypadCalc — the keypad

Twenty keys build two texts side by side: the expression that the calculator reads, and the equation
that is displayed, in which a root is `√` and the operators have their printed signs. A root opens
a group that is still open until an operator or `=` closes it. A digit is taken while the operand
being typed has room for it. States are values: `State.edit` is what a key does to the two texts,
and `press` adds what `=` does beyond that, to ask the calculator for an answer.
-/

namespace KeypadCalc.Keypad

/-- The keys of a keypad. -/
inductive Key where
  | clear
  | root
  | power
  | divide
  | multiply
  | subtract
  | add
  | zero
  | doubleZero
  | one
  | two
  | three
  | four
  | five
  | six
  | seven
  | eight
  | nine
  | point
  | equals
  deriving DecidableEq, Repr

namespace Key

/-- The label of a key, which is also what it adds to the equation. -/
def label : Key → String
  | .clear => "C"
  | .root => "√"
  | .power => "^"
  | .divide => "÷"
  | .multiply => "×"
  | .subtract => "-"
  | .add => "+"
  | .zero => "0"
  | .doubleZero => "00"
  | .one => "1"
  | .two => "2"
  | .three => "3"
  | .four => "4"
  | .five => "5"
  | .six => "6"
  | .seven => "7"
  | .eight => "8"
  | .nine => "9"
  | .point => "."
  | .equals => "="

/-- The keys, in the order in which they are listed. -/
def all : List Key :=
  [.clear, .root, .power, .divide, .multiply, .subtract, .add, .zero, .doubleZero, .one, .two,
   .three, .four, .five, .six, .seven, .eight, .nine, .point, .equals]

/-- The key with a label. -/
def ofLabel? (s : String) : Option Key :=
  all.find? fun k => k.label == s

/-- The key that a JSON value names: the text of its label. -/
def ofJson? : Json → Option Key
  | .string (.whole s) => ofLabel? s
  | _ => none

theorem mem_all (k : Key) : k ∈ all := by
  cases k <;> decide

theorem ofLabel?_label (k : Key) : ofLabel? k.label = some k := by
  cases k <;> rfl

/-- What is said of a value that is no key. -/
def unknownMessage (value : Json) : String :=
  value.name ++ " is not a valid KeypadKey"

end Key

/-- What a keypad holds. -/
structure State where
  sessionId : String
  /-- The text that the calculator reads. -/
  expression : String := ""
  /-- The text that is displayed. -/
  equation : String := ""
  /-- What the last `=` answered; a remote calculator may have sent it torn. -/
  answer : RawText := ""
  /-- Whether a root is open that the next operator or `=` closes. -/
  waitingForRoot : Bool := false
  deriving DecidableEq, Repr

namespace State

/-- The state of a keypad on which nothing has been typed. -/
def blank (sessionId : String) : State :=
  { sessionId }

def toJson (s : State) : Json :=
  .object [("sessionId", .string s.sessionId), ("expression", .string s.expression),
    ("equation", .string s.equation), ("answer", .string s.answer),
    ("waitingForSqrt", .bool s.waitingForRoot)]

/-- The state that a JSON value holds. Only the id of the session has to be there. -/
def ofJson : Json → Checked State
  | .object fields =>
    (Checked.both (Issue.required fields "sessionId" Issue.checkString)
      (Checked.both (Issue.optional fields "expression" "" Issue.checkString)
        (Checked.both (Issue.optional fields "equation" "" Issue.checkString)
          (Checked.both (Issue.optional fields "answer" (.whole "") Issue.checkText)
            (Issue.optional fields "waitingForSqrt" false Issue.checkBool))))).map
      fun (sessionId, expression, equation, answer, waitingForRoot) =>
        ⟨sessionId, expression, equation, answer, waitingForRoot⟩
  | _ => .error [⟨.modelType, []⟩]

/-- A state with a text added to the expression and one to the equation. -/
def append (s : State) (expression equation : String) : State :=
  { s with expression := s.expression ++ expression, equation := s.equation ++ equation }

/-- A state in which a root that is open has been closed. -/
def closeRoot (s : State) : State :=
  if s.waitingForRoot then { s with expression := s.expression ++ ")", waitingForRoot := false }
  else s

end State

/-- Operands end at operators and at opening parentheses. -/
def isBoundary (c : Char) : Bool :=
  c == '+' || c == '-' || c == '*' || c == '/' || c == '^' || c == '('

/-- The operand being typed: what stands behind the last boundary. -/
def currentOperand (cs : List Char) : List Char :=
  (cs.reverse.takeWhile (!isBoundary ·)).reverse

/-- How many digits the operand being typed has. -/
def currentDigits (expression : String) : Nat :=
  (currentOperand expression.toList).countP Text.isCountedDigit

namespace State

/-- A state with digits added, if the operand being typed has room for all of them. -/
def appendDigits (maxDigits : Int) (digits : String) (s : State) : State :=
  if maxDigits < currentDigits s.expression + digits.length then s else s.append digits digits

/-- A state after a key for one zero or two. In front of an operand that is empty or zero they are
one zero. -/
def appendZeros (maxDigits : Int) (digits : String) (s : State) : State :=
  if s.expression = "" ∨ s.expression = "0" then { s with expression := "0", equation := "0" }
  else s.appendDigits maxDigits digits

/-- What a key does to the texts, before anything is asked. -/
def edit (maxDigits : Int) (s : State) (k : Key) : State :=
  match k with
  | .clear => blank s.sessionId
  | .root => { s.append "sqrt(" k.label with waitingForRoot := true }
  | .power => s.closeRoot.append "**" k.label
  | .divide => s.closeRoot.append "/" k.label
  | .multiply => s.closeRoot.append "*" k.label
  | .subtract => s.closeRoot.append "-" k.label
  | .add => s.closeRoot.append "+" k.label
  | .zero | .doubleZero => s.appendZeros maxDigits k.label
  | .point => s.append "." k.label
  | .equals => s.closeRoot
  | .one | .two | .three | .four | .five | .six | .seven | .eight | .nine =>
    s.appendDigits maxDigits k.label

theorem edit_sessionId (maxDigits : Int) (s : State) (k : Key) :
    (s.edit maxDigits k).sessionId = s.sessionId := by
  cases k <;> simp only [edit, blank, append, closeRoot, appendZeros, appendDigits] <;>
    repeat' split
  all_goals rfl

end State

def errorAnswer : String := "= Error"

/-- The answer that a keypad shows for an expression. A refusal is noted and shown as an error; any
other breakdown is passed on. -/
def answerFor (service : Calculator.Service) (expression : String) :
    Work (Except Breakdown RawText) := do
  Work.note (.keypadEvaluation expression)
  match ← service expression with
  | .ok answer => return .ok (answer.display.prepend "= ")
  | .error (.refused error) =>
    let failure := error.failure
    Work.note (.keypadEvaluationFailed expression failure.kind.type failure.message)
    return .ok errorAnswer
  | .error other => return .error other

/-- Presses a key: the texts are edited, and `=` asks for the answer. -/
def press (service : Calculator.Service) (maxDigits : Int) (s : State) (k : Key) :
    Work (Except Breakdown State) := do
  let edited := s.edit maxDigits k
  if k = .equals then
    return (← answerFor service edited.expression).map fun answer => { edited with answer }
  else return .ok edited

end KeypadCalc.Keypad

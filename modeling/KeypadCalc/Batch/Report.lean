import KeypadCalc.Calculator
import KeypadCalc.Log
import KeypadCalc.Settings
import KeypadCalc.Batch.Arguments
import KeypadCalc.Text.Split

/-!
# KeypadCalc — evaluating a batch

A batch evaluates one expression after the other and reports each on a line of its own; a failure
shows as `Error` and does not stop the rest. Blanks around an expression do not count, and an
expression of blanks is passed over. Where a call holds no expressions they are read from its input,
one on a line. The batch as a whole fails if one of its expressions does.
-/

namespace KeypadCalc.Batch

/-- An expression, without the blanks around it, and what became of it. -/
structure Entry where
  expression : String
  outcome : Except CalculatorError Answer

namespace Entry

/-- Whether an expression has no answer. -/
def isFailed (e : Entry) : Bool :=
  match e.outcome with
  | .ok _ => false
  | .error _ => true

/-- What stands behind the equals sign. -/
def shown (e : Entry) : String :=
  match e.outcome with
  | .ok answer => answer.display
  | .error _ => "Error"

def line (e : Entry) : String :=
  e.expression ++ " = " ++ e.shown

/-- Why an expression has no answer, for those who want to know. -/
def explanation? (e : Entry) : Option String :=
  match e.outcome with
  | .ok _ => none
  | .error error =>
    let reason := match error.failure.message with
      | .string text => text.shown
      | other => other.name
    some ("Failed to evaluate " ++ e.expression ++ ": " ++ reason)

end Entry

/-- An entry for each expression that is not blank, in order. -/
def evaluateAll (limits : Limits) (expressions : List String) : List Entry :=
  ((expressions.map Text.trim).filter (!·.isEmpty)).map fun e => ⟨e, Calculator.evaluate limits e⟩

/-- The line of each entry. -/
def lines (entries : List Entry) : List String :=
  entries.map Entry.line

/-- How many entries have failed. -/
def failures (entries : List Entry) : Nat :=
  entries.countP Entry.isFailed

/-- The entries of two lists are those of the one and those of the other. -/
theorem evaluateAll_append (limits : Limits) (xs ys : List String) :
    evaluateAll limits (xs ++ ys) = evaluateAll limits xs ++ evaluateAll limits ys := by
  simp [evaluateAll]

/-- How a run ended: its exit code, what it wrote, and what it noted. -/
structure Run where
  exitCode : Nat
  output : String
  log : List (Log.Level × String)
  deriving DecidableEq, Repr

/-- What a run comes to: its lines, and a word on the failures if there are any. -/
def Run.ofEntries (verbose : Bool) (entries : List Entry) : Run :=
  let failed := failures entries
  { exitCode := if failed = 0 then 0 else 1
    output := String.join ((lines entries).map (· ++ "\n"))
    log := (if verbose then (entries.filterMap Entry.explanation?).map (Log.Level.debug, ·) else [])
      ++ if failed = 0 then []
        else [(.info, toString failed ++ " of " ++ toString entries.length
          ++ " expressions failed")] }

/-- The expressions of a call: its own, or else the lines of its input. -/
def expressionsOf (arguments : Arguments) (input : String) : List String :=
  if arguments.expressions.isEmpty then (Text.split '\n' input.toList).map String.ofList
  else arguments.expressions

/-- The limits of a call: those of the settings, of which it may replace the length. -/
def limitsOf (stack : Evaluator.Stack) (settings : Settings) (arguments : Arguments) : Limits :=
  let limits := settings.limits stack
  { limits with maxLength := arguments.maxLength.getD limits.maxLength }

/-- How a run of the program can end. -/
inductive Ending where
  | misused (fault : UsageFault)
  | helped
  | unsettled (fault : Settings.Fault)
  | done (run : Run)

/-- Runs a batch. The arguments are looked at before the settings. -/
def run (stack : Evaluator.Stack) (environment : Settings.Environment) (input : String)
    (arguments : List String) : Ending :=
  match Call.ofArguments arguments with
  | .error fault => .misused fault
  | .ok .help => .helped
  | .ok (.run arguments) =>
    match Settings.ofEnvironment environment with
    | .error fault => .unsettled fault
    | .ok settings =>
      .done (.ofEntries arguments.verbose
        (evaluateAll (limitsOf stack settings arguments) (expressionsOf arguments input)))

end KeypadCalc.Batch

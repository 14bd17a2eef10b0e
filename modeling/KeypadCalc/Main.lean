import KeypadCalc.Batch.Report

/-!
# KeypadCalc — the command line

Evaluates a batch of expressions, given as arguments or on the standard input. Settings are taken
from the environment. Everything is decided by `Batch.run`; here its result is written out.
-/

open KeypadCalc

def usageText : String :=
  "usage: keypadcalc [-h] [--max-length MAX_LENGTH] [--verbose] [expressions ...]"

/-- The variables of the environment that hold settings. -/
def settingsEnvironment : IO Settings.Environment := do
  let mut found := []
  for name in Settings.variableNames do
    if let some value ← IO.getEnv name then
      found := found ++ [(name, value)]
  return found

/-- The standard input as a text; it is read only where a call holds no expressions. -/
def inputFor (arguments : List String) : IO String := do
  match Batch.Call.ofArguments arguments with
  | .ok (.run a) => if a.expressions.isEmpty then (← IO.getStdin).readToEnd else return ""
  | _ => return ""

def main (arguments : List String) : IO UInt32 := do
  let ending := Batch.run .usual (← settingsEnvironment) (← inputFor arguments) arguments
  match ending with
  | .misused fault =>
    IO.eprintln usageText
    IO.eprintln ("error: " ++ fault.message)
    return 2
  | .helped =>
    IO.println usageText
    return 0
  | .unsettled .originsNotJson =>
    IO.eprintln "error: CORS_ORIGINS is not JSON"
    return 1
  | .unsettled (.invalid issues) =>
    for issue in issues do
      IO.eprintln ("error: " ++ issue.text)
    return 1
  | .done run =>
    IO.print run.output
    for entry in run.log do
      IO.eprintln (entry.1.name ++ " " ++ entry.2)
    return UInt32.ofNat run.exitCode

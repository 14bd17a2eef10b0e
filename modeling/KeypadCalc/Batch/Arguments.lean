import KeypadCalc.Text.Number
import KeypadCalc.Text.Quoted

/-!
# KeypadCalc — the arguments of a batch

A batch is called with expressions and options among them. Every argument is first told apart by its
look alone, as a `Word`: an option by its name or by the start of a long name, perhaps with a value
behind a sign of equality; everything else with a dash in front is unknown, unless it is a lone
dash, a negative number or holds a space. Behind `--` every argument is an expression.

The words are then taken from left to right. The expressions have to stand together: those that
stand behind an option after others are left over, and so is an unknown option. What is left over
is reported at the end, and any other fault at once.
-/

namespace KeypadCalc.Batch

/-- The options. -/
inductive Switch where
  | help
  | maxLength
  | verbose
  deriving DecidableEq, Repr

namespace Switch

/-- The names of the options, in the order in which they are listed. -/
def names : List (String × Switch) :=
  [("-h", .help), ("--help", .help), ("--max-length", .maxLength), ("--verbose", .verbose)]

/-- How a message names an option. -/
def label : Switch → String
  | .help => "-h/--help"
  | .maxLength => "--max-length"
  | .verbose => "--verbose"

def ofName? (name : String) : Option Switch :=
  names.lookup name

/-- The names that an abbreviation stands for. -/
def completions (start : String) : List (String × Switch) :=
  names.filter fun n => start.toList.isPrefixOf n.1.toList

end Switch

/-- How arguments can be wrong. -/
inductive UsageFault where
  | ambiguous (argument : String) (names : List String)
  | valueMissing (switch : Switch)
  | notAnInteger (switch : Switch) (value : String)
  /-- A value where the option takes none. -/
  | valueIgnored (switch : Switch) (value : String)
  | unrecognized (arguments : List String)
  deriving DecidableEq, Repr

/-- What is said of wrong arguments. -/
def UsageFault.message : UsageFault → String
  | .ambiguous argument names =>
    "ambiguous option: " ++ argument ++ " could match " ++ ", ".intercalate names
  | .valueMissing switch => "argument " ++ switch.label ++ ": expected one argument"
  | .notAnInteger switch value =>
    "argument " ++ switch.label ++ ": invalid int value: " ++ Text.quoted value
  | .valueIgnored switch value =>
    "argument " ++ switch.label ++ ": ignored explicit argument " ++ Text.quoted value
  | .unrecognized arguments => "unrecognized arguments: " ++ " ".intercalate arguments

/-- What an argument is taken for. -/
inductive Word where
  | plain (text : String)
  /-- The mark behind which every argument is plain. -/
  | separator
  | switch (switch : Switch) (value : Option String)
  /-- The short option for help with letters right behind it. -/
  | shortHelp (letters : List Char)
  | unknown (text : String)
  deriving DecidableEq, Repr

namespace Word

/-- Digits and nothing else, at least one; a line feed may stand behind them. -/
def isDigits (cs : List Char) : Bool :=
  !(cs.takeWhile Text.isDigit).isEmpty
    && (cs.dropWhile Text.isDigit == [] || cs.dropWhile Text.isDigit == ['\n'])

/-- A negative number: a dash, and digits that may have a point in front of the last of them. -/
def isNegativeNumber : List Char → Bool
  | '-' :: cs =>
    isDigits cs || match cs.dropWhile Text.isDigit with
      | '.' :: part => isDigits part
      | _ => false
  | _ => false

/-- An argument cut at its first sign of equality, if it has one. -/
def cutAtEquals (argument : String) : String × Option String :=
  match argument.toList.dropWhile (· != '=') with
  | [] => (argument, none)
  | _ :: value =>
    (String.ofList (argument.toList.takeWhile (· != '=')), some (String.ofList value))

/-- The options whose names start with the text in front of a sign of equality, by their names. -/
def completions (argument : String) : List (String × Word) :=
  let (start, value) := cutAtEquals argument
  (Switch.completions start).map fun n => (n.1, .switch n.2 value)

/-- An argument with a dash in front that is no option by its full name. Only a long name may be
cut short. -/
def ofDashed (argument : String) : Except UsageFault Word :=
  match if "--".toList.isPrefixOf argument.toList then completions argument else [] with
  | [(_, word)] => .ok word
  | [] =>
    if isNegativeNumber argument.toList || argument.toList.contains ' ' then .ok (.plain argument)
    else .ok (.unknown argument)
  | several => .error (.ambiguous argument (several.map (·.1)))

def ofArgument (argument : String) : Except UsageFault Word :=
  match Switch.ofName? argument, argument.toList with
  | some s, _ => .ok (.switch s none)
  | none, '-' :: 'h' :: letters => .ok (.shortHelp letters)
  | none, '-' :: _ :: _ =>
    let (name, value) := cutAtEquals argument
    match Switch.ofName? name with
    | some s => .ok (.switch s value)
    | none => ofDashed argument
  | none, _ => .ok (.plain argument)

/-- What arguments are taken for, up to the separator; behind it all are plain. -/
def ofArguments : List String → Except UsageFault (List Word)
  | [] => .ok []
  | "--" :: rest => .ok (.separator :: rest.map .plain)
  | argument :: rest => do
    let word ← ofArgument argument
    return word :: (← ofArguments rest)

end Word

/-- What a run is asked to do. -/
structure Arguments where
  expressions : List String := []
  maxLength : Option Int := none
  verbose : Bool := false
  deriving DecidableEq, Repr

/-- What the arguments ask for. -/
inductive Call where
  | help
  | run (arguments : Arguments)
  deriving DecidableEq, Repr

/-- Where the expressions of a call stand with regard to the words taken so far. -/
inductive Stretch where
  | ahead
  | here
  | over
  deriving DecidableEq, Repr

/-- Anything but a plain word ends a stretch that has begun. -/
def Stretch.interrupt : Stretch → Stretch
  | .ahead => .ahead
  | .here => .over
  | .over => .over

/-- What has been taken from the words so far. -/
structure Taken where
  arguments : Arguments := {}
  stretch : Stretch := .ahead
  leftOver : List String := []
  deriving DecidableEq, Repr

namespace Taken

/-- Takes an expression, if their stretch is not over yet. -/
def plain (t : Taken) (text : String) : Taken :=
  match t.stretch with
  | .over => { t with leftOver := t.leftOver ++ [text] }
  | _ =>
    { t with
      arguments := { t.arguments with expressions := t.arguments.expressions ++ [text] },
      stretch := .here }

/-- Takes the separator, which begins or continues the stretch of the expressions. -/
def separator (t : Taken) : Taken :=
  match t.stretch with
  | .over => { t with leftOver := t.leftOver ++ ["--"] }
  | _ => { t with stretch := .here }

/-- A word that is no option is left over. -/
def unknown (t : Taken) (text : String) : Taken :=
  { t with stretch := t.stretch.interrupt, leftOver := t.leftOver ++ [text] }

/-- The option for the length, which needs an integer. -/
def maxLength (t : Taken) (value : String) : Except UsageFault Taken :=
  match Text.argumentInt? value with
  | some n =>
    .ok { t with arguments := { t.arguments with maxLength := some n },
                 stretch := t.stretch.interrupt }
  | none => .error (.notAnInteger .maxLength value)

/-- The option for explanations. -/
def verbose (t : Taken) : Taken :=
  { t with arguments := { t.arguments with verbose := true }, stretch := t.stretch.interrupt }

/-- Where nothing is left over the arguments ask for a run. -/
def finish (t : Taken) : Except UsageFault Call :=
  if t.leftOver.isEmpty then .ok (.run t.arguments) else .error (.unrecognized t.leftOver)

end Taken

/-- The short option for help with letters right behind it. As long as they are that option again
they only repeat it; it takes no value, neither behind a sign of equality nor with a dash in front,
and what else follows is not looked at. -/
def helpBefore : List Char → Except UsageFault Call
  | 'h' :: letters => helpBefore letters
  | '=' :: value => .error (.valueIgnored .help (String.ofList value))
  | '-' :: rest => .error (.valueIgnored .help (String.ofList ('-' :: rest)))
  | _ => .ok .help

def take (t : Taken) : List Word → Except UsageFault Call
  | [] => t.finish
  | .plain text :: rest => take (t.plain text) rest
  | .separator :: rest => take t.separator rest
  | .unknown text :: rest => take (t.unknown text) rest
  | .switch .help none :: _ => .ok .help
  | .switch .help (some value) :: _ => .error (.valueIgnored .help value)
  | .shortHelp letters :: _ => helpBefore letters
  | .switch .verbose none :: rest => take t.verbose rest
  | .switch .verbose (some value) :: _ => .error (.valueIgnored .verbose value)
  | .switch .maxLength (some value) :: rest => do take (← t.maxLength value) rest
  | .switch .maxLength none :: .plain value :: rest => do take (← t.maxLength value) rest
  | .switch .maxLength none :: _ => .error (.valueMissing .maxLength)

/-- The call that arguments make, or how they are wrong. -/
def Call.ofArguments (arguments : List String) : Except UsageFault Call := do
  take {} (← Word.ofArguments arguments)

example : (Call.ofArguments ["1", "--max=3", "--verb"]).toOption =
    some (.run ⟨["1"], some 3, true⟩) := by decide +kernel

end KeypadCalc.Batch

import KeypadCalc.Json.Basic
import KeypadCalc.Text.Number

/-!
# KeypadCalc — values that do not fit

Settings, request bodies, stored states and remote answers are checked field by field. What does
not fit is an `Issue`, a kind with the place of the value; the issues of a whole record are listed
in the order of its fields. Here are the checks that several records share: of texts, truth values,
integers and floating-point numbers. A check reads numbers from text too. Where only the characters
of a text are looked at, a lone surrogate in it is the replacement character, which is as little of a
number or of a name.
-/

namespace KeypadCalc

inductive Issue.Kind where
  | missing
  | enum
  | stringType
  | boolType
  | boolParsing
  | intType
  | intParsing
  | intFromFloat
  | floatType
  | floatParsing
  | finiteNumber
  | greaterThanEqual
  | lessThanEqual
  | listType
  | modelType
  | modelAttributesType
  | jsonInvalid
  deriving DecidableEq, Repr

def Issue.Kind.name : Issue.Kind → String
  | .missing => "missing"
  | .enum => "enum"
  | .stringType => "string_type"
  | .boolType => "bool_type"
  | .boolParsing => "bool_parsing"
  | .intType => "int_type"
  | .intParsing => "int_parsing"
  | .intFromFloat => "int_from_float"
  | .floatType => "float_type"
  | .floatParsing => "float_parsing"
  | .finiteNumber => "finite_number"
  | .greaterThanEqual => "greater_than_equal"
  | .lessThanEqual => "less_than_equal"
  | .listType => "list_type"
  | .modelType => "model_type"
  | .modelAttributesType => "model_attributes_type"
  | .jsonInvalid => "json_invalid"

/-- One step towards a value: into a field, or to an item of a list. -/
inductive Issue.Step where
  | field (name : String)
  | index (n : Nat)
  deriving DecidableEq, Repr

/-- A value that does not fit, and where it stands. -/
structure Issue where
  kind : Issue.Kind
  location : List Issue.Step
  deriving DecidableEq, Repr

/-- A checked value, or every issue found. -/
abbrev Checked (α : Type) := Except (List Issue) α

namespace Checked

/-- Two checks side by side: the issues of the first stand before those of the second. -/
def both {α β : Type} (a : Checked α) (b : Checked β) : Checked (α × β) :=
  match a, b with
  | .ok x, .ok y => .ok (x, y)
  | .ok _, .error is => .error is
  | .error is, .ok _ => .error is
  | .error is, .error js => .error (is ++ js)

def issues {α : Type} : Checked α → List Issue
  | .ok _ => []
  | .error is => is

theorem both_eq_ok_iff {α β : Type} {a : Checked α} {b : Checked β} {p : α × β} :
    both a b = .ok p ↔ a = .ok p.1 ∧ b = .ok p.2 := by
  obtain ⟨x, y⟩ := p
  cases a <;> cases b <;> simp [both]

end Checked

namespace Issue

def Step.text : Step → String
  | .field name => name
  | .index n => toString n

/-- An issue as a text: where it is and what it is. -/
def text (issue : Issue) : String :=
  ".".intercalate (issue.location.map Step.text) ++ ": " ++ issue.kind.name

def inField (kind : Kind) (name : String) : List Issue :=
  [⟨kind, [.field name]⟩]

/-- A text as it is read. -/
def checkText (name : String) : Json → Checked RawText
  | .string s => .ok s
  | _ => .error (inField .stringType name)

/-- A text of which only characters are looked at. -/
def checkString (name : String) (value : Json) : Checked String :=
  (checkText name value).map RawText.shown

/-- A text, or nothing. -/
def checkString? (name : String) : Json → Checked (Option String)
  | .null => .ok none
  | .string s => .ok (some s.shown)
  | _ => .error (inField .stringType name)

def boolOfText? (s : String) : Option Bool :=
  let word := String.ofList (s.toList.map Char.toLower)
  if ["1", "on", "t", "true", "y", "yes"].contains word then some true
  else if ["0", "off", "f", "false", "n", "no"].contains word then some false
  else none

def boolOfInt? (n : Int) : Option Bool :=
  if n = 0 then some false else if n = 1 then some true else none

/-- A truth value, which a number or a text may write. -/
def checkBool (name : String) : Json → Checked Bool
  | .bool b => .ok b
  | .string s => (boolOfText? s.shown).elim (.error (inField .boolParsing name)) .ok
  | .int n => (boolOfInt? n).elim (.error (inField .boolParsing name)) .ok
  | .float x =>
    match Binary64.toInt? x with
    | some n => (boolOfInt? n).elim (.error (inField .boolParsing name)) .ok
    | none => .error (inField .boolType name)
  | _ => .error (inField .boolType name)

/-- An integer, which a truth value, a whole floating-point number or a text may write. -/
def checkInt (name : String) : Json → Checked Int
  | .int n => .ok n
  | .bool b => .ok (if b then 1 else 0)
  | .float x =>
    if !Binary64.isFinite x then .error (inField .finiteNumber name)
    else (Binary64.toInt? x).elim (.error (inField .intFromFloat name)) .ok
  | .string s => (Text.wholeNumber? s.shown).elim (.error (inField .intParsing name)) .ok
  | _ => .error (inField .intType name)

/-- A floating-point number, which a truth value, an integer or a text may write. -/
def checkFloat (name : String) : Json → Checked Float
  | .float x => .ok x
  | .int n => .ok (Binary64.ofInt n)
  | .bool b => .ok (if b then 1.0 else 0.0)
  | .string s => (Text.float? s.shown).elim (.error (inField .floatParsing name)) .ok
  | _ => .error (inField .floatType name)

/-- A field that has to be there, checked. -/
def required {α : Type} (fields : List (RawText × Json)) (name : String)
    (check : String → Json → Checked α) : Checked α :=
  match fields.lookup (.whole name) with
  | some value => check name value
  | none => .error (inField .missing name)

/-- A field that may be left out, checked. -/
def optional {α : Type} (fields : List (RawText × Json)) (name : String) (default : α)
    (check : String → Json → Checked α) : Checked α :=
  match fields.lookup (.whole name) with
  | some value => check name value
  | none => .ok default

/-- An integer within bounds; the lower bound is checked first. -/
def checkBounds (name : String) (least : Int) (greatest : Option Int) (n : Int) : Checked Int :=
  if n < least then .error (inField .greaterThanEqual name)
  else match greatest with
    | some g => if g < n then .error (inField .lessThanEqual name) else .ok n
    | none => .ok n

end Issue

end KeypadCalc

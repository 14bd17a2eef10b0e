import KeypadCalc.Decimal.Shortest
import KeypadCalc.Text.Number
import KeypadCalc.Text.Point

/-!
# KeypadCalc — JSON values

The values that settings, request bodies and remote answers hold and that responses are made of.
Integers of any size and floating-point numbers are told apart, and a text may be torn. The fields of
an object are a list without repeated names; writing a field again replaces its value. A value is
`plain` if JSON in bytes has a place for it: its texts are whole, and its numbers are finite and no
longer than a number may be written.
-/

namespace KeypadCalc

inductive Json where
  | null
  | bool (b : Bool)
  | int (n : Int)
  | float (x : Float)
  | string (s : RawText)
  | array (items : List Json)
  | object (fields : List (RawText × Json))
  deriving Inhabited

namespace Json

/-- An object with fields whose names are whole texts. -/
def ofFields (fields : List (String × Json)) : Json :=
  object (fields.map fun f => (f.1, f.2))

/-- The fields of an object with one of them set: in its old place where there is one of that name,
else at the end. -/
def setField (name : RawText) (value : Json) : List (RawText × Json) → List (RawText × Json)
  | [] => [(name, value)]
  | (n, v) :: rest =>
    if n = name then (name, value) :: rest else (n, v) :: setField name value rest

def field? : Json → String → Option Json
  | object fields, name => fields.lookup (.whole name)
  | _, _ => none

theorem lookup_setField_self (name : RawText) (value : Json) (fields : List (RawText × Json)) :
    (setField name value fields).lookup name = some value := by
  induction fields with
  | nil => simp [setField]
  | cons f rest ih =>
    obtain ⟨n, v⟩ := f
    by_cases h : n = name
    · simp [setField, h]
    · have h' : (name == n) = false := by simpa using fun h' => h h'.symm
      simp [setField, h, List.lookup_cons, h', ih]

/-! ## Values that can be written -/

mutual

/-- The texts of a value are whole, and its numbers are finite and not too long. -/
def isPlain : Json → Bool
  | null | bool _ => true
  | int n => n.natAbs < Nat.pow 10 Text.maxIntegerDigits
  | float x => Binary64.isFinite x
  | string s => s.isWhole
  | array items => arePlain items
  | object fields => arePlainFields fields

def arePlain : List Json → Bool
  | [] => true
  | item :: rest => isPlain item && arePlain rest

def arePlainFields : List (RawText × Json) → Bool
  | [] => true
  | (name, value) :: rest => name.isWhole && isPlain value && arePlainFields rest

end

/-- An object with whole names is plain if all of its values are. -/
theorem isPlain_ofFields (fields : List (String × Json)) :
    (ofFields fields).isPlain = fields.all fun f => f.2.isPlain := by
  rw [ofFields, isPlain]
  induction fields with
  | nil => rfl
  | cons f rest ih => simp [arePlainFields, ih]

/-! ## Values in messages -/

mutual

/-- How a message names a value: words for null and the truth values, numbers in full, texts in
quotes, the parts of lists and objects separated by commas. -/
def named : Json → List Char
  | null => "None".toList
  | bool b => if b then "True".toList else "False".toList
  | int n => (toString n).toList
  | float x => (Decimal.shortest x).toList
  | string s => s.quoted.toList
  | array items => '[' :: namedItems items ++ [']']
  | object fields => '\x7b' :: namedFields fields ++ ['\x7d']

/-- The items of a list, separated by commas. -/
def namedItems : List Json → List Char
  | [] => []
  | [item] => named item
  | item :: rest => named item ++ ',' :: ' ' :: namedItems rest

/-- The fields of an object, separated by commas. -/
def namedFields : List (RawText × Json) → List Char
  | [] => []
  | [(name, value)] => name.quoted.toList ++ ':' :: ' ' :: named value
  | (name, value) :: rest =>
    name.quoted.toList ++ ':' :: ' ' :: named value ++ ',' :: ' ' :: namedFields rest

end

def name (j : Json) : String :=
  String.ofList j.named

end Json

end KeypadCalc

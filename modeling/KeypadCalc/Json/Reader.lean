import KeypadCalc.Json.Basic
import KeypadCalc.Text.Hexadecimal
import KeypadCalc.Text.Number
import KeypadCalc.Text.Utf8

/-!
# KeypadCalc — reading JSON

The grammar of JSON, with three words added for the numbers that it cannot write: `NaN`,
`Infinity` and `-Infinity`. A number without a point and a power of ten is an integer of any size,
every other number is rounded to the nearest double. Of fields with the same name the last counts.
Two escapes in a row that make up a surrogate pair are one character; a surrogate alone stays one.

A reading takes code points from the front of a text and gives a value with what follows it. A fault
carries what was left of the text where it was met, from which its place is counted. How deep lists
and objects may be nested is up to the stack of the machine: `value` is structural in the levels
that it has room for, and the items of one list or object are a loop that takes at least one code
point each time.
-/

namespace KeypadCalc.Json

open Text (Point)

/-- Why a text is not read. -/
inductive ReadFault where
  /-- The text breaks the grammar at its part that starts here. -/
  | malformed (rest : List Point)
  /-- Lists and objects stand too deep in each other. -/
  | tooDeep
  deriving DecidableEq, Repr

/-- A value read from the front of a text, and what follows it. -/
abbrev Reading (α : Type) := Except ReadFault (α × List Point)

namespace Reader

/-- What may stand between the parts of a value. -/
def isSpace (p : Point) : Bool :=
  p == .char ' ' || p == .char '\t' || p == .char '\n' || p == .char '\r'

def skipSpace (ps : List Point) : List Point :=
  ps.dropWhile isSpace

/-- The points behind a word, if they start with it. -/
def behind? (word : String) (ps : List Point) : Option (List Point) :=
  let front := word.toList.map Point.char
  if front.isPrefixOf ps then some (ps.drop front.length) else none

/-! ## Texts -/

/-- A part of a text as it is written: a code point, or a code unit that an escape gives by its
number. -/
inductive Written where
  | point (p : Point)
  | unit (n : Nat)
  deriving DecidableEq, Repr

/-- The value of a hexadecimal digit. -/
def hexDigit? : Point → Option Nat
  | .char c => Text.hexDigit? c
  | .surrogate _ => none

/-- The number that four hexadecimal digits write. -/
def hexQuad? (a b c d : Point) : Option Nat := do
  return ((← hexDigit? a) * 16 + (← hexDigit? b)) * 256 + (← hexDigit? c) * 16 + (← hexDigit? d)

/-- The character that a backslash and one letter stand for. -/
def simpleEscape? : Point → Option Char
  | .char '"' => some '"'
  | .char '\\' => some '\\'
  | .char '/' => some '/'
  | .char 'b' => some '\x08'
  | .char 'f' => some '\x0c'
  | .char 'n' => some '\n'
  | .char 'r' => some '\r'
  | .char 't' => some '\t'
  | _ => none

/-- A character that a text may not hold as it is. -/
def isControl : Point → Bool
  | .char c => c.toNat < 0x20
  | .surrogate _ => false

/-- The parts of a text up to its closing quote. `start` is the text from its opening quote on, where
an unclosed text is at fault. -/
def parts (start : List Point) : List Point → Reading (List Written)
  | [] => .error (.malformed start)
  | .char '"' :: rest => .ok ([], rest)
  | .char '\\' :: .char 'u' :: a :: b :: c :: d :: rest =>
    match hexQuad? a b c d with
    | none => .error (.malformed (.char 'u' :: a :: b :: c :: d :: rest))
    | some n => (parts start rest).map fun r => (.unit n :: r.1, r.2)
  | .char '\\' :: .char 'u' :: rest => .error (.malformed (.char 'u' :: rest))
  | .char '\\' :: p :: rest =>
    match simpleEscape? p with
    | none => .error (.malformed (.char '\\' :: p :: rest))
    | some e => (parts start rest).map fun r => (.point (.char e) :: r.1, r.2)
  | p :: rest =>
    if p = .char '\\' then .error (.malformed start)
    else if isControl p then .error (.malformed (p :: rest))
    else (parts start rest).map fun r => (.point p :: r.1, r.2)

/-- The code points of a text, with a high and a low surrogate that escapes write in a row joined
into one character. -/
def join : List Written → List Point
  | [] => []
  | .unit h :: .unit l :: rest =>
    if 0xD800 ≤ h ∧ h < 0xDC00 ∧ 0xDC00 ≤ l ∧ l < 0xE000 then
      .char (Char.ofNat (0x10000 + (h - 0xD800) * 0x400 + (l - 0xDC00))) :: join rest
    else .ofNat h :: join (.unit l :: rest)
  | .unit n :: rest => .ofNat n :: join rest
  | .point p :: rest => p :: join rest

/-- A text, read from behind its opening quote. -/
def text (rest : List Point) : Reading RawText :=
  (parts (.char '"' :: rest) rest).map fun r => (.ofPoints (join r.1), r.2)

/-! ## Numbers and words -/

/-- The digits of numbers are those of ASCII alone. -/
def isDigit : Point → Bool
  | .char c => c.isDigit
  | .surrogate _ => false

/-- The digits in front of a text, and what follows them. -/
def digits (ps : List Point) : List Char × List Point :=
  ((ps.takeWhile isDigit).map Point.shown, ps.dropWhile isDigit)

/-- The whole part of a number: zero, or digits that do not start with zero. -/
def wholePart? : List Point → Option (List Char × List Point)
  | .char '0' :: rest => some (['0'], rest)
  | ps =>
    match digits ps with
    | ([], _) => none
    | found => some found

/-- The digits behind the point of a number; a point without a digit belongs to what follows. -/
def fractionPart : List Point → Option (List Char) × List Point
  | .char '.' :: rest =>
    match digits rest with
    | ([], _) => (none, .char '.' :: rest)
    | (ds, after) => (some ds, after)
  | ps => (none, ps)

/-- Whether a minus sign stands in front, and what follows a sign. -/
def signed : List Point → Bool × List Point
  | .char '-' :: rest => (true, rest)
  | .char '+' :: rest => (false, rest)
  | ps => (false, ps)

/-- The power of ten of a number; a mark without a digit belongs to what follows. -/
def exponentPart (ps : List Point) : Option Int × List Point :=
  match (behind? "e" ps).or (behind? "E" ps) with
  | none => (none, ps)
  | some rest =>
    let (negative, unsigned) := signed rest
    match digits unsigned with
    | ([], _) => (none, ps)
    | (ds, after) => (some (Text.applySign negative (Text.numberOfDigits ds)), after)

/-- A number behind its sign; `start` is where a missing digit is at fault. -/
def number (start : List Point) (negative : Bool) (ps : List Point) : Reading Json :=
  match wholePart? ps with
  | none => .error (.malformed start)
  | some (whole, rest) =>
    let (part?, rest) := fractionPart rest
    let (power?, rest) := exponentPart rest
    if part?.isNone && power?.isNone then
      if whole.length ≤ Text.maxIntegerDigits then
        .ok (.int (Text.applySign negative (Text.numberOfDigits whole)), rest)
      else .error (.malformed start)
    else
      let part := part?.getD []
      .ok (.float (Binary64.ofDecimal negative (Text.numberOfDigits (whole ++ part))
        (power?.getD 0 - part.length)), rest)

/-- The values that are written as a word; the last three are none in the grammar, and are read all
the same. -/
def words : List (String × Json) :=
  [("null", .null), ("true", .bool true), ("false", .bool false), ("NaN", .float Binary64.nan),
   ("Infinity", .float Binary64.infinity), ("-Infinity", .float (-Binary64.infinity))]

/-- A text, a word or a number. -/
def scalar (ps : List Point) : Reading Json :=
  match behind? "\"" ps with
  | some rest => (text rest).map fun r => (.string r.1, r.2)
  | none =>
    match words.findSome? fun word => (behind? word.1 ps).map (word.2, ·) with
    | some found => .ok found
    | none =>
      match behind? "-" ps with
      | some rest => number ps true rest
      | none => number ps false ps

/-! ## Lists and objects -/

/-- The items of a list, from the first one on up to the closing bracket. -/
def items (item : List Point → Reading Json) :
    (fuel : Nat) → List Point → Except ReadFault (List Json × List Point)
  | 0, ps => .error (.malformed ps)
  | fuel + 1, ps => do
    let (v, rest) ← item ps
    match skipSpace rest with
    | .char ']' :: after => .ok ([v], after)
    | .char ',' :: after =>
      let (vs, last) ← items item fuel (skipSpace after)
      .ok (v :: vs, last)
    | other => .error (.malformed other)

/-- One field of an object: its name, a colon and its value. -/
def fieldOf (item : List Point → Reading Json) :
    List Point → Except ReadFault ((RawText × Json) × List Point)
  | .char '"' :: rest => do
    let (name, rest) ← text rest
    match skipSpace rest with
    | .char ':' :: after =>
      let (v, last) ← item (skipSpace after)
      .ok ((name, v), last)
    | other => .error (.malformed other)
  | ps => .error (.malformed ps)

/-- The fields of an object behind those already read, up to the closing brace. -/
def fields (item : List Point → Reading Json) :
    (fuel : Nat) → List (RawText × Json) → List Point →
      Except ReadFault (List (RawText × Json) × List Point)
  | 0, _, ps => .error (.malformed ps)
  | fuel + 1, before, ps => do
    let ((name, v), rest) ← fieldOf item ps
    let now := setField name v before
    match skipSpace rest with
    | .char '\x7d' :: after => .ok (now, after)
    | .char ',' :: after => fields item fuel now (skipSpace after)
    | other => .error (.malformed other)

/-- The items of a list behind its opening. -/
def list (item : List Point → Reading Json) (ps : List Point) : Reading Json :=
  match skipSpace ps with
  | .char ']' :: rest => .ok (.array [], rest)
  | other => (items item other.length other).map fun r => (.array r.1, r.2)

/-- The fields of an object behind its opening. -/
def object (item : List Point → Reading Json) (ps : List Point) : Reading Json :=
  match skipSpace ps with
  | .char '\x7d' :: rest => .ok (.object [], rest)
  | other => (fields item other.length [] other).map fun r => (.object r.1, r.2)

/-- A value, with room for so many levels of lists and objects. -/
def value : (levels : Nat) → List Point → Reading Json
  | 0, .char '[' :: _ => .error .tooDeep
  | 0, .char '\x7b' :: _ => .error .tooDeep
  | levels + 1, .char '[' :: rest => list (value levels) rest
  | levels + 1, .char '\x7b' :: rest => object (value levels) rest
  | _, ps => scalar ps

end Reader

/-- The value that a text writes, with nothing but space around it. -/
def ofPoints (levels : Nat) (ps : List Point) : Except ReadFault Json := do
  let (v, rest) ← Reader.value levels (Reader.skipSpace ps)
  match Reader.skipSpace rest with
  | [] => .ok v
  | other => .error (.malformed other)

/-- The value that a text writes. -/
def ofText (levels : Nat) (text : String) : Except ReadFault Json :=
  ofPoints levels (text.toList.map .char)

end KeypadCalc.Json

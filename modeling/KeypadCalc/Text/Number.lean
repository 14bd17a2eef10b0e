import KeypadCalc.Binary64.Rounding
import KeypadCalc.Text.Blank
import KeypadCalc.Text.Digit

/-!
# KeypadCalc — numbers written as text

Settings, command-line arguments and remote answers may hold a number as text. Space around it, a
sign, and single underscores between digits are accepted everywhere. Three readings differ in the
rest: `float?` reads decimals with a point and a power of ten and the names of infinity and NaN,
`wholeNumber?` reads integers behind which a fraction of zero is allowed, and `argumentInt?` reads
integers alone, in the decimal digits of any script.
-/

namespace KeypadCalc.Text

def maxIntegerDigits : Nat := 4300

/-- A sign at the front of a text, and what follows it; no sign is a plus. -/
def signed : List Char → Bool × List Char
  | '-' :: rest => (true, rest)
  | '+' :: rest => (false, rest)
  | cs => (false, cs)

/-- The digits at the front of a text and what follows them; an underscore between two digits is
passed over. -/
def digitRun (digit : Char → Bool) : List Char → List Char × List Char
  | [] => ([], [])
  | [c] => if digit c then ([c], []) else ([], [c])
  | c :: d :: rest =>
    if digit c then
      if d = '_' then
        match digitRun digit rest with
        | ([], _) => ([c], d :: rest)
        | (ds, after) => (c :: ds, after)
      else
        let (ds, after) := digitRun digit (d :: rest)
        (c :: ds, after)
    else ([], c :: d :: rest)

def applySign (negative : Bool) (n : Nat) : Int :=
  if negative then -(n : Int) else n

/-- The power of ten at the end of a decimal: a mark, a sign and digits, or nothing at all. -/
def powerOfTen? : List Char → Option Int
  | [] => some 0
  | c :: rest =>
    if c = 'e' ∨ c = 'E' then
      let (negative, unsigned) := signed rest
      match digitRun Char.isDigit unsigned with
      | (d :: ds, []) => some (applySign negative (numberOfDigits (d :: ds)))
      | _ => none
    else none

/-- An unsigned decimal with digits before a point, behind it, or both. -/
def unsignedDecimal? (negative : Bool) (cs : List Char) : Option Float :=
  let (whole, rest) := digitRun Char.isDigit cs
  let (part, rest) := match rest with
    | '.' :: behind => digitRun Char.isDigit behind
    | _ => ([], rest)
  if whole.isEmpty && part.isEmpty then none
  else (powerOfTen? rest).map fun e =>
    Binary64.ofDecimal negative (numberOfDigits (whole ++ part)) (e - part.length)

def float? (s : String) : Option Float :=
  let (negative, cs) := signed (trimBy isWhiteSpace s.toList)
  let name := String.ofList (cs.map Char.toLower)
  if name = "inf" ∨ name = "infinity" then
    some (if negative then -Binary64.infinity else Binary64.infinity)
  else if name = "nan" then some Binary64.nan
  else unsignedDecimal? negative cs

/-- The integer that a text writes, also with a point and zeros behind it. -/
def wholeNumber? (s : String) : Option Int :=
  let (negative, cs) := signed (trimBy isWhiteSpace s.toList)
  match digitRun Char.isDigit cs with
  | ([], _) => none
  | (ds, rest) =>
    let zeroFraction := match rest with
      | [] => true
      | '.' :: zeros => zeros.all (· == '0')
      | _ => false
    if zeroFraction && ds.length ≤ maxIntegerDigits then
      some (applySign negative (numberOfDigits ds))
    else none

def argumentInt? (s : String) : Option Int :=
  let (negative, cs) := signed (trimChars s.toList)
  match digitRun isDigit cs with
  | ([], _) => none
  | (ds, rest) =>
    if rest.isEmpty && ds.length ≤ maxIntegerDigits then
      some (applySign negative (numberOfDigits ds))
    else none

example : wholeNumber? " +12.0 " = some 12 ∧ wholeNumber? "1.5" = none ∧
    argumentInt? "1_0" = some 10 ∧ argumentInt? "1__0" = none := by decide +kernel

end KeypadCalc.Text

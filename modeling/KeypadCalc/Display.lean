import KeypadCalc.Binary64.Basic
import KeypadCalc.Decimal.Text

/-!
# KeypadCalc — the text on the display

A finite result is shown as a plain decimal with at most ten digits after the point, without the
zeros at its end, and with no point where nothing follows it; a result that rounds to zero is shown
as `0`, whatever its sign. Where that text does not fit on the display the result is shown in
scientific form instead. An infinity and what is not a number cannot be shown.
-/

namespace KeypadCalc.Display

open Binary64 (Datum datum ratio)

/-- How numbers are displayed. -/
structure Style where
  /-- Digits after the point, at most in plain text and always in scientific form. -/
  places : Nat
  /-- Characters that the display holds in plain text. -/
  width : Nat
  /-- Digits of a power of ten, at least. -/
  exponentWidth : Nat
  deriving DecidableEq, Repr

/-- The display holds fifteen characters and shows ten places; powers of ten have two digits or
more. -/
def style : Style := ⟨10, 15, 2⟩

/-- The values that are not displayed. -/
inductive NonFinite where
  | nan
  | infinite (negative : Bool)
  deriving DecidableEq, Repr

/-- How a message names such a value. -/
def NonFinite.name : NonFinite → String
  | .nan => "nan"
  | .infinite false => "inf"
  | .infinite true => "-inf"

/-- Plain text without the sign: zeros at the end are dropped, and so is a point with nothing behind
it. -/
def plainBody (places m : Nat) (e : Int) : List Char :=
  let (whole, part) := Decimal.fixed places (ratio m e).1 (ratio m e).2
  match Decimal.dropFinalZeros part with
  | [] => whole
  | d :: ds => whole ++ '.' :: d :: ds

/-- A minus sign in front of digits, where one is due; zero has none. -/
def withSign (negative : Bool) (body : List Char) : List Char :=
  if negative && body != ['0'] then '-' :: body else body

def plain (negative : Bool) (m : Nat) (e : Int) : List Char :=
  withSign negative (plainBody style.places m e)

def scientific (negative : Bool) (m : Nat) (e : Int) : List Char :=
  withSign negative
    (Decimal.scientific style.places style.exponentWidth (ratio m e).1 (ratio m e).2)

/-- The text of a finite result: plain where it fits. -/
def finiteText (negative : Bool) (m : Nat) (e : Int) : List Char :=
  let short := plain negative m e
  if short.length ≤ style.width then short else scientific negative m e

/-- The text for a double, if it is finite. -/
def text (x : Float) : Except NonFinite String :=
  match datum x with
  | .nan => .error .nan
  | .infinite negative => .error (.infinite negative)
  | .finite negative m e => .ok (String.ofList (finiteText negative m e))

/-- A text is displayed for the finite doubles alone. -/
theorem text_eq_ok_iff {x : Float} {s : String} :
    text x = .ok s ↔ ∃ negative m e, datum x = .finite negative m e ∧
      s = String.ofList (finiteText negative m e) := by
  unfold text
  cases datum x with
  | nan => simp
  | infinite negative => simp
  | finite negative m e =>
    constructor
    · intro h
      exact ⟨negative, m, e, rfl, (Except.ok.inj h).symm⟩
    · rintro ⟨_, _, _, hd, rfl⟩
      cases hd
      rfl

end KeypadCalc.Display

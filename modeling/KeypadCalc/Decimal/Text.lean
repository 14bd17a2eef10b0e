import KeypadCalc.Decimal.Rounding

/-!
# KeypadCalc — fractions in decimal digits

Two exact renderings of a fraction `num / den` that is not negative. `fixed` writes a given number
of digits after the point; `scientific` writes one digit before the point, a given number after it
and a power of ten. Both round once, to the nearest value with that many digits, a tie to the even
last digit.
-/

namespace KeypadCalc.Decimal

/-- The decimal digits of a number; zero has one. -/
def digits (n : Nat) : List Char :=
  Nat.toDigits 10 n

/-- The decimal digits of a number, with zeros in front up to a width. -/
def digitsPadded (width n : Nat) : List Char :=
  let ds := digits n
  List.replicate (width - ds.length) '0' ++ ds

/-- The part before the point and the digits after it, of a fraction rounded to so many places. -/
def fixed (places num den : Nat) : List Char × List Char :=
  let scaled := roundDiv (num * Nat.pow 10 places) den
  (digits (scaled / Nat.pow 10 places), digitsPadded places (scaled % Nat.pow 10 places))

def dropFinalZeros (ds : List Char) : List Char :=
  (ds.reverse.dropWhile (· == '0')).reverse

/-- The number of decimal digits of a number, with none for zero. -/
def digitCount (n : Nat) : Nat :=
  if n = 0 then 0 else (digits n).length

/-- `⌊log₁₀ (num / den)⌋`, for a positive fraction. Below one it is `-k` for the least `k` with
`den ≤ num · 10 ^ k`. -/
def floorLog10 (num den : Nat) : Int :=
  if den ≤ num then (digitCount (num / den) : Int) - 1
  else -(digitCount ((den - 1) / num) : Int)

/-- The digits and the exponent of a fraction in scientific form with so many places: the fraction
is near `digits · 10 ^ (exponent - places)`, and there is one digit more than there are places.
Where rounding fills all digits with nines and carries, the exponent grows by one. -/
def significand (places num den : Nat) : Nat × Int :=
  if num = 0 then (0, 0)
  else
    let e := floorLog10 num den
    let shift := (places : Int) - e
    let n := roundDiv (num * Nat.pow 10 shift.toNat) (den * Nat.pow 10 (-shift).toNat)
    if n < Nat.pow 10 (places + 1) then (n, e) else (n / 10, e + 1)

/-- An exponent with its sign and with zeros in front up to a width. -/
def exponentText (width : Nat) (e : Int) : List Char :=
  'e' :: (if e < 0 then '-' else '+') :: digitsPadded width e.natAbs

def scientific (places exponentWidth num den : Nat) : List Char :=
  let (n, e) := significand places num den
  digits (n / Nat.pow 10 places) ++ '.' :: digitsPadded places (n % Nat.pow 10 places)
    ++ exponentText exponentWidth e

theorem digits_ne_nil (n : Nat) : digits n ≠ [] :=
  List.ne_nil_of_length_pos Nat.length_toDigits_pos

example : scientific 10 2 999999999999999 10 = "1.0000000000e+14".toList := by decide +kernel

end KeypadCalc.Decimal

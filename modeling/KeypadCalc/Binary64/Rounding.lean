import KeypadCalc.Binary64.Basic
import KeypadCalc.Decimal.Rounding

/-!
# KeypadCalc — the double nearest to a fraction

A positive fraction is placed on the grid of doubles of its size, `2 ^ e` apart with
`e = ⌊log₂⌋ - 52` but never below `2 ^ -1074`, and rounded there to the nearest point, a tie to the
even one. With `k = e + 1074`, the word of the point `m · 2 ^ e` is `k · 2 ^ 52 + m`: a mantissa
that rounds up to `2 ^ 53` moves into the exponent field by itself, and so does the smallest number
with a leading one bit. A word past the largest finite one is replaced by that of infinity.
-/

namespace KeypadCalc.Binary64

open Decimal (roundDiv)

/-- The word of positive infinity, without the sign bit the largest word of a number. -/
def infinityWord : Nat := 2047 * Nat.pow 2 52

/-- `⌊log₂ (num / den)⌋`, for a positive fraction. -/
def floorLog2 (num den : Nat) : Int :=
  let k : Int := (num.log2 : Int) - den.log2
  if num * Nat.pow 2 (-k).toNat < den * Nat.pow 2 k.toNat then k - 1 else k

/-- The exponent of the grid on which a positive fraction is rounded. -/
def gridExponent (num den : Nat) : Int :=
  max (floorLog2 num den - 52) minExponent

def wordOfRatio (num den : Nat) : Nat :=
  if num = 0 then 0
  else
    let e := gridExponent num den
    let m := roundDiv (num * Nat.pow 2 (-e).toNat) (den * Nat.pow 2 e.toNat)
    min ((e - minExponent).toNat * Nat.pow 2 52 + m) infinityWord

def ofRatio (negative : Bool) (num den : Nat) : Float :=
  let w := wordOfRatio num den
  Float.ofBits (UInt64.ofNat (if negative then Nat.pow 2 63 + w else w))

/-- The double nearest to `mantissa · 10 ^ exponent` under a sign. Beyond `10 ^ 310` every number
is infinite, and below `10 ^ -330` every number is zero, so no power of ten far outside the range is
ever computed. -/
def ofDecimal (negative : Bool) (mantissa : Nat) (exponent : Int) : Float :=
  if mantissa = 0 then ofRatio negative 0 1
  else if 310 < exponent then ofRatio negative (Nat.pow 2 1024) 1
  else if exponent + mantissa.log2 < -1100 then ofRatio negative 0 1
  else ofRatio negative (mantissa * Nat.pow 10 exponent.toNat) (Nat.pow 10 (-exponent).toNat)

def ofInt (n : Int) : Float :=
  ofRatio (n < 0) n.natAbs 1

example : (ofRatio false 1 10).toBits = 0x3FB999999999999A := by decide +kernel

end KeypadCalc.Binary64

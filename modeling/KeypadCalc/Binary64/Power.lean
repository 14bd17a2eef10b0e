import KeypadCalc.Binary64.Basic

/-!
# KeypadCalc — powers of doubles

`pow` is the power of the floating-point standard: the special operands are decided clause by
clause, and the power of a finite positive base by a finite exponent that is not zero is the one
primitive, taken from the C library. `checkedPow` refuses what has no finite result though its
operands are finite: an overflow, and the two undefined cases (a zero base under a negative
exponent, a negative base under an exponent that is not whole). `power`, which the evaluator uses,
puts an infinity or a NaN in the place of what was refused.
-/

namespace KeypadCalc.Binary64

/-- The power of a finite positive base by a finite exponent other than zero. -/
def positivePow (x y : Float) : Float :=
  Float.pow x y

/-- The power by an infinite exponent: it depends on how the base compares with one in size. -/
def powInfinite (x y : Float) : Float :=
  if x.abs == 1.0 then 1.0
  else if (1.0 < x.abs) == (0.0 < y) then infinity
  else 0.0

/-- A magnitude under the sign that an odd whole exponent takes over from the base. -/
def withSignOf (x y magnitude : Float) : Float :=
  if isNegative x && isOdd y then -magnitude else magnitude

/-- The power `x ^ y` of the floating-point standard. -/
def pow (x y : Float) : Float :=
  if y == 0.0 || x == 1.0 then 1.0
  else if x.isNaN || y.isNaN then nan
  else if y.isInf then powInfinite x y
  else if x.isInf then withSignOf x y (if 0.0 < y then infinity else 0.0)
  else if x == 0.0 then withSignOf x y (if 0.0 < y then 0.0 else infinity)
  else if x < 0.0 && (toInt? y).isNone then nan
  else withSignOf x y (positivePow x.abs y)

inductive PowFault where
  | overflow
  | domain
  deriving DecidableEq, Repr

/-- The power, with what is neither finite nor owed to a special operand refused: an undefined
power and a zero base under a negative exponent as outside the domain, any other infinity as an
overflow. -/
def checkedPow (x y : Float) : Except PowFault Float :=
  let r := pow x y
  if isFinite x && isFinite y then
    if r.isNaN then .error .domain
    else if r.isInf then .error (if x == 0.0 then .domain else .overflow)
    else .ok r
  else .ok r

/-- The power that the evaluator computes. An overflow is infinite and negative exactly for a
negative base under an odd exponent; a zero base under a negative exponent gives positive infinity;
any other undefined power is not a number. -/
def power (base exponent : Float) : Float :=
  match checkedPow base exponent with
  | .ok r => r
  | .error .overflow => if base < 0.0 && isOdd exponent then -infinity else infinity
  | .error .domain => if base == 0.0 then infinity else nan

/-- The square root, not a number for an operand below zero. -/
def squareRoot (x : Float) : Float :=
  if x < 0.0 || x.isNaN then nan else x.sqrt

end KeypadCalc.Binary64

/-!
# KeypadCalc — doubles as exact numbers

A double is read off its 64-bit word: a sign bit, an eleven-bit exponent field and a fraction of 52
bits. `datum` gives what the word stands for, an infinity, not a number, or `± m · 2 ^ e` with `m`
a natural number; the display, the exact integer results and the parity of exponents all work on
that reading, in exact arithmetic.

Powers of natural numbers are written `Nat.pow`, which means the same whatever other powers are in
scope.
-/

namespace KeypadCalc.Binary64

/-- What a double stands for; a finite one is `mantissa · 2 ^ exponent` under its sign. -/
inductive Datum where
  | nan
  | infinite (negative : Bool)
  | finite (negative : Bool) (mantissa : Nat) (exponent : Int)
  deriving DecidableEq

/-- The exponent of the doubles closest to zero, counted for a whole mantissa. -/
def minExponent : Int := -1074

/-- The reading of a 64-bit word: exponent field `2047` is kept for infinities (fraction zero) and
for what is not a number, and field `0` for the numbers without a leading one bit. -/
def Datum.ofWord (w : Nat) : Datum :=
  let negative := w / Nat.pow 2 63 == 1
  let field : Nat := w / Nat.pow 2 52 % Nat.pow 2 11
  let fraction : Nat := w % Nat.pow 2 52
  if field = 2047 then (if fraction = 0 then .infinite negative else .nan)
  else if field = 0 then .finite negative fraction minExponent
  else .finite negative (Nat.pow 2 52 + fraction) (minExponent + field - 1)

def datum (x : Float) : Datum :=
  .ofWord x.toBits.toNat

/-- `m · 2 ^ e` as a natural number, where it is one. -/
def scaled? (m : Nat) : Int → Option Nat
  | .ofNat k => some (m * Nat.pow 2 k)
  | .negSucc k => if m % Nat.pow 2 (k + 1) = 0 then some (m / Nat.pow 2 (k + 1)) else none

/-- The numerator and the denominator of `m · 2 ^ e`. -/
def ratio (m : Nat) (e : Int) : Nat × Nat :=
  (m * Nat.pow 2 e.toNat, Nat.pow 2 (-e).toNat)

/-- The integer that a double is, where it is whole. -/
def toInt? (x : Float) : Option Int :=
  match datum x with
  | .finite negative m e => (scaled? m e).map fun n => if negative then -(n : Int) else n
  | _ => none

/-- Whether the sign bit is set; it is on `-0.0` too. -/
def isNegative (x : Float) : Bool :=
  x.toBits.toNat / Nat.pow 2 63 == 1

def isFinite (x : Float) : Bool :=
  match datum x with
  | .finite .. => true
  | _ => false

def isOdd (x : Float) : Bool :=
  match toInt? x with
  | some n => n % 2 == 1
  | none => false

def infinity : Float := Float.ofBits 0x7FF0000000000000

def nan : Float := Float.ofBits 0x7FF8000000000000

theorem ratio_snd_pos (m : Nat) (e : Int) : 0 < (ratio m e).2 :=
  Nat.two_pow_pos _

theorem isFinite_of_toInt? {x : Float} {n : Int} (h : toInt? x = some n) : isFinite x = true := by
  unfold toInt? at h
  unfold isFinite
  split at h <;> simp_all

end KeypadCalc.Binary64

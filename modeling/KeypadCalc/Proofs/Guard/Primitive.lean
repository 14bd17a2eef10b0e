import KeypadCalc.Proofs.Binary64.Word
import KeypadCalc.Proofs.Decimal.Digits
import KeypadCalc.Text.Number

/-!
# KeypadCalc — operations that are not defined everywhere

The calculator works with operations that fail where they are not defined: an index behind the end
of a list, a text that is no numeral, a division by zero, a power or a root outside its domain, the
integer of what is not finite, the digits of an integer that is too large to be written. A `Trap` is
such a failure. Each operation is used behind a guard or under a handler, and so used it is what the
calculator computes: a power (`power_eq`), a root (`squareRoot_eq`), the integer of a whole double
(`truncate_of_toInt?`) and its digits (`integerText_of_toInt?`).
-/

namespace KeypadCalc.Guard

open Binary64 (Datum checkedPow datum isOdd ratio toInt?)

/-- How an operation fails where it is not defined. -/
inductive Trap where
  | noSuchIndex
  | invalidValue
  | zeroDivision
  | overflow
  /-- A call finds no place on the stack of the machine. -/
  | tooManyCalls
  /-- A loop goes on for more rounds than there are tokens. -/
  | endless
  deriving DecidableEq, Repr

/-- How a guarded computation ends without a result: with an error that it declares, or in a
trap. -/
inductive Stop (ε : Type) where
  | declared (error : ε)
  | trapped (trap : Trap)

/-- A computation that declares its errors, and is not yet known to keep out of traps. -/
abbrev Guarded (ε α : Type) := Except (Stop ε) α

variable {ε α : Type}

/-- The outcome of an operation, for a computation that has no handler for it. -/
def unhandled (x : Except Trap α) : Guarded ε α :=
  x.mapError .trapped

/-- An outcome that is free of traps. -/
def declaring (x : Except ε α) : Guarded ε α :=
  x.mapError .declared

/-! ## The operations -/

def at? (xs : List α) (i : Nat) : Except Trap α :=
  match xs[i]? with
  | some x => .ok x
  | none => .error .noSuchIndex

/-- A division, which zero of either sign does not allow. -/
def divide (x y : Float) : Except Trap Float :=
  if y == 0.0 then .error .zeroDivision else .ok (x / y)

/-- A power, which may overflow or be undefined. -/
def pow (base exponent : Float) : Except Trap Float :=
  match checkedPow base exponent with
  | .ok r => .ok r
  | .error .overflow => .error .overflow
  | .error .domain => .error .invalidValue

/-- A square root, which a negative operand does not have. -/
def sqrt (x : Float) : Except Trap Float :=
  if x < 0.0 then .error .invalidValue else .ok x.sqrt

/-- The integer that is left of a number without its fraction, which only finite numbers have. -/
def truncate (x : Float) : Except Trap Int :=
  match datum x with
  | .nan => .error .invalidValue
  | .infinite _ => .error .overflow
  | .finite negative m e => .ok (Text.applySign negative ((ratio m e).1 / (ratio m e).2))

/-- The text of an integer, which must not have too many digits. -/
def integerText (n : Int) : Except Trap (List Char) :=
  if (Decimal.digits n.natAbs).length ≤ Text.maxIntegerDigits then
    .ok (if n < 0 then '-' :: Decimal.digits n.natAbs else Decimal.digits n.natAbs)
  else .error .invalidValue

/-- A number up to a power of ten has one digit more than that has zeros, at most. -/
theorem length_digits_le {k width : Nat} (h : (k : ℚ) ≤ 10 ^ width) :
    (Decimal.digits k).length ≤ width + 1 := by
  have hle : k ≤ 10 ^ width := by exact_mod_cast h
  have hlt : k < 10 ^ (width + 1) := hle.trans_lt (Nat.pow_lt_pow_right (by decide) (by omega))
  exact (Decimal.length_digits_le_iff (Nat.succ_pos width)).2 hlt

/-! ## The operations behind their guards -/

/-- The power with its failures handled. -/
def power (base exponent : Float) : Except Trap Float :=
  tryCatch (pow base exponent) fun
    | .overflow =>
      .ok (if base < 0.0 && isOdd exponent then -Binary64.infinity else Binary64.infinity)
    | .invalidValue => .ok (if base == 0.0 then Binary64.infinity else Binary64.nan)
    | trap => .error trap

/-- The square root of what is not negative. -/
def squareRoot (x : Float) : Except Trap Float :=
  if x < 0.0 || x.isNaN then .ok Binary64.nan else sqrt x

/-- The handlers of a power cover its failures. -/
theorem power_eq (base exponent : Float) :
    power base exponent = .ok (Binary64.power base exponent) := by
  unfold power pow Binary64.power
  cases checkedPow base exponent with
  | ok r => rfl
  | error fault => cases fault <;> rfl

/-- No root is taken of a negative number. -/
theorem squareRoot_eq (x : Float) : squareRoot x = .ok (Binary64.squareRoot x) := by
  unfold squareRoot Binary64.squareRoot
  split
  · rfl
  · next hguard =>
    have hnonneg : ¬ x < 0.0 := by
      intro hneg
      exact hguard (by rw [decide_eq_true hneg, Bool.true_or])
    rw [sqrt, if_neg hnonneg]

/-- The guard in front of the integer of a double: it is finite, and a whole number. -/
def isWhole (x : Float) : Bool :=
  match datum x with
  | .finite _ m e => (ratio m e).1 % (ratio m e).2 == 0
  | _ => false

theorem isWhole_iff {x : Float} : isWhole x = true ↔ ∃ n, toInt? x = some n := by
  cases hx : datum x with
  | nan => simp [isWhole, toInt?, hx]
  | infinite negative => simp [isWhole, toInt?, hx]
  | finite negative m e =>
    -- the guard tests the remainder of the ratio that the double is
    have hguard : isWhole x = ((ratio m e).1 % (ratio m e).2 == 0) := by
      unfold isWhole
      rw [hx]
    rw [hguard, beq_iff_eq]
    constructor
    · intro hdvd
      refine ⟨_, (Binary64.toInt?_of_datum hx).2 ⟨(ratio m e).1 / (ratio m e).2, ?_, rfl⟩⟩
      rw [Binary64.scaled?_eq_some_iff_ratio, Nat.div_mul_cancel (Nat.dvd_of_mod_eq_zero hdvd)]
    · rintro ⟨n, hn⟩
      obtain ⟨k, hk, -⟩ := (Binary64.toInt?_of_datum hx).1 hn
      rw [Binary64.scaled?_eq_some_iff_ratio.1 hk, Nat.mul_mod_left]

/-- The integer of a whole double is the double itself. -/
theorem truncate_of_toInt? {x : Float} {n : Int} (h : toInt? x = some n) :
    truncate x = .ok n := by
  unfold truncate
  cases hx : datum x with
  | nan => simp [toInt?, hx] at h
  | infinite negative => simp [toInt?, hx] at h
  | finite negative m e =>
    obtain ⟨k, hk, rfl⟩ := (Binary64.toInt?_of_datum hx).1 h
    simp only
    rw [Binary64.scaled?_eq_some_iff_ratio.1 hk, Nat.mul_div_cancel _ (Binary64.ratio_snd_pos m e)]
    rfl

/-- The integer of a double can be written: it has three hundred and some digits at most. -/
theorem integerText_of_toInt? {x : Float} {n : Int} (h : toInt? x = some n) :
    integerText n =
      .ok (if n < 0 then '-' :: Decimal.digits n.natAbs else Decimal.digits n.natAbs) := by
  refine if_pos ?_
  have hfits := Binary64.fits_datum x
  cases hx : datum x with
  | nan => simp [toInt?, hx] at h
  | infinite negative => simp [toInt?, hx] at h
  | finite negative m e =>
    rw [hx] at hfits
    obtain ⟨k, hk, rfl⟩ := (Binary64.toInt?_of_datum hx).1 h
    have hle := Binary64.magnitude_le_ten_pow hfits
    rw [Binary64.scaled?_eq_some_iff.1 hk] at hle
    -- the greatest double has some three hundred digits, far fewer than the limit
    have hlen : (Decimal.digits k).length ≤ 39 * 8 + 1 := length_digits_le hle
    have habs : (if negative then -(k : ℤ) else k).natAbs = k := by
      split <;> omega
    rw [habs]
    exact hlen.trans (by decide)

end KeypadCalc.Guard

import KeypadCalc.Calculator
import Mathlib.Algebra.Order.Field.Power
import Mathlib.Algebra.Order.Ring.Rat
import Mathlib.Tactic.FieldSimp
import Mathlib.Tactic.Linarith
import Mathlib.Tactic.Ring

/-!
# KeypadCalc — the number that a double is

A finite double is a rational number, `± m · 2 ^ e`. The parts that the program works with are
exact: the numerator and the denominator of the magnitude (`ratio_eq`), and the integer that a whole
double becomes (`toInt?_eq_some_iff`).
-/

namespace KeypadCalc.Binary64

/-- A magnitude under a sign. -/
def signed (negative : Bool) (a : ℚ) : ℚ :=
  if negative then -a else a

@[simp] theorem signed_true (a : ℚ) : signed true a = -a := rfl

@[simp] theorem signed_false (a : ℚ) : signed false a = a := rfl

theorem signed_zero (negative : Bool) : signed negative 0 = 0 := by
  cases negative <;> simp

/-- Magnitudes under one sign are on one side of zero. -/
theorem signed_mul_signed (negative : Bool) (a b : ℚ) :
    signed negative a * signed negative b = a * b := by
  cases negative <;> simp

theorem abs_signed (negative : Bool) (a : ℚ) : |signed negative a| = |a| := by
  cases negative <;> simp

/-- Magnitudes under one sign are as far apart as they are without it. -/
theorem abs_signed_sub (negative : Bool) (a b : ℚ) :
    |signed negative a - signed negative b| = |a - b| := by
  cases negative with
  | false => rfl
  | true => rw [signed_true, signed_true, neg_sub_neg, abs_sub_comm]

/-- What a word stands for as a number, where it is one. -/
def Datum.value? : Datum → Option ℚ
  | .finite negative m e => some (signed negative (m * 2 ^ e))
  | _ => none

/-- The number that a double is, where it is finite. -/
def value? (x : Float) : Option ℚ :=
  (datum x).value?

theorem value?_eq_some_iff {x : Float} {v : ℚ} :
    value? x = some v ↔ ∃ negative m e, datum x = .finite negative m e ∧
      signed negative ((m : ℚ) * 2 ^ e) = v := by
  unfold value?
  cases datum x with
  | nan => simp [Datum.value?]
  | infinite negative => simp [Datum.value?]
  | finite negative m e => simp [Datum.value?]

theorem value?_of_datum {x : Float} {negative : Bool} {m : Nat} {e : Int}
    (h : datum x = .finite negative m e) : value? x = some (signed negative (m * 2 ^ e)) :=
  value?_eq_some_iff.2 ⟨negative, m, e, h, rfl⟩

/-! ## Exact parts -/

theorem two_zpow (e : Int) : (2 : ℚ) ^ e = 2 ^ e.toNat / 2 ^ (-e).toNat := by
  rw [eq_div_iff (by positivity), ← zpow_natCast, ← zpow_natCast, ← zpow_add₀ (by norm_num)]
  congr 1
  omega

theorem ratio_fst_pos {m : Nat} (hm : 0 < m) (e : Int) : 0 < (ratio m e).1 :=
  Nat.mul_pos hm (Nat.two_pow_pos _)

/-- A magnitude is the quotient of its numerator and its denominator. -/
theorem ratio_eq (m : Nat) (e : Int) :
    ((ratio m e).1 : ℚ) / (ratio m e).2 = m * 2 ^ e := by
  rw [two_zpow, ratio]
  simp only [Nat.pow_eq, Nat.cast_mul, Nat.cast_pow, Nat.cast_ofNat]
  ring

/-- A magnitude is a whole number exactly where dividing by the power of two leaves nothing over. -/
theorem scaled?_eq_some_iff {m n : Nat} {e : Int} :
    scaled? m e = some n ↔ (m : ℚ) * 2 ^ e = n := by
  cases e with
  | ofNat k =>
    rw [scaled?, Option.some.injEq, Int.ofNat_eq_natCast, zpow_natCast, Nat.pow_eq]
    norm_cast
  | negSucc k =>
    have hpos : (0 : ℚ) < 2 ^ (k + 1) := by positivity
    rw [scaled?, zpow_negSucc, Nat.pow_eq, ← div_eq_mul_inv, div_eq_iff hpos.ne']
    norm_cast
    have hsplit := Nat.div_add_mod m (2 ^ (k + 1))
    have hlt := Nat.mod_lt m (Nat.two_pow_pos (k + 1))
    split
    · next hdvd =>
      -- the division leaves nothing
      rw [Option.some.injEq]
      constructor
      · intro hn
        rw [← hn, Nat.div_mul_cancel (Nat.dvd_of_mod_eq_zero hdvd)]
      · intro hm
        rw [hm, Nat.mul_div_cancel _ (Nat.two_pow_pos _)]
    · next hrest =>
      constructor
      · intro h
        cases h
      · intro hm
        exact absurd (by rw [hm, Nat.mul_mod_left]) hrest

/-- A magnitude is a whole number where its denominator divides its numerator. -/
theorem scaled?_eq_some_iff_ratio {m n : Nat} {e : Int} :
    scaled? m e = some n ↔ (ratio m e).1 = n * (ratio m e).2 := by
  have hden : ((ratio m e).2 : ℚ) ≠ 0 := by exact_mod_cast (ratio_snd_pos m e).ne'
  rw [scaled?_eq_some_iff, ← ratio_eq, div_eq_iff hden]
  exact_mod_cast Iff.rfl

/-- The integer of a finite double is its magnitude under its sign, where that is whole. -/
theorem toInt?_of_datum {x : Float} {negative : Bool} {m : Nat} {e : Int}
    (h : datum x = .finite negative m e) {n : Int} :
    toInt? x = some n ↔ ∃ k, scaled? m e = some k ∧ (if negative then -(k : Int) else k) = n := by
  unfold toInt?
  rw [h]
  cases hk : scaled? m e with
  | none => simp [hk]
  | some k => simp [hk]

/-- A double becomes an integer exactly if it is that integer. -/
theorem toInt?_eq_some_iff {x : Float} {n : Int} : toInt? x = some n ↔ value? x = some (n : ℚ) := by
  cases hx : datum x with
  | nan => simp [toInt?, value?, hx, Datum.value?]
  | infinite negative => simp [toInt?, value?, hx, Datum.value?]
  | finite negative m e =>
    have hnonneg : (0 : ℚ) ≤ m * 2 ^ e := by positivity
    rw [toInt?_of_datum hx, value?_of_datum hx, Option.some.injEq]
    simp only [scaled?_eq_some_iff]
    constructor
    · rintro ⟨k, hk, rfl⟩
      cases negative with
      | true => simp [hk]
      | false => simp [hk]
    · intro hvalue
      -- the magnitude is the integer without its sign
      have habs : (n.natAbs : ℚ) = |(n : ℚ)| := by
        rw [← Int.cast_abs, Int.abs_eq_natAbs, Int.cast_natCast]
      refine ⟨n.natAbs, ?_, ?_⟩
      · rw [habs, ← hvalue]
        cases negative with
        | true => rw [signed_true, abs_neg, abs_of_nonneg hnonneg]
        | false => rw [signed_false, abs_of_nonneg hnonneg]
      · cases negative with
        | true =>
          have hn : (n : ℚ) ≤ 0 := by
            rw [← hvalue, signed_true]
            linarith
          have hn : n ≤ 0 := by exact_mod_cast hn
          rw [if_pos rfl]
          omega
        | false =>
          have hn : (0 : ℚ) ≤ n := by
            rw [← hvalue, signed_false]
            exact hnonneg
          have hn : 0 ≤ n := by exact_mod_cast hn
          rw [if_neg (by decide)]
          omega

end KeypadCalc.Binary64

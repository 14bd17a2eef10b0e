import KeypadCalc.Decimal.Rounding
import Mathlib.Algebra.Order.Round
import Mathlib.Algebra.Order.Ring.Rat
import Mathlib.Data.Rat.Floor
import Mathlib.Tactic.FieldSimp
import Mathlib.Tactic.Linarith
import Mathlib.Tactic.Ring

/-!
# KeypadCalc — the nearest multiple

`Nearest unit x k` says that of all multiples of a unit the `k`-th is nearest to `x`, and that it is
an even one if another is as near. That is so exactly if it is at most half a unit away, and even
where it is half a unit away (`nearest_iff`); there is at most one such multiple (`Nearest.unique`).
Rounding a quotient gives it (`nearest_roundDiv`).
-/

namespace KeypadCalc.Decimal

/-- The `k`-th multiple of a unit is nearest to `x`, and a tie goes to the even one. -/
structure Nearest (unit x : ℚ) (k : ℤ) : Prop where
  le : ∀ j : ℤ, |k * unit - x| ≤ |j * unit - x|
  even : ∀ j : ℤ, j ≠ k → |j * unit - x| = |k * unit - x| → Even k

variable {unit x : ℚ} {k : ℤ}

/-- Two multiples of a unit are at least a unit apart. -/
theorem unit_le_abs_sub (hunit : 0 < unit) {j k : ℤ} (h : j ≠ k) :
    unit ≤ |j * unit - x| + |k * unit - x| := by
  have hone : (1 : ℚ) ≤ |(j : ℚ) - k| := by
    have hint : (1 : ℤ) ≤ |j - k| := Int.one_le_abs (sub_ne_zero.2 h)
    exact_mod_cast hint
  have hdist : |(j : ℚ) - k| * unit = |(j * unit - x) - (k * unit - x)| := by
    rw [← abs_of_pos hunit, ← abs_mul, abs_of_pos hunit]
    congr 1
    ring
  calc unit = 1 * unit := (one_mul unit).symm
    _ ≤ |(j : ℚ) - k| * unit := mul_le_mul_of_nonneg_right hone hunit.le
    _ = |(j * unit - x) - (k * unit - x)| := hdist
    _ ≤ |j * unit - x| + |k * unit - x| := abs_sub _ _

/-- Nearest is what is at most half a unit away, and even where it is half a unit away. -/
theorem nearest_iff (hunit : 0 < unit) :
    Nearest unit x k ↔ |k * unit - x| ≤ unit / 2 ∧ (|k * unit - x| = unit / 2 → Even k) := by
  constructor
  · intro h
    constructor
    · -- some multiple is at most half a unit away
      have hround : |x / unit - round (x / unit)| ≤ 1 / 2 := abs_sub_round (x / unit)
      have hscale : |(round (x / unit) : ℚ) * unit - x| = |x / unit - round (x / unit)| * unit := by
        rw [← abs_of_pos hunit, ← abs_mul, abs_of_pos hunit, abs_sub_comm]
        congr 1
        field_simp
      calc |k * unit - x| ≤ |(round (x / unit) : ℚ) * unit - x| := h.le _
        _ = |x / unit - round (x / unit)| * unit := hscale
        _ ≤ 1 / 2 * unit := mul_le_mul_of_nonneg_right hround hunit.le
        _ = unit / 2 := by ring
    · -- at half a unit the neighbour on the other side of `x` is as near
      intro htie
      rcases abs_cases ((k : ℚ) * unit - x) with ⟨habs, -⟩ | ⟨habs, -⟩
      · refine h.even (k - 1) (by omega) ?_
        have hside : ((k - 1 : ℤ) : ℚ) * unit - x = -(unit / 2) := by
          push_cast
          linarith
        rw [hside, htie, abs_neg, abs_of_pos (half_pos hunit)]
      · refine h.even (k + 1) (by omega) ?_
        have hside : ((k + 1 : ℤ) : ℚ) * unit - x = unit / 2 := by
          push_cast
          linarith
        rw [hside, htie, abs_of_pos (half_pos hunit)]
  · rintro ⟨hhalf, heven⟩
    have hother : ∀ j : ℤ, j ≠ k → unit / 2 ≤ |j * unit - x| := by
      intro j hj
      have hapart := unit_le_abs_sub (x := x) hunit hj
      linarith
    refine ⟨fun j => ?_, fun j hj htie => heven ?_⟩
    · by_cases hj : j = k
      · rw [hj]
      · exact hhalf.trans (hother j hj)
    · have hj := hother j hj
      linarith

theorem Nearest.unique (hunit : 0 < unit) {j : ℤ} (hj : Nearest unit x j)
    (hk : Nearest unit x k) : j = k := by
  by_contra hne
  -- both are as near, so both are even, and even multiples are two units apart
  have hsame : |k * unit - x| = |j * unit - x| := le_antisymm (hk.le j) (hj.le k)
  obtain ⟨a, ha⟩ := hj.even k (Ne.symm hne) hsame
  obtain ⟨b, hb⟩ := hk.even j hne hsame.symm
  have hapart : unit * 2 ≤ |j * unit - x| + |k * unit - x| := by
    have hab : a ≠ b := by omega
    have htwo : 0 < unit * 2 := by linarith
    have h := unit_le_abs_sub (x := x) htwo hab
    have hja : (j : ℚ) * unit = a * (unit * 2) := by
      rw [ha]
      push_cast
      ring
    have hkb : (k : ℚ) * unit = b * (unit * 2) := by
      rw [hb]
      push_cast
      ring
    rwa [← hja, ← hkb] at h
  have hhalfj := ((nearest_iff hunit).1 hj).1
  have hhalfk := ((nearest_iff hunit).1 hk).1
  linarith

/-- The multiple nearest to a number is nearest to every number that is no further from it. -/
theorem Nearest.of_abs_sub_le (hunit : 0 < unit) {y : ℚ} (h : Nearest unit x k)
    (hy : |y - k * unit| ≤ |x - k * unit|) : Nearest unit y k := by
  obtain ⟨hhalf, heven⟩ := (nearest_iff hunit).1 h
  rw [abs_sub_comm y, abs_sub_comm x] at hy
  refine (nearest_iff hunit).2 ⟨hy.trans hhalf, fun htie => heven ?_⟩
  linarith

/-- The multiple nearest to a number is not above the multiples that bound it from above. -/
theorem Nearest.le_of_le_mul (hunit : 0 < unit) (h : Nearest unit x k) {n : ℤ}
    (hx : x ≤ n * unit) : k ≤ n := by
  obtain ⟨-, hright⟩ := abs_le.1 ((nearest_iff hunit).1 h).1
  have hlt : (k : ℚ) * unit < (n + 1) * unit := by linarith
  have hlt : (k : ℚ) < n + 1 := lt_of_mul_lt_mul_right hlt hunit.le
  have hlt : k < n + 1 := by exact_mod_cast hlt
  omega

/-- The multiple nearest to a number is not below the multiples that bound it from below. -/
theorem Nearest.le_of_mul_le (hunit : 0 < unit) (h : Nearest unit x k) {n : ℤ}
    (hx : n * unit ≤ x) : n ≤ k := by
  obtain ⟨hleft, -⟩ := abs_le.1 ((nearest_iff hunit).1 h).1
  have hlt : (n : ℚ) * unit < (k + 1) * unit := by linarith
  have hlt : (n : ℚ) < k + 1 := lt_of_mul_lt_mul_right hlt hunit.le
  have hlt : n < k + 1 := by exact_mod_cast hlt
  omega

/-- A nearest multiple that is one of a coarser unit too is nearest among those, with no tie. -/
theorem Nearest.coarser (hunit : 0 < unit) {d : ℤ} (hd : 1 < d) (h : Nearest unit x (k * d)) :
    Nearest (unit * d) x k := by
  have hdq : (1 : ℚ) < d := by exact_mod_cast hd
  have hwide : unit < unit * d := lt_mul_of_one_lt_right hunit hdq
  have hhalf := ((nearest_iff hunit).1 h).1
  have hsame : ((k * d : ℤ) : ℚ) * unit = k * (unit * d) := by
    push_cast
    ring
  rw [hsame] at hhalf
  refine (nearest_iff (hunit.trans hwide)).2 ⟨?_, fun htie => ?_⟩
  · linarith
  · linarith

theorem Nearest.neg (h : Nearest unit x k) : Nearest unit (-x) (-k) := by
  have hflip : ∀ j : ℤ, |(j : ℚ) * unit - -x| = |((-j : ℤ) : ℚ) * unit - x| := by
    intro j
    rw [← abs_neg]
    congr 1
    push_cast
    ring
  constructor
  · intro j
    rw [hflip, hflip, neg_neg]
    exact h.le (-j)
  · intro j hj htie
    rw [hflip, hflip, neg_neg] at htie
    exact (h.even (-j) (by omega) htie).neg

theorem roundDiv_eq_or (num den : Nat) :
    roundDiv num den = num / den ∨ roundDiv num den = num / den + 1 := by
  unfold roundDiv
  simp only
  split
  · exact .inl rfl
  · split
    · exact .inr rfl
    · omega

/-- Rounding a quotient gives the nearest multiple. -/
theorem nearest_roundDiv {num den : Nat} (hden : 0 < den) (hunit : 0 < unit)
    (hx : x = (num : ℚ) / den * unit) : Nearest unit x (roundDiv num den) := by
  have hdenq : (0 : ℚ) < den := by exact_mod_cast hden
  -- the distance from the quotient, scaled by the denominator
  obtain ⟨d, hd⟩ : ∃ d : ℤ, d = den * roundDiv num den - num := ⟨_, rfl⟩
  have hdist : |((roundDiv num den : ℤ) : ℚ) * unit - x| = |(d : ℚ)| / den * unit := by
    have hfactor : ((roundDiv num den : ℤ) : ℚ) * unit - x = d / den * unit := by
      rw [hx, hd]
      push_cast
      field_simp
    rw [hfactor, abs_mul, abs_div, abs_of_pos hdenq, abs_of_pos hunit]
  rw [nearest_iff hunit, hdist]
  constructor
  · have hbound : |d| * 2 ≤ den := by
      obtain ⟨hupper, hlower⟩ := roundDiv_le hden num
      have hcast : ((den * roundDiv num den : Nat) : ℤ) = den * roundDiv num den := by push_cast; rfl
      rcases abs_cases d with ⟨habs, -⟩ | ⟨habs, -⟩ <;> omega
    have hbound : |(d : ℚ)| * 2 ≤ den := by exact_mod_cast hbound
    rw [div_mul_eq_mul_div, div_le_div_iff₀ hdenq two_pos]
    nlinarith
  · intro htie
    have htie : |(d : ℚ)| * 2 = den := by
      rw [div_mul_eq_mul_div, div_eq_div_iff hdenq.ne' two_pos.ne', mul_right_comm] at htie
      rw [mul_comm unit] at htie
      exact mul_right_cancel₀ hunit.ne' htie
    have htie : |d| * 2 = den := by exact_mod_cast htie
    have heven : roundDiv num den % 2 = 0 := by
      refine roundDiv_even_of_tie ?_
      have hsplit : (den : ℤ) * (num / den : Nat) + (num % den : Nat) = num := by
        exact_mod_cast Nat.div_add_mod num den
      have hlt := Nat.mod_lt num hden
      have hr := roundDiv_eq_or num den
      generalize num / den = q at hsplit hr
      generalize num % den = r at hsplit hlt ⊢
      rcases hr with hr | hr
      · rw [hr] at hd
        rcases abs_cases d with ⟨habs, -⟩ | ⟨habs, -⟩ <;> omega
      · rw [hr, Nat.cast_succ, mul_add, mul_one] at hd
        rcases abs_cases d with ⟨habs, -⟩ | ⟨habs, -⟩ <;> omega
    exact_mod_cast Nat.even_iff.2 heven

end KeypadCalc.Decimal

import KeypadCalc.Proofs.Decimal.Digits
import KeypadCalc.Proofs.Decimal.Nearest
import Mathlib.Algebra.Order.Field.Power

/-!
# KeypadCalc — the digits of a fraction in scientific form

`floorLog10` places a positive fraction between two powers of ten (`floorLog10_spec`). Scaled by that
power, it is rounded to whole digits; where these carry, one of them moves into the exponent. Either
way the digits found are as many as wanted, and they are those of the nearest multiple of the last
place (`significand_spec`). So the exponent lies between those of the powers of ten around the
fraction (`le_exponent`, `exponent_le`).
-/

namespace KeypadCalc.Decimal

theorem digitCount_spec {n : Nat} (h : 0 < n) :
    ∃ k, digitCount n = k + 1 ∧ 10 ^ k ≤ n ∧ n < 10 ^ (k + 1) := by
  have hcount : digitCount n = (digits n).length := if_neg h.ne'
  have hpos : 0 < (digits n).length := List.length_pos_iff.2 (digits_ne_nil n)
  obtain ⟨k, hk⟩ := Nat.exists_eq_succ_of_ne_zero hpos.ne'
  refine ⟨k, hcount.trans hk, ?_, ?_⟩
  · -- fewer digits do not write the number
    by_contra hlt
    rcases Nat.eq_zero_or_pos k with rfl | hk0
    · exact hlt h
    · have hle := (length_digits_le_iff hk0).2 (Nat.not_le.1 hlt)
      omega
  · exact (length_digits_le_iff (Nat.succ_pos k)).1 hk.le

variable {num den : Nat}

/-- A positive fraction lies between two neighbouring powers of ten. -/
theorem floorLog10_spec (hnum : 0 < num) (hden : 0 < den) :
    (10 : ℚ) ^ floorLog10 num den ≤ (num : ℚ) / den ∧
      (num : ℚ) / den < 10 ^ (floorLog10 num den + 1) := by
  have hnumq : (0 : ℚ) < num := by exact_mod_cast hnum
  have hdenq : (0 : ℚ) < den := by exact_mod_cast hden
  unfold floorLog10
  split
  · next hle =>
    -- from one up, the whole part has as many digits as the fraction
    obtain ⟨k, hk, hlow, hhigh⟩ := digitCount_spec (Nat.div_pos hle hden)
    have hlow : 10 ^ k * den ≤ num := (Nat.le_div_iff_mul_le hden).1 hlow
    have hhigh : num < 10 ^ (k + 1) * den := (Nat.div_lt_iff_lt_mul hden).1 hhigh
    have hexp : ((digitCount (num / den) : ℕ) : ℤ) - 1 = (k : ℕ) := by
      rw [hk]
      push_cast
      ring
    rw [hexp, le_div_iff₀ hdenq, div_lt_iff₀ hdenq, ← Nat.cast_succ, zpow_natCast, zpow_natCast]
    exact_mod_cast And.intro hlow hhigh
  · next hlt =>
    -- below one, the denominator is that many digits longer
    have hpos : 0 < (den - 1) / num := Nat.div_pos (by omega) hnum
    obtain ⟨k, hk, hlow, hhigh⟩ := digitCount_spec hpos
    have hlow : 10 ^ k * num ≤ den - 1 := (Nat.le_div_iff_mul_le hnum).1 hlow
    have hhigh : den - 1 < 10 ^ (k + 1) * num := (Nat.div_lt_iff_lt_mul hnum).1 hhigh
    have hlow : 10 ^ k * num < den := by omega
    have hhigh : den ≤ 10 ^ (k + 1) * num := by omega
    have hexp : -((digitCount ((den - 1) / num) : ℕ) : ℤ) = -((k + 1 : ℕ) : ℤ) := by rw [hk]
    have hnext : -((k + 1 : ℕ) : ℤ) + 1 = -((k : ℕ) : ℤ) := by
      push_cast
      ring
    rw [hexp, hnext, zpow_neg, zpow_neg, zpow_natCast, zpow_natCast]
    constructor
    · rw [inv_le_comm₀ (by positivity) (by positivity), inv_div, div_le_iff₀ hnumq]
      exact_mod_cast hhigh
    · rw [lt_inv_comm₀ (by positivity) (by positivity), inv_div, lt_div_iff₀ hnumq]
      exact_mod_cast hlow

theorem ten_zpow (e : ℤ) : (10 : ℚ) ^ e = 10 ^ e.toNat / 10 ^ (-e).toNat := by
  rw [eq_div_iff (by positivity), ← zpow_natCast, ← zpow_natCast, ← zpow_add₀ (by norm_num)]
  congr 1
  omega

/-- **The digits of a fraction in scientific form** are as many as wanted, and those of the multiple
of the last place that is nearest to the fraction. -/
theorem significand_spec (places : Nat) (hnum : 0 < num) (hden : 0 < den) :
    10 ^ places ≤ (significand places num den).1 ∧
      (significand places num den).1 < 10 ^ (places + 1) ∧
      Nearest (10 ^ ((significand places num den).2 - places)) ((num : ℚ) / den)
        (significand places num den).1 := by
  obtain ⟨hlow, hhigh⟩ := floorLog10_spec hnum hden
  have hten : (10 : ℚ) ≠ 0 := by norm_num
  -- the digits before a carry
  obtain ⟨e, he⟩ : ∃ e, e = floorLog10 num den := ⟨_, rfl⟩
  obtain ⟨n, hn⟩ : ∃ n, n = roundDiv (num * 10 ^ ((places : ℤ) - e).toNat)
      (den * 10 ^ (-((places : ℤ) - e)).toNat) := ⟨_, rfl⟩
  have hunit : (0 : ℚ) < 10 ^ (e - places) := by positivity
  have hnear : Nearest (10 ^ (e - places)) ((num : ℚ) / den) n := by
    rw [hn]
    refine nearest_roundDiv (Nat.mul_pos hden (by positivity)) hunit ?_
    have hscale : (10 : ℚ) ^ (e - places) = 10 ^ (-((places : ℤ) - e)).toNat /
        10 ^ ((places : ℤ) - e).toNat := by
      rw [← neg_sub, ten_zpow, neg_neg]
    rw [hscale]
    push_cast
    field_simp
  have hleast : 10 ^ places ≤ n := by
    have hbelow : ((10 ^ places : ℤ) : ℚ) * 10 ^ (e - places) ≤ num / den := by
      push_cast
      rw [← zpow_natCast, ← zpow_add₀ hten, add_sub_cancel, he]
      exact hlow
    exact_mod_cast hnear.le_of_mul_le hunit hbelow
  have hmost : n ≤ 10 ^ (places + 1) := by
    have habove : (num : ℚ) / den ≤ ((10 ^ (places + 1) : ℤ) : ℚ) * 10 ^ (e - places) := by
      push_cast
      rw [← zpow_natCast, ← zpow_add₀ hten, he]
      refine hhigh.le.trans_eq (congrArg _ ?_)
      push_cast
      ring
    exact_mod_cast hnear.le_of_le_mul hunit habove
  have hsignificand : significand places num den =
      if n < 10 ^ (places + 1) then (n, e) else (n / 10, e + 1) := by
    rw [significand, if_neg hnum.ne', hn, he]
    rfl
  rw [hsignificand]
  split
  · next hfits => exact ⟨hleast, hfits, hnear⟩
  · next hcarry =>
    -- all digits were nines, so the carry leaves a one and zeros
    have hall : n = 10 ^ places * 10 := by
      rw [Nat.pow_succ] at hcarry hmost
      omega
    have hdiv : n / 10 = 10 ^ places := by rw [hall, Nat.mul_div_cancel _ (by decide)]
    have hshift : (10 : ℚ) ^ (e + 1 - places) = 10 ^ (e - places) * (10 : ℤ) := by
      rw [Int.cast_ofNat, ← zpow_add_one₀ hten]
      congr 1
      ring
    show 10 ^ places ≤ n / 10 ∧ n / 10 < 10 ^ (places + 1) ∧
      Nearest (10 ^ (e + 1 - places)) ((num : ℚ) / den) ((n / 10 : ℕ) : ℤ)
    rw [hdiv, hshift]
    refine ⟨le_rfl, Nat.pow_lt_pow_right (by decide) (Nat.lt_succ_self places), ?_⟩
    rw [hall] at hnear
    exact Nearest.coarser hunit (by decide) (by exact_mod_cast hnear)

/-- The exponent is at least that of a power of ten that the fraction reaches. -/
theorem le_exponent (places : Nat) {a : ℤ} (hnum : 0 < num) (hden : 0 < den)
    (h : (10 : ℚ) ^ a ≤ (num : ℚ) / den) : a ≤ (significand places num den).2 := by
  obtain ⟨-, hhigh, hnear⟩ := significand_spec places hnum hden
  generalize (significand places num den).2 = e at hnear ⊢
  by_contra hlt
  -- otherwise the next power of ten has one digit too many
  have hnext : ((10 ^ (places + 1) : ℤ) : ℚ) * 10 ^ (e - places) ≤ (num : ℚ) / den := by
    refine le_trans ?_ h
    push_cast
    rw [← zpow_natCast, ← zpow_add₀ (by norm_num)]
    refine zpow_le_zpow_right₀ (by norm_num) ?_
    push_cast
    omega
  have hle := hnear.le_of_mul_le (by positivity) hnext
  exact absurd hhigh (Nat.not_lt.2 (by exact_mod_cast hle))

/-- The exponent is at most that of a power of ten that the fraction does not exceed. -/
theorem exponent_le {places : Nat} {b : ℤ} (hplaces : 0 < places) (hnum : 0 < num) (hden : 0 < den)
    (h : (num : ℚ) / den ≤ 10 ^ b) : (significand places num den).2 ≤ b := by
  obtain ⟨hlow, -, hnear⟩ := significand_spec places hnum hden
  generalize (significand places num den).2 = e at hnear ⊢
  obtain ⟨p, rfl⟩ := Nat.exists_eq_succ_of_ne_zero hplaces.ne'
  by_contra hlt
  -- otherwise the power of ten has one digit too few
  have hlast : (num : ℚ) / den ≤ ((10 ^ p : ℤ) : ℚ) * 10 ^ (e - (p + 1 : ℕ)) := by
    refine h.trans ?_
    push_cast
    rw [← zpow_natCast, ← zpow_add₀ (by norm_num)]
    refine zpow_le_zpow_right₀ (by norm_num) ?_
    omega
  have hle := hnear.le_of_le_mul (by positivity) hlast
  have hpow := Nat.pow_lt_pow_right (by decide : 1 < 10) (Nat.lt_succ_self p)
  exact absurd (hpow.trans_le hlow) (Nat.not_lt.2 (by exact_mod_cast hle))

end KeypadCalc.Decimal

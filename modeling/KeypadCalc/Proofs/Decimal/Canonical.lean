import KeypadCalc.Proofs.Decimal.Numeral
import Mathlib.Algebra.Order.Field.Basic
import Mathlib.Tactic.Linarith

/-!
# KeypadCalc — decimals without superfluous zeros

A decimal is canonical where none of its zeros is superfluous: none stands in front of another digit,
none at the end behind the point, and zero has no sign. So many units of a last place have one canonical
decimal (`canonical_ofUnits`, `units_ofUnits`), which is determined by them and by its sign
(`Canonical.ofUnits_units`). Decimals of few digits lie far apart (`le_abs_sub`,
`magnitude_eq_of_near`).
-/

namespace KeypadCalc.Decimal

open Text (numberOfDigits)

namespace Numeral

/-- A decimal without a power of ten, with so many places at most and no superfluous zero. -/
structure Canonical (places : Nat) (n : Numeral) : Prop extends WellFormed n where
  unpadded : Unpadded n.whole
  trimmed : Trimmed n.part
  length_part : n.part.length ≤ places
  exponent : n.exponent = none
  signed : n.negative = true → ¬ (n.whole = ['0'] ∧ n.part = [])

/-! ## Units of the last place -/

/-- So many units of the last place, with no superfluous zero. -/
def ofUnits (negative : Bool) (places u : Nat) : Numeral where
  negative := negative && u != 0
  whole := digits (u / 10 ^ places)
  part := dropFinalZeros (digitsPadded places (u % 10 ^ places))
  exponent := none

/-- The units of the last place that a decimal is, without its sign. -/
def units (places : Nat) (n : Numeral) : Nat :=
  numberOfDigits (n.whole ++ n.part) * 10 ^ (places - n.part.length)

variable {places : Nat} {n : Numeral}

/-- The numeral of a count of units has a whole part without leading zeros and a part without
trailing ones. -/
theorem canonical_ofUnits (hplaces : 0 < places) (negative : Bool) (u : Nat) :
    (ofUnits negative places u).Canonical places where
  whole_ne_nil := digits_ne_nil _
  isDigit_whole _ := isDigit_of_mem_digits
  isDigit_part := isDigit_of_mem_dropFinalZeros fun _ => isDigit_of_mem_digitsPadded
  unpadded := unpadded_digits _
  trimmed := trimmed_dropFinalZeros _
  length_part := by
    have hmod := Nat.mod_lt u (Nat.pow_pos (n := places) (by decide : 0 < 10))
    obtain ⟨count, hlen, -⟩ := numberOfDigits_dropFinalZeros [] (digitsPadded places (u % 10 ^ places))
    rw [length_digitsPadded hplaces hmod] at hlen
    show (dropFinalZeros _).length ≤ places
    omega
  exponent := rfl
  signed := by
    rintro hsign ⟨hwhole, hpart⟩
    -- without a whole and without a part there are no units, and no sign
    have hquotient : u / 10 ^ places = 0 := digits_eq_zero_iff.1 hwhole
    have hrest : u % 10 ^ places = 0 := by
      obtain ⟨count, hzeros⟩ := exists_dropFinalZeros (digitsPadded places (u % 10 ^ places))
      have hread := congrArg numberOfDigits hzeros
      have hpart : dropFinalZeros (digitsPadded places (u % 10 ^ places)) = [] := hpart
      rw [hpart, List.nil_append, Text.numberOfDigits_replicate_zero,
        numberOfDigits_digitsPadded] at hread
      exact hread.symm
    have hu : u = 0 := by
      rw [← Nat.div_add_mod u (10 ^ places), hquotient, hrest]
      simp
    simp [ofUnits, hu] at hsign

theorem units_ofUnits (hplaces : 0 < places) (negative : Bool) (u : Nat) :
    (ofUnits negative places u).units places = u := by
  obtain ⟨count, hlen, hread⟩ := numberOfDigits_dropFinalZeros (digits (u / 10 ^ places))
    (digitsPadded places (u % 10 ^ places))
  rw [length_digitsPadded hplaces (Nat.mod_lt u (Nat.pow_pos (by decide)))] at hlen
  rw [numberOfDigits_split hplaces] at hread
  have hcount : places - (ofUnits negative places u).part.length = count := by
    show places - (dropFinalZeros _).length = count
    omega
  rw [units, hcount]
  exact hread

/-- The digits of a decimal, with its part filled up with zeros, write its units. -/
theorem units_eq (h : n.part.length ≤ places) :
    n.units places = numberOfDigits n.whole * 10 ^ places +
      numberOfDigits (n.part ++ List.replicate (places - n.part.length) '0') := by
  have hpow : 10 ^ places = 10 ^ n.part.length * 10 ^ (places - n.part.length) := by
    rw [← Nat.pow_add, Nat.add_sub_cancel' h]
  rw [units, Text.numberOfDigits_append, Text.numberOfDigits_append,
    Text.numberOfDigits_replicate_zero, List.length_replicate, hpow]
  ring

theorem magnitude_eq (hexponent : n.exponent = none) (h : n.part.length ≤ places) :
    n.magnitude = n.units places / 10 ^ places := by
  have hpow : (10 : ℚ) ^ places = 10 ^ n.part.length * 10 ^ (places - n.part.length) := by
    rw [← pow_add, Nat.add_sub_cancel' h]
  rw [magnitude, hexponent, Option.getD_none, zero_sub, zpow_neg, zpow_natCast, units, hpow,
    Nat.cast_mul, Nat.cast_pow, Nat.cast_ofNat, mul_div_mul_right _ _ (by positivity), div_eq_mul_inv]

/-- Decimals that are not the same number lie at least a unit of the last place apart. -/
theorem le_abs_sub {n' : Numeral} (hexponent : n.exponent = none) (hexponent' : n'.exponent = none)
    (hpart : n.part.length ≤ places) (hpart' : n'.part.length ≤ places)
    (hne : n'.magnitude ≠ n.magnitude) : 1 / 10 ^ places ≤ |n'.magnitude - n.magnitude| := by
  rw [magnitude_eq hexponent hpart, magnitude_eq hexponent' hpart'] at hne ⊢
  have hunits : (n'.units places : ℤ) ≠ n.units places := by
    intro h
    rw [Int.natCast_inj.1 h] at hne
    exact hne rfl
  have hone : (1 : ℚ) ≤ |(n'.units places : ℚ) - n.units places| := by
    exact_mod_cast Int.one_le_abs (sub_ne_zero.2 hunits)
  rw [← sub_div, abs_div, abs_of_pos (by positivity : (0 : ℚ) < 10 ^ places)]
  exact div_le_div_of_nonneg_right hone (by positivity)

/-- Two decimals of fifteen digits at most are the same number where they are as near to one another
as one of them over `2 ^ 52`. -/
theorem magnitude_eq_of_near {n' : Numeral} (hexponent : n.exponent = none)
    (hexponent' : n'.exponent = none) (hlen : n.whole.length + n.part.length ≤ 15)
    (hlen' : n'.whole.length + n'.part.length ≤ 15)
    (hnear : |n'.magnitude - n.magnitude| ≤ n.magnitude / 2 ^ 52) :
    n'.magnitude = n.magnitude := by
  by_contra hne
  -- both have their last place no further behind than the one with the shorter whole may have it
  obtain ⟨w, hw⟩ : ∃ w, w = min n.whole.length n'.whole.length := ⟨_, rfl⟩
  have hapart : 1 / 10 ^ (15 - w) ≤ |n'.magnitude - n.magnitude| :=
    le_abs_sub hexponent hexponent' (by omega) (by omega) hne
  have hpow : (10 : ℚ) ^ w = 10 ^ 15 * (1 / 10 ^ (15 - w)) := by
    rw [mul_one_div, eq_div_iff (by positivity), ← pow_add]
    congr 1
    omega
  have hmagnitude := magnitude_lt hexponent
  have hmagnitude' := magnitude_lt hexponent'
  obtain ⟨hlow, hhigh⟩ := abs_le.1 hnear
  have hshort : n.magnitude < 10 ^ w ∨ n'.magnitude < 10 ^ w := by
    rcases min_choice n.whole.length n'.whole.length with hmin | hmin
    · exact .inl (by rwa [hw, hmin])
    · exact .inr (by rwa [hw, hmin])
  have hlt : n.magnitude / 2 ^ 52 < 1 / 10 ^ (15 - w) := by
    rcases hshort with h | h
    · norm_num at *
      linarith
    · norm_num at *
      linarith
  exact absurd (hapart.trans hnear) (not_le.2 hlt)

/-- A canonical decimal is the one for its sign and its units. -/
theorem Canonical.ofUnits_units (hplaces : 0 < places) (h : n.Canonical places) :
    ofUnits n.negative places (n.units places) = n := by
  obtain ⟨filled, hfilled⟩ : ∃ filled, filled =
      n.part ++ List.replicate (places - n.part.length) '0' := ⟨_, rfl⟩
  have hlen : filled.length = places := by
    have hpart := h.length_part
    rw [hfilled, List.length_append, List.length_replicate]
    omega
  have hdigits : ∀ c ∈ filled, c.isDigit = true := by
    rw [hfilled, List.forall_mem_append]
    refine ⟨h.isDigit_part, fun c hc => ?_⟩
    rw [List.eq_of_mem_replicate hc]
    rfl
  -- the units fall apart into the whole and the filled part
  have hsplit : n.units places / 10 ^ places = numberOfDigits n.whole ∧
      n.units places % 10 ^ places = numberOfDigits filled := by
    refine (Nat.div_mod_unique (Nat.pow_pos (by decide))).2 ⟨?_, hlen ▸ Text.numberOfDigits_lt filled⟩
    rw [units_eq h.length_part, hfilled, Nat.add_comm, Nat.mul_comm]
  have hwhole : digits (n.units places / 10 ^ places) = n.whole := by
    rw [hsplit.1]
    exact digits_numberOfDigits h.isDigit_whole h.unpadded
  have hpart : dropFinalZeros (digitsPadded places (n.units places % 10 ^ places)) = n.part := by
    rw [hsplit.2, digitsPadded_numberOfDigits hdigits hlen hplaces, hfilled]
    exact dropFinalZeros_append h.trimmed _
  have hsign : (n.negative && n.units places != 0) = n.negative := by
    cases hnegative : n.negative with
    | false => rfl
    | true =>
      rw [Bool.true_and, bne_iff_ne]
      intro hzero
      refine h.signed hnegative ⟨?_, ?_⟩
      · rw [← hwhole, hzero, Nat.zero_div]
        rfl
      · rw [← hpart, hzero, Nat.zero_mod, dropFinalZeros_digitsPadded_zero]
  rw [ofUnits, hwhole, hpart, hsign, ← h.exponent]

end Numeral

end KeypadCalc.Decimal

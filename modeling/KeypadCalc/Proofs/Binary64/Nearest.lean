import KeypadCalc.Proofs.Binary64.Word
import KeypadCalc.Proofs.Decimal.Nearest

/-!
# KeypadCalc — the double nearest to a fraction

A fraction is rounded on the grid of doubles of its size. `floorLog2` places it between two powers
of two (`floorLog2_spec`), so doubles of a finer grid end below it, and those of a coarser one lie on
its own grid: no double is nearer to it than the grid point it is rounded to (`grid_le`). That point
is the double whose word is put together (`value_ofWord_grid`, `gridMantissa_spec`). So a fraction
that is not too large becomes the nearest double (`datum_ofRatio`), and so does a decimal
(`datum_ofDecimal`). The step of the grid tells how near that is (`exists_fits_of_lt`,
`exists_fits_of_le`, `exists_fits_natCast`).
-/

namespace KeypadCalc.Binary64

open Decimal (Nearest roundDiv)

variable {num den : Nat}

/-- A positive fraction lies between two neighbouring powers of two. -/
theorem floorLog2_spec (hnum : 0 < num) (hden : 0 < den) :
    (2 : ℚ) ^ floorLog2 num den ≤ (num : ℚ) / den ∧
      (num : ℚ) / den < 2 ^ (floorLog2 num den + 1) := by
  have hdenq : (0 : ℚ) < den := by exact_mod_cast hden
  have htwo : (2 : ℚ) ≠ 0 := two_ne_zero
  -- the fraction is within a factor of two of the quotient of the leading bits
  obtain ⟨a, ha⟩ : ∃ a, a = num.log2 := ⟨_, rfl⟩
  obtain ⟨b, hb⟩ : ∃ b, b = den.log2 := ⟨_, rfl⟩
  have hnumlow : (2 : ℚ) ^ a ≤ num := by
    rw [ha]
    exact_mod_cast Nat.log2_self_le hnum.ne'
  have hnumhigh : (num : ℚ) < 2 ^ (a + 1) := by
    rw [ha]
    exact_mod_cast Nat.lt_log2_self
  have hdenlow : (2 : ℚ) ^ b ≤ den := by
    rw [hb]
    exact_mod_cast Nat.log2_self_le hden.ne'
  have hdenhigh : (den : ℚ) < 2 ^ (b + 1) := by
    rw [hb]
    exact_mod_cast Nat.lt_log2_self
  have hlow : (2 : ℚ) ^ ((a : ℤ) - b - 1) ≤ num / den := by
    rw [le_div_iff₀ hdenq]
    calc (2 : ℚ) ^ ((a : ℤ) - b - 1) * den ≤ 2 ^ ((a : ℤ) - b - 1) * 2 ^ (b + 1) :=
          mul_le_mul_of_nonneg_left hdenhigh.le (by positivity)
      _ = 2 ^ a := by
          rw [← zpow_natCast, ← zpow_add₀ htwo, ← zpow_natCast]
          congr 1
          push_cast
          ring
      _ ≤ num := hnumlow
  have hhigh : (num : ℚ) / den < 2 ^ ((a : ℤ) - b + 1) := by
    rw [div_lt_iff₀ hdenq]
    calc (num : ℚ) < 2 ^ (a + 1) := hnumhigh
      _ = 2 ^ ((a : ℤ) - b + 1) * 2 ^ b := by
          rw [← zpow_natCast, ← zpow_natCast, ← zpow_add₀ htwo]
          congr 1
          push_cast
          ring
      _ ≤ 2 ^ ((a : ℤ) - b + 1) * den := mul_le_mul_of_nonneg_left hdenlow (by positivity)
  -- comparing with the power in the middle decides which half it is in
  have hmiddle : num * 2 ^ (-((a : ℤ) - b)).toNat < den * 2 ^ ((a : ℤ) - b).toNat ↔
      (num : ℚ) / den < 2 ^ ((a : ℤ) - b) := by
    rw [two_zpow, div_lt_div_iff₀ hdenq (by positivity), mul_comm ((2 : ℚ) ^ _)]
    exact_mod_cast Iff.rfl
  have hfloor : floorLog2 num den = if num * 2 ^ (-((a : ℤ) - b)).toNat <
      den * 2 ^ ((a : ℤ) - b).toNat then (a : ℤ) - b - 1 else (a : ℤ) - b := by
    rw [ha, hb]
    rfl
  rw [hfloor]
  split
  · next hlt => exact ⟨hlow, by rw [sub_add_cancel]; exact hmiddle.1 hlt⟩
  · next hle => exact ⟨not_lt.1 (mt hmiddle.2 hle), hhigh⟩

/-- No double is nearer to a number than the nearest point of the grid of its size: the finest grid,
or one whose points with a leading bit start below the number. -/
theorem grid_le {q : ℚ} {e : ℤ} {k : ℤ} (hgrid : e = minExponent ∨ (2 : ℚ) ^ (e + 52) ≤ q)
    (hk : Nearest (2 ^ e) q k) {negative : Bool} {m : Nat} {e' : ℤ}
    (hfits : (Datum.finite negative m e').Fits) :
    |k * 2 ^ e - q| ≤ |m * 2 ^ e' - q| := by
  obtain ⟨hm, hmin, -, -⟩ := hfits
  have htwo : (2 : ℚ) ≠ 0 := two_ne_zero
  rcases le_or_gt e e' with hcoarse | hfine
  · -- a double of a coarser grid is a point of this one
    have hpoint : (m : ℚ) * 2 ^ e' = ((m * 2 ^ (e' - e).toNat : ℕ) : ℤ) * 2 ^ e := by
      have hpow : (2 : ℚ) ^ e' = 2 ^ (e' - e).toNat * 2 ^ e := by
        rw [← zpow_natCast, ← zpow_add₀ htwo]
        congr 1
        omega
      rw [hpow]
      push_cast
      ring
    rw [hpoint]
    exact hk.le _
  · -- a double of a finer grid is below the first point of this one with a leading bit
    have hq : (2 : ℚ) ^ (e + 52) ≤ q := hgrid.resolve_left (by omega)
    have hbelow : (m : ℚ) * 2 ^ e' ≤ 2 ^ (e + 52) := by
      calc (m : ℚ) * 2 ^ e' ≤ 2 ^ 53 * 2 ^ e' :=
            mul_le_mul_of_nonneg_right (by exact_mod_cast hm.le) (by positivity)
        _ = 2 ^ (53 + e') := by rw [← zpow_natCast, ← zpow_add₀ htwo]; rfl
        _ ≤ 2 ^ (e + 52) := zpow_le_zpow_right₀ one_le_two (by omega)
    have hfirst : ((2 ^ 52 : ℤ) : ℚ) * 2 ^ e = 2 ^ (e + 52) := by
      rw [zpow_add₀ htwo]
      push_cast
      ring
    calc |k * 2 ^ e - q| ≤ |((2 ^ 52 : ℤ) : ℚ) * 2 ^ e - q| := hk.le _
      _ = q - 2 ^ (e + 52) := by rw [hfirst, abs_of_nonpos (by linarith), neg_sub]
      _ ≤ q - m * 2 ^ e' := by linarith
      _ ≤ |m * 2 ^ e' - q| := by rw [abs_sub_comm]; exact le_abs_self _

/-! ## The word of a grid point -/

/-- The word that is put together for the point `k · 2 ^ e` of a grid stands for that point, also
where its mantissa has carried into the exponent field. -/
theorem value_ofWord_grid (negative : Bool) {e : ℤ} {k : Nat} (hmin : minExponent ≤ e)
    (htop : e ≤ 970) (hk : k ≤ 2 ^ 53) (hgrid : e = minExponent ∨ 2 ^ 52 ≤ k) :
    ∃ m e', Datum.ofWord (wordOfFields negative (e - minExponent).toNat 0 + k) =
      .finite negative m e' ∧ (m : ℚ) * 2 ^ e' = k * 2 ^ e := by
  have hmin : -1074 ≤ e := hmin
  have hgrid : e = -1074 ∨ 2 ^ 52 ≤ k := hgrid
  obtain ⟨i, hi⟩ : ∃ i, i = (e - minExponent).toNat := ⟨_, rfl⟩
  have hie : (i : ℤ) = e + 1074 := by
    rw [hi, minExponent]
    omega
  rw [← hi]
  -- a word with a leading bit in its mantissa, by its fields
  have hnormal : ∀ field fraction : Nat, field ≠ 0 → field < 2047 → fraction < 2 ^ 52 →
      wordOfFields negative i 0 + k = wordOfFields negative field fraction →
      Datum.ofWord (wordOfFields negative i 0 + k) =
        .finite negative (2 ^ 52 + fraction) (minExponent + field - 1) := by
    intro field fraction hpos hlt hfraction hword
    rw [hword, ofWord_wordOfFields negative (by omega) hfraction, Datum.ofFields,
      if_neg (by omega), if_neg hpos]
  rcases Nat.lt_or_ge k (2 ^ 52) with hsmall | hleading
  · have hword : wordOfFields negative i 0 + k = wordOfFields negative 0 k := by
      simp only [wordOfFields]
      omega
    rw [hword, ofWord_wordOfFields negative (by decide) hsmall, Datum.ofFields,
      if_neg (by decide), if_pos rfl]
    have hfinest : minExponent = e := (hgrid.resolve_right (by omega)).symm
    exact ⟨k, minExponent, rfl, by rw [hfinest]⟩
  · rcases Nat.lt_or_eq_of_le hk with hfits | hcarry
    · refine ⟨_, _, hnormal (i + 1) (k - 2 ^ 52) (by omega) (by omega) (by omega) ?_, ?_⟩
      · simp only [wordOfFields]
        omega
      · have hmantissa : 2 ^ 52 + (k - 2 ^ 52) = k := by omega
        have hsame : minExponent + ((i + 1 : ℕ) : ℤ) - 1 = e := by
          rw [minExponent]
          push_cast
          omega
        rw [hmantissa, hsame]
    · refine ⟨_, _, hnormal (i + 2) 0 (by omega) (by omega) (by decide) ?_, ?_⟩
      · simp only [wordOfFields]
        omega
      · have hnext : minExponent + ((i + 2 : ℕ) : ℤ) - 1 = e + 1 := by
          rw [minExponent]
          push_cast
          omega
        rw [hcarry, hnext, zpow_add_one₀ two_ne_zero]
        push_cast
        ring

/-! ## The grid point of a fraction -/

/-- A fraction lies on the finest grid, or among the points of its grid with a leading bit. -/
theorem gridExponent_spec (hnum : 0 < num) (hden : 0 < den) :
    (gridExponent num den = minExponent ∨
      (2 : ℚ) ^ (gridExponent num den + 52) ≤ (num : ℚ) / den) ∧
      (num : ℚ) / den < 2 ^ (gridExponent num den + 53) := by
  obtain ⟨hlow, hhigh⟩ := floorLog2_spec hnum hden
  have hgrid : gridExponent num den = max (floorLog2 num den - 52) minExponent := rfl
  have hside : gridExponent num den = minExponent ∨
      gridExponent num den = floorLog2 num den - 52 := by omega
  refine ⟨hside.imp_right fun he => ?_, hhigh.trans_le ?_⟩
  · rw [he, sub_add_cancel]
    exact hlow
  · exact zpow_le_zpow_right₀ one_le_two (by omega)

/-- A fraction below a power of two has a grid with as many points below that power as a mantissa
has, or the finest one. -/
theorem gridExponent_le {k : ℕ} (hnum : 0 < num) (hden : 0 < den)
    (hsize : (num : ℚ) / den < 2 ^ k) : gridExponent num den ≤ max ((k : ℤ) - 53) minExponent := by
  have hlog : floorLog2 num den < k := by
    rw [← zpow_lt_zpow_iff_right₀ (one_lt_two (α := ℚ)), zpow_natCast]
    exact (floorLog2_spec hnum hden).1.trans_lt hsize
  rw [gridExponent]
  omega

/-- The number of the grid point that a fraction is rounded to. -/
def gridMantissa (num den : Nat) : Nat :=
  roundDiv (num * 2 ^ (-gridExponent num den).toNat) (den * 2 ^ (gridExponent num den).toNat)

theorem nearest_gridMantissa (num : Nat) (hden : 0 < den) :
    Nearest (2 ^ gridExponent num den) ((num : ℚ) / den) (gridMantissa num den) := by
  refine Decimal.nearest_roundDiv (Nat.mul_pos hden (Nat.two_pow_pos _)) (by positivity) ?_
  rw [two_zpow]
  push_cast
  field_simp

/-- The grid point is within the mantissas that make up a word. -/
theorem gridMantissa_spec (hnum : 0 < num) (hden : 0 < den) :
    (gridExponent num den = minExponent ∨ 2 ^ 52 ≤ gridMantissa num den) ∧
      gridMantissa num den ≤ 2 ^ 53 := by
  obtain ⟨hbelow, habove⟩ := gridExponent_spec hnum hden
  have hnear := nearest_gridMantissa num hden
  have hunit : (0 : ℚ) < 2 ^ gridExponent num den := by positivity
  constructor
  · -- between two points of the grid, the nearest point is between them too
    refine hbelow.imp_right fun hq => ?_
    have hpoint : ((2 ^ 52 : ℤ) : ℚ) * 2 ^ gridExponent num den ≤ num / den := by
      rw [add_comm, zpow_add₀ two_ne_zero] at hq
      exact_mod_cast hq
    exact_mod_cast hnear.le_of_mul_le hunit hpoint
  · have hpoint : (num : ℚ) / den ≤ ((2 ^ 53 : ℤ) : ℚ) * 2 ^ gridExponent num den := by
      rw [add_comm, zpow_add₀ two_ne_zero] at habove
      exact_mod_cast habove.le
    exact_mod_cast hnear.le_of_le_mul hunit hpoint

/-! ## The nearest double -/

/-- A word without a sign bit is read under the sign that it is given. -/
theorem datum_ofRatio_of_word (negative : Bool) {w : Nat} (hword : wordOfRatio num den = w)
    (hw : w < 2 ^ 63) :
    datum (ofRatio negative num den) = Datum.ofWord (wordOfFields negative 0 0 + w) := by
  have hsame : (if negative then Nat.pow 2 63 + w else w) = wordOfFields negative 0 0 + w := by
    cases negative <;> simp [wordOfFields]
  have hlt : wordOfFields negative 0 0 + w < 2 ^ 64 := by
    cases negative <;> simp [wordOfFields] <;> omega
  rw [ofRatio, hword, hsame, datum_ofBits, UInt64.toNat_ofNat_of_lt' hlt]

theorem datum_ofRatio_zero (negative : Bool) (den : Nat) :
    datum (ofRatio negative 0 den) = .finite negative 0 minExponent := by
  rw [datum_ofRatio_of_word negative (if_pos rfl) (by decide), Nat.add_zero,
    ofWord_wordOfFields negative (by decide) (by decide)]
  rfl

/-- A positive fraction that is not too large becomes its grid point. -/
theorem datum_ofRatio_grid (negative : Bool) (hnum : 0 < num) (hden : 0 < den)
    (hsize : (num : ℚ) / den < 2 ^ 1023) :
    ∃ m e, datum (ofRatio negative num den) = .finite negative m e ∧
      (m : ℚ) * 2 ^ e = gridMantissa num den * 2 ^ gridExponent num den := by
  have htop : gridExponent num den ≤ 970 := gridExponent_le hnum hden hsize
  obtain ⟨hleading, hmost⟩ := gridMantissa_spec hnum hden
  have hmin : minExponent ≤ gridExponent num den := le_max_right _ _
  obtain ⟨m, e, hword, hvalue⟩ := value_ofWord_grid negative hmin htop hmost hleading
  refine ⟨m, e, ?_, hvalue⟩
  -- the word is below that of infinity
  have hplace : (gridExponent num den - minExponent).toNat ≤ 2044 := by
    rw [minExponent]
    omega
  have hratio : wordOfRatio num den =
      (gridExponent num den - minExponent).toNat * 2 ^ 52 + gridMantissa num den := by
    rw [wordOfRatio, if_neg hnum.ne']
    refine min_eq_left ?_
    show (gridExponent num den - minExponent).toNat * 2 ^ 52 + gridMantissa num den ≤ 2047 * 2 ^ 52
    omega
  have hshift : wordOfFields negative 0 0 +
      ((gridExponent num den - minExponent).toNat * 2 ^ 52 + gridMantissa num den) =
      wordOfFields negative (gridExponent num den - minExponent).toNat 0 +
        gridMantissa num den := by
    simp only [wordOfFields]
    omega
  rw [datum_ofRatio_of_word negative hratio (by omega), hshift, hword]

/-- **A fraction becomes the nearest double**, if it is not too large for one: it is finite, and no
double is nearer. -/
theorem datum_ofRatio (negative : Bool) (hden : 0 < den) (hsize : (num : ℚ) / den < 2 ^ 1023) :
    ∃ m e, datum (ofRatio negative num den) = .finite negative m e ∧
      ∀ negative' m' e', (Datum.finite negative' m' e').Fits →
        |(m : ℚ) * 2 ^ e - num / den| ≤ |(m' : ℚ) * 2 ^ e' - num / den| := by
  rcases Nat.eq_zero_or_pos num with rfl | hnum
  · refine ⟨0, minExponent, datum_ofRatio_zero negative den, ?_⟩
    intro negative' m' e' _
    rw [Nat.cast_zero, zero_div, zero_mul, sub_zero, abs_zero]
    exact abs_nonneg _
  · obtain ⟨m, e, hdatum, hvalue⟩ := datum_ofRatio_grid negative hnum hden hsize
    refine ⟨m, e, hdatum, ?_⟩
    intro negative' m' e' hfits
    rw [hvalue]
    exact grid_le (gridExponent_spec hnum hden).1 (nearest_gridMantissa num hden) hfits

/-! ## How near a double is -/

theorem fits_zero : (Datum.finite false 0 minExponent).Fits :=
  ⟨by decide, le_rfl, by decide, .inr rfl⟩

/-- Half a step of its grid away from a fraction there is a double. -/
theorem exists_fits_grid (hnum : 0 < num) (hden : 0 < den) (hsize : (num : ℚ) / den < 2 ^ 1023) :
    ∃ m e, (Datum.finite false m e).Fits ∧
      |(m : ℚ) * 2 ^ e - num / den| ≤ 2 ^ gridExponent num den / 2 := by
  obtain ⟨m, e, hdatum, hvalue⟩ := datum_ofRatio_grid false hnum hden hsize
  refine ⟨m, e, hdatum ▸ fits_datum _, ?_⟩
  rw [hvalue]
  exact ((Decimal.nearest_iff (by positivity)).1 (nearest_gridMantissa num hden)).1

/-- Below a power of two there is a double within that power over `2 ^ 54`. -/
theorem exists_fits_of_lt {k : ℕ} (hk : k ≤ 1023) (hden : 0 < den)
    (hsize : (num : ℚ) / den < 2 ^ k) :
    ∃ m e, (Datum.finite false m e).Fits ∧
      |(m : ℚ) * 2 ^ e - num / den| ≤ 2 ^ k / 2 ^ 54 := by
  rcases Nat.eq_zero_or_pos num with rfl | hnum
  · refine ⟨0, minExponent, fits_zero, ?_⟩
    rw [Nat.cast_zero, zero_mul, zero_div, sub_zero, abs_zero]
    positivity
  · obtain ⟨m, e, hfits, hnear⟩ := exists_fits_grid hnum hden
      (hsize.trans_le (pow_le_pow_right₀ one_le_two hk))
    refine ⟨m, e, hfits, hnear.trans ?_⟩
    -- a number below `2 ^ k` has a grid whose step is at most `2 ^ (k - 53)`
    have hgrid : gridExponent num den ≤ (k : ℤ) - 53 := by
      have hle := gridExponent_le hnum hden hsize
      rw [minExponent] at hle
      omega
    have hstep : (2 : ℚ) ^ gridExponent num den ≤ 2 ^ k / 2 ^ 53 := by
      refine (zpow_le_zpow_right₀ one_le_two hgrid).trans_eq ?_
      rw [zpow_sub₀ two_ne_zero, zpow_natCast]
      norm_num
    calc (2 : ℚ) ^ gridExponent num den / 2 ≤ 2 ^ k / 2 ^ 53 / 2 := by linarith
      _ = 2 ^ k / 2 ^ 54 := by ring

/-- There is a double within a fraction over `2 ^ 53` of it, if it is not too small. -/
theorem exists_fits_of_le (hnum : 0 < num) (hden : 0 < den) (hsize : (num : ℚ) / den < 2 ^ 1023)
    (hlow : (2 : ℚ) ^ (minExponent + 53) ≤ num / den) :
    ∃ m e, (Datum.finite false m e).Fits ∧
      |(m : ℚ) * 2 ^ e - num / den| ≤ num / den / 2 ^ 53 := by
  obtain ⟨m, e, hfits, hnear⟩ := exists_fits_grid hnum hden hsize
  refine ⟨m, e, hfits, hnear.trans ?_⟩
  obtain ⟨hgrid, hbelow⟩ := gridExponent_spec hnum hden
  -- the lowest grid holds only what is too small
  have hpoint : (2 : ℚ) ^ (gridExponent num den + 52) ≤ num / den := by
    refine hgrid.resolve_left fun hmin => ?_
    rw [hmin] at hbelow
    exact absurd hlow (not_le.2 hbelow)
  rw [zpow_add₀ two_ne_zero] at hpoint
  rw [le_div_iff₀ (by positivity)]
  calc (2 : ℚ) ^ gridExponent num den / 2 * 2 ^ 53 = 2 ^ gridExponent num den * 2 ^ (52 : ℤ) := by
        norm_num
        ring
    _ ≤ num / den := hpoint

/-- A whole number below `2 ^ 53` is a double. -/
theorem exists_fits_natCast {n : ℕ} (h : n < 2 ^ 53) :
    ∃ m e, (Datum.finite false m e).Fits ∧ (m : ℚ) * 2 ^ e = n := by
  have hlt : (n : ℚ) / (1 : ℕ) < 2 ^ 53 := by
    rw [Nat.cast_one, div_one]
    exact_mod_cast h
  rcases Nat.eq_zero_or_pos n with rfl | hn
  · exact ⟨0, minExponent, fits_zero, by simp⟩
  · obtain ⟨m, e, hdatum, hvalue⟩ := datum_ofRatio_grid false hn one_pos
      (hlt.trans_le (pow_le_pow_right₀ one_le_two (by decide)))
    refine ⟨m, e, hdatum ▸ fits_datum _, ?_⟩
    have hgrid : gridExponent n 1 ≤ 0 := gridExponent_le hn one_pos hlt
    -- the grid is fine enough to have the number on it, and no other point is as near to it
    have hpoint : ((n * 2 ^ (-gridExponent n 1).toNat : ℕ) : ℤ) * (2 : ℚ) ^ gridExponent n 1 = n := by
      rw [two_zpow, Int.toNat_of_nonpos hgrid]
      push_cast
      field_simp
    have hnear := (nearest_gridMantissa n one_pos).le ((n * 2 ^ (-gridExponent n 1).toNat : ℕ) : ℤ)
    rw [hpoint, Nat.cast_one, div_one, sub_self, abs_zero, abs_nonpos_iff, sub_eq_zero] at hnear
    rw [hvalue]
    exact_mod_cast hnear

/-- A decimal with at most a thousand places becomes the nearest double, if it is not too large for
one. -/
theorem datum_ofDecimal (negative : Bool) {mantissa places : Nat} (hplaces : places ≤ 1000)
    (hsize : (mantissa : ℚ) / 10 ^ places < 2 ^ 1023) :
    ∃ m e, datum (ofDecimal negative mantissa (-(places : ℤ))) = .finite negative m e ∧
      ∀ negative' m' e', (Datum.finite negative' m' e').Fits →
        |(m : ℚ) * 2 ^ e - mantissa / 10 ^ places| ≤
          |(m' : ℚ) * 2 ^ e' - mantissa / 10 ^ places| := by
  rcases Nat.eq_zero_or_pos mantissa with hzero | hpos
  · -- zero is told apart by the conversion, and is the quotient of zero by one
    have hratio : ofDecimal negative mantissa (-(places : ℤ)) = ofRatio negative 0 1 := if_pos hzero
    have hsame : (mantissa : ℚ) / 10 ^ places = ((0 : ℕ) : ℚ) / ((1 : ℕ) : ℚ) := by
      rw [hzero, Nat.cast_zero, zero_div, zero_div]
    rw [hratio, hsame]
    exact datum_ofRatio negative one_pos (hsame ▸ hsize)
  · have hnum : (-(places : ℤ)).toNat = 0 := by omega
    have hden : (- -(places : ℤ)).toNat = places := by omega
    have hratio : ofDecimal negative mantissa (-(places : ℤ)) =
        ofRatio negative mantissa (10 ^ places) := by
      rw [ofDecimal, if_neg hpos.ne', if_neg (by omega), if_neg (by omega), hnum, hden]
      simp only [Nat.pow_eq, pow_zero, Nat.mul_one]
    have hsame : (mantissa : ℚ) / 10 ^ places = (mantissa : ℚ) / ((10 ^ places : ℕ) : ℚ) := by
      push_cast
      rfl
    rw [hratio, hsame]
    exact datum_ofRatio negative (Nat.pow_pos (by decide)) (hsame ▸ hsize)

end KeypadCalc.Binary64

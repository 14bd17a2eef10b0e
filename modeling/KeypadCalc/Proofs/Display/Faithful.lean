import KeypadCalc.Proofs.Binary64.Value
import KeypadCalc.Proofs.Decimal.Canonical
import KeypadCalc.Proofs.Decimal.Significand

/-!
# KeypadCalc — what the display shows

The text of a finite result is a decimal in writing (`finiteText_eq`), plain or in scientific form.
Both round the magnitude once, at their last place: the plain one to the nearest multiple of its
last place (`nearest_plainUnits`), the scientific one to that of the last of its digits. So what is
shown is a faithful rounding of the result (`text_is_faithful`).
-/

namespace KeypadCalc.Display

open Binary64 (datum ratio signed value?)
open Decimal (Nearest Numeral digits digitsPadded dropFinalZeros roundDiv significand)

/-! ## The decimal that is shown -/

/-- The magnitude `m · 2 ^ e` in units of the last place of plain text. -/
def plainUnits (places m : Nat) (e : Int) : Nat :=
  roundDiv ((ratio m e).1 * 10 ^ places) (ratio m e).2

/-- A result in plain text. -/
def plainNumeral (negative : Bool) (places m : Nat) (e : Int) : Numeral where
  negative := negative && plainUnits places m e != 0
  whole := digits (plainUnits places m e / 10 ^ places)
  part := dropFinalZeros (digitsPadded places (plainUnits places m e % 10 ^ places))
  exponent := none

/-- A result in scientific form. -/
def scientificNumeral (negative : Bool) (places m : Nat) (e : Int) : Numeral where
  negative := negative
  whole := digits ((significand places (ratio m e).1 (ratio m e).2).1 / 10 ^ places)
  part := digitsPadded places ((significand places (ratio m e).1 (ratio m e).2).1 % 10 ^ places)
  exponent := some (significand places (ratio m e).1 (ratio m e).2).2

/-- The decimal that is shown for a result. -/
def shown (negative : Bool) (m : Nat) (e : Int) : Numeral :=
  if (plain negative m e).length ≤ style.width then plainNumeral negative style.places m e
  else scientificNumeral negative style.places m e

variable {negative : Bool} {places m : Nat} {e : Int}

theorem wellFormed_plainNumeral : (plainNumeral negative places m e).WellFormed where
  whole_ne_nil := Decimal.digits_ne_nil _
  isDigit_whole _ := Decimal.isDigit_of_mem_digits
  isDigit_part := Decimal.isDigit_of_mem_dropFinalZeros fun _ => Decimal.isDigit_of_mem_digitsPadded

theorem wellFormed_scientificNumeral : (scientificNumeral negative places m e).WellFormed where
  whole_ne_nil := Decimal.digits_ne_nil _
  isDigit_whole _ := Decimal.isDigit_of_mem_digits
  isDigit_part _ := Decimal.isDigit_of_mem_digitsPadded

theorem wellFormed_shown : (shown negative m e).WellFormed := by
  unfold shown
  split
  · exact wellFormed_plainNumeral
  · exact wellFormed_scientificNumeral

/-! ## Its text -/

/-- The body of plain text is the decimal without its sign. -/
theorem plainBody_eq (places m : Nat) (e : Int) :
    plainBody places m e = (plainNumeral false places m e).text := by
  rw [plainBody, Decimal.fixed, Numeral.text, plainNumeral, plainUnits]
  simp only [Nat.pow_eq]
  generalize dropFinalZeros (digitsPadded places _) = part
  cases part with
  | nil => simp [Numeral.pointed, Numeral.powerText]
  | cons d ds => simp [Numeral.pointed, Numeral.powerText]

/-- Plain text writes its units with no superfluous zero. -/
theorem canonical_plainNumeral (hplaces : 0 < places) :
    (plainNumeral negative places m e).Canonical places :=
  Numeral.canonical_ofUnits hplaces negative (plainUnits places m e)

/-- Plain text is worth its units of the last place. -/
theorem magnitude_plainNumeral (hplaces : 0 < places) :
    (plainNumeral negative places m e).magnitude = plainUnits places m e / 10 ^ places := by
  have hunits : (plainNumeral negative places m e).units places = plainUnits places m e :=
    Numeral.units_ofUnits hplaces negative _
  rw [Numeral.magnitude_eq rfl (canonical_plainNumeral hplaces).length_part, hunits]

/-- Zero is the one magnitude that is written as the digit zero. -/
theorem plainBody_eq_zero_iff (hplaces : 0 < places) :
    plainBody places m e = ['0'] ↔ plainUnits places m e = 0 := by
  rw [plainBody_eq]
  constructor
  · intro h
    -- what is read off the digit zero is the number zero
    have hwell : (plainNumeral false places m e).WellFormed := wellFormed_plainNumeral
    have hread := Numeral.read?_text hwell
    rw [h] at hread
    have hzero : plainNumeral false places m e = ⟨false, ['0'], [], none⟩ :=
      Option.some.inj (hread.symm.trans (by decide))
    have hvalue : (plainNumeral false places m e).magnitude = _ := magnitude_plainNumeral hplaces
    have hdigit : Text.numberOfDigits ['0'] = 0 := by decide
    rw [hzero, Numeral.magnitude, List.append_nil, hdigit, Nat.cast_zero, zero_mul, eq_comm,
      div_eq_zero_iff] at hvalue
    exact_mod_cast hvalue.resolve_right (by positivity)
  · intro h
    have hzero : plainNumeral false places m e = ⟨false, ['0'], [], none⟩ := by
      rw [plainNumeral, h, Nat.zero_div, Nat.zero_mod, Decimal.dropFinalZeros_digitsPadded_zero]
      rfl
    rw [hzero]
    rfl

/-- A whole number is shown by its digits alone. -/
theorem plainBody_of_scaled? (places : Nat) {k : Nat} (h : Binary64.scaled? m e = some k) :
    plainBody places m e = digits k := by
  have hunits : plainUnits places m e = k * 10 ^ places := by
    rw [plainUnits, Binary64.scaled?_eq_some_iff_ratio.1 h, Nat.mul_right_comm, Nat.mul_comm]
    exact Decimal.roundDiv_mul_left (Binary64.ratio_snd_pos m e) _
  have hwhole : plainNumeral false places m e = ⟨false, digits k, [], none⟩ := by
    rw [plainNumeral, hunits, Nat.mul_div_cancel _ (Nat.pow_pos (by decide)), Nat.mul_mod_left,
      Decimal.dropFinalZeros_digitsPadded_zero]
    rfl
  rw [plainBody_eq, hwhole]
  simp [Numeral.text, Numeral.pointed, Numeral.powerText]

/-- Plain text is the text of its decimal, which has no sign where it is zero. -/
theorem text_plainNumeral (hplaces : 0 < places) :
    withSign negative (plainBody places m e) = (plainNumeral negative places m e).text := by
  have hsame : (plainBody places m e != ['0']) = (plainUnits places m e != 0) := by
    rw [Bool.eq_iff_iff, bne_iff_ne, bne_iff_ne]
    exact not_congr (plainBody_eq_zero_iff hplaces)
  have hbody : (plainNumeral negative places m e).text =
      (if negative && plainUnits places m e != 0 then ['-'] else []) ++ plainBody places m e := by
    rw [plainBody_eq]
    rfl
  rw [withSign, hsame, hbody]
  split <;> rfl

/-- Text in scientific form is the text of its decimal; the point keeps it from being the digit
zero. -/
theorem text_scientificNumeral :
    withSign negative (Decimal.scientific places 2 (ratio m e).1 (ratio m e).2) =
      (scientificNumeral negative places m e).text := by
  have hbody : Decimal.scientific places 2 (ratio m e).1 (ratio m e).2 =
      (scientificNumeral false places m e).text := by
    obtain ⟨d, ds, hpart⟩ := List.exists_cons_of_ne_nil (Decimal.digitsPadded_ne_nil places
      ((significand places (ratio m e).1 (ratio m e).2).1 % 10 ^ places))
    rw [Numeral.text, scientificNumeral, Decimal.scientific]
    simp only [Nat.pow_eq, hpart]
    simp [Numeral.pointed, Numeral.powerText]
  -- a point is among the characters, so the sign is not dropped as that of a lone zero
  have hpoint : (Decimal.scientific places 2 (ratio m e).1 (ratio m e).2 != ['0']) = true := by
    rw [bne_iff_ne]
    intro h
    have hmem : '.' ∈ Decimal.scientific places 2 (ratio m e).1 (ratio m e).2 := by
      simp [Decimal.scientific]
    rw [h] at hmem
    exact absurd hmem (by decide)
  rw [withSign, hpoint, Bool.and_true, hbody]
  cases negative <;> rfl

/-- The text of a finite result is that of a decimal. -/
theorem finiteText_eq (negative : Bool) (m : Nat) (e : Int) :
    finiteText negative m e = (shown negative m e).text := by
  show (if (plain negative m e).length ≤ style.width then plain negative m e
    else scientific negative m e) = _
  rw [shown]
  split
  · exact text_plainNumeral (by decide)
  · exact text_scientificNumeral

/-- What is shown is a decimal in writing. -/
theorem exists_numeral_of_text {x : Float} {s : String} (h : text x = .ok s) :
    ∃ n : Numeral, n.WellFormed ∧ s.toList = n.text := by
  obtain ⟨negative, m, e, -, rfl⟩ := text_eq_ok_iff.1 h
  exact ⟨shown negative m e, wellFormed_shown, by rw [String.toList_ofList, finiteText_eq]⟩

/-! ## Its value -/

/-- A whole number of units under a sign. -/
def signedUnits (negative : Bool) (k : Nat) : ℤ :=
  if negative then -(k : ℤ) else k

theorem cast_signedUnits (negative : Bool) (k : Nat) :
    (signedUnits negative k : ℚ) = signed negative k := by
  cases negative <;> simp [signedUnits]

theorem nearest_signedUnits {unit a : ℚ} {k : Nat} (h : Nearest unit a k) (negative : Bool) :
    Nearest unit (signed negative a) (signedUnits negative k) := by
  cases negative with
  | false => exact h
  | true => exact h.neg

/-- The value of plain text is its units, under the sign. -/
theorem value_plainNumeral (hplaces : 0 < places) :
    (plainNumeral negative places m e).value =
      signedUnits negative (plainUnits places m e) / 10 ^ places := by
  rw [cast_signedUnits, Numeral.value, magnitude_plainNumeral hplaces]
  by_cases hzero : plainUnits places m e = 0
  · -- the sign is dropped
    simp [plainNumeral, hzero, Binary64.signed_zero]
  · have hsign : (plainNumeral negative places m e).negative = negative := by
      simp [plainNumeral, hzero]
    rw [hsign]
    cases negative <;> simp [neg_div]

/-- Plain text shows the multiple of its last place that is nearest to the result. -/
theorem nearest_plainUnits (places m : Nat) (e : Int) :
    Nearest (1 / 10 ^ places) (m * 2 ^ e) (plainUnits places m e) := by
  refine Decimal.nearest_roundDiv (Binary64.ratio_snd_pos m e) (by positivity) ?_
  rw [← Binary64.ratio_eq]
  push_cast
  field_simp

/-- The value of scientific text is its digits, shifted by the exponent. -/
theorem value_scientificNumeral (hplaces : 0 < places) :
    (scientificNumeral negative places m e).value =
      signedUnits negative (significand places (ratio m e).1 (ratio m e).2).1 *
        10 ^ ((significand places (ratio m e).1 (ratio m e).2).2 - places) := by
  obtain ⟨n, hn⟩ : ∃ n, n = (significand places (ratio m e).1 (ratio m e).2).1 := ⟨_, rfl⟩
  have hlen : (digitsPadded places (n % 10 ^ places)).length = places :=
    Decimal.length_digitsPadded hplaces (Nat.mod_lt n (by positivity))
  have hmagnitude : (scientificNumeral negative places m e).magnitude =
      n * 10 ^ ((significand places (ratio m e).1 (ratio m e).2).2 - places) := by
    rw [Numeral.magnitude, scientificNumeral, ← hn]
    simp only [Decimal.numberOfDigits_split hplaces, hlen, Option.getD_some]
  rw [cast_signedUnits, Numeral.value, hmagnitude, ← hn]
  cases negative <;> simp [scientificNumeral]

/-! ## A faithful rounding -/

/-- How a decimal stands for a number: without a power of ten it is the number itself where that is
whole, and else the multiple of `10 ^ -10` nearest to it; with the power `10 ^ E` there is one digit
in front of the point, not zero, and ten behind it, and it is the nearest one of that form. A tie
goes to the even last digit, and the sign is never the opposite one. -/
structure Faithful (v : ℚ) (n : Numeral) : Prop where
  whole : n.exponent = none → ∀ i : ℤ, v = i → n.value = v
  plain : n.exponent = none → ∃ k : ℤ, n.value = k / 10 ^ 10 ∧ Nearest (1 / 10 ^ 10) v k
  plain_error : n.exponent = none → |n.value - v| ≤ 5 / 10 ^ 11
  scientific : ∀ E : ℤ, n.exponent = some E → ∃ a : ℚ, n.value = a * 10 ^ E ∧
    1 ≤ |a| ∧ |a| < 10 ∧ ∃ k : ℤ, a = k / 10 ^ 10 ∧ Nearest (10 ^ (E - 10)) v k
  scientific_error : ∀ E : ℤ, n.exponent = some E → |n.value - v| ≤ 5 * 10 ^ (E - 11)
  same_sign : 0 ≤ n.value * v

theorem faithful_plainNumeral (negative : Bool) (m : Nat) (e : Int) :
    Faithful (signed negative (m * 2 ^ e)) (plainNumeral negative 10 m e) where
  whole _ i hi := by
    -- a whole number is a multiple of the last place, and none is nearer to it than itself
    have hnear := (nearest_signedUnits (nearest_plainUnits 10 m e) negative).le (i * 10 ^ 10)
    have hself : ((i * 10 ^ 10 : ℤ) : ℚ) * (1 / 10 ^ 10) - signed negative (m * 2 ^ e) = 0 := by
      rw [hi]
      push_cast
      ring
    rw [hself, abs_zero] at hnear
    rw [value_plainNumeral (by decide), div_eq_mul_one_div]
    exact sub_eq_zero.1 (abs_eq_zero.1 (le_antisymm hnear (abs_nonneg _)))
  plain _ := ⟨_, value_plainNumeral (by decide),
    nearest_signedUnits (nearest_plainUnits 10 m e) negative⟩
  plain_error _ := by
    have hnear := nearest_signedUnits (nearest_plainUnits 10 m e) negative
    have hhalf := ((Decimal.nearest_iff (by positivity)).1 hnear).1
    rw [value_plainNumeral (by decide), div_eq_mul_one_div]
    linarith
  scientific _ h := nomatch h
  scientific_error _ h := nomatch h
  same_sign := by
    rw [value_plainNumeral (by decide), cast_signedUnits, div_mul_eq_mul_div,
      Binary64.signed_mul_signed]
    positivity

/-- Scientific text rounds once, to eleven digits. Of what is asked of a faithful text the parts
without an exponent say nothing here; the others follow from the digits, which are at least the
tenth power of ten, below the eleventh, and nearest to the magnitude in their unit. -/
theorem faithful_scientificNumeral (negative : Bool) {m : Nat} (hm : 0 < m) (e : Int) :
    Faithful (signed negative (m * 2 ^ e)) (scientificNumeral negative 10 m e) := by
  obtain ⟨hlow, hhigh, hnear⟩ := Decimal.significand_spec 10 (Binary64.ratio_fst_pos hm e)
    (Binary64.ratio_snd_pos m e)
  have hvalue : (scientificNumeral negative 10 m e).value = _ :=
    value_scientificNumeral (by decide)
  have hexponent : (scientificNumeral negative 10 m e).exponent =
      some (significand 10 (ratio m e).1 (ratio m e).2).2 := rfl
  -- from here on only the bounds on the digits and the exponent count
  generalize (significand 10 (ratio m e).1 (ratio m e).2).1 = n at hlow hhigh hnear hvalue
  generalize (significand 10 (ratio m e).1 (ratio m e).2).2 = E at hnear hvalue hexponent
  rw [Binary64.ratio_eq, Nat.cast_ofNat] at hnear
  rw [Nat.cast_ofNat] at hvalue
  have hsigned := nearest_signedUnits hnear negative
  have hunit : (10 : ℚ) ^ (E - 10) = 1 / 10 ^ 10 * 10 ^ E := by
    rw [zpow_sub₀ (by norm_num)]
    norm_num
    ring
  have habs : |(signedUnits negative n : ℚ) / 10 ^ 10| = (n : ℚ) / 10 ^ 10 := by
    rw [cast_signedUnits, abs_div, Binary64.abs_signed, Nat.abs_cast, abs_of_pos (by positivity)]
  refine ⟨?_, ?_, ?_, ?_, ?_, ?_⟩
  · intro h
    rw [hexponent] at h
    cases h
  · intro h
    rw [hexponent] at h
    cases h
  · intro h
    rw [hexponent] at h
    cases h
  · intro E' h
    obtain rfl : E = E' := Option.some.inj (hexponent.symm.trans h)
    refine ⟨signedUnits negative n / 10 ^ 10, ?_, ?_, ?_, signedUnits negative n, rfl, hsigned⟩
    · rw [hvalue, hunit]
      ring
    · rw [habs, le_div_iff₀ (by positivity), one_mul]
      exact_mod_cast hlow
    · rw [habs, div_lt_iff₀ (by positivity), ← pow_succ']
      exact_mod_cast hhigh
  · intro E' h
    obtain rfl : E = E' := Option.some.inj (hexponent.symm.trans h)
    -- half a unit is what the last digit leaves open
    have hhalf := ((Decimal.nearest_iff (by positivity)).1 hsigned).1
    have hten : (10 : ℚ) ^ (E - 10) = 10 * 10 ^ (E - 11) := by
      rw [← zpow_one_add₀ (by norm_num)]
      congr 1
      ring
    rw [hvalue]
    linarith
  · rw [hvalue, cast_signedUnits, mul_right_comm, Binary64.signed_mul_signed]
    positivity

/-- Plain text is too long only for what is not zero. -/
theorem pos_of_long (h : ¬ (plain negative m e).length ≤ style.width) : 0 < m := by
  refine Nat.pos_of_ne_zero fun hm => h ?_
  have hunits : plainUnits style.places m e = 0 := by
    have hzero := Decimal.roundDiv_mul_left (Binary64.ratio_snd_pos m e) 0
    rw [Nat.mul_zero] at hzero
    rw [plainUnits, ratio, hm, Nat.zero_mul, Nat.zero_mul]
    exact hm ▸ hzero
  have hbody := (plainBody_eq_zero_iff (by decide : 0 < style.places)).2 hunits
  rw [plain, hbody, withSign, if_neg (by simp)]
  decide

/-- What is shown for a result is a faithful rounding of it. -/
theorem faithful_shown (negative : Bool) (m : Nat) (e : Int) :
    Faithful (signed negative (m * 2 ^ e)) (shown negative m e) := by
  rw [shown]
  split
  · exact faithful_plainNumeral negative m e
  · next hlong => exact faithful_scientificNumeral negative (pos_of_long hlong) e

/-- **The display is a faithful rounding.** For every double that is a number the text shown reads
as a decimal that rounds it faithfully; every other double is refused as not finite. -/
theorem text_is_faithful (x : Float) :
    match value? x with
    | some v => ∃ s n, text x = .ok s ∧ Numeral.read? s.toList = some n ∧ Faithful v n
    | none => ∃ bad, text x = .error bad ∧
        (CalculatorError.notFinite bad).failure.kind = .nonFiniteResult := by
  cases hx : datum x with
  | nan => simp [value?, hx, Binary64.Datum.value?, text, CalculatorError.failure]
  | infinite negative => simp [value?, hx, Binary64.Datum.value?, text, CalculatorError.failure]
  | finite negative m e =>
    rw [Binary64.value?_of_datum hx]
    refine ⟨_, _, text_eq_ok_iff.2 ⟨negative, m, e, hx, rfl⟩, ?_, faithful_shown negative m e⟩
    rw [String.toList_ofList, finiteText_eq]
    exact Numeral.read?_text wellFormed_shown

end KeypadCalc.Display

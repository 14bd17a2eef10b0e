import KeypadCalc.Proofs.Display.Shape

/-!
# KeypadCalc — a typed numeral on the display

A numeral is read as the nearest double. It is shown again for that double where it is the nearest
decimal to it in turn, and that is so exactly if the double is less than half a unit of the tenth
place away (`shown_eq_iff_lt`): never is it half a unit away (`abs_sub_ne_tie`). Whole numbers of
fifteen digits are doubles themselves, and below `2 ^ 19` doubles lie close enough together. Above,
a numeral with a point may be read as a double that it is not shown for; then no other decimal in
plain text is shown either, for two decimals of fifteen digits lie further apart than a double and
what is read as it (`not_short_of_ne`).
-/

namespace KeypadCalc.Display

open Binary64 (Datum signed value?)
open Decimal (Nearest Numeral)

variable {n : Numeral} {m : Nat} {e : Int}

/-! ## Half a unit away -/

theorem plainUnits_of_magnitude (h : n.Canonical 10)
    (hsame : (plainNumeral n.negative 10 m e).magnitude = n.magnitude) :
    plainUnits 10 m e = n.units 10 := by
  rw [magnitude_plainNumeral (by decide), Numeral.magnitude_eq h.exponent h.length_part,
    div_left_inj' (by positivity)] at hsame
  exact_mod_cast hsame

/-- A canonical decimal that fits is shown for a magnitude exactly if that has as many units. -/
theorem shown_eq_iff (h : n.Canonical 10) (hlen : n.text.length ≤ 15) :
    shown n.negative m e = n ↔ plainUnits 10 m e = n.units 10 := by
  constructor
  · intro hshown
    by_cases hshort : (plainNumeral n.negative 10 m e).text.length ≤ 15
    · rw [shown_of_short hshort] at hshown
      exact plainUnits_of_magnitude h (congrArg Numeral.magnitude hshown)
    · rw [(shown_of_long hshort).1] at hshown
      -- a scientific text has an exponent, and the typed one has none
      have hexponent := h.exponent
      rw [← hshown] at hexponent
      cases hexponent
  · intro hunits
    have hplain : plainNumeral n.negative 10 m e = n := by
      have hsame := h.ofUnits_units (by decide)
      rw [← hunits] at hsame
      exact hsame
    rw [shown_of_short (hplain.symm ▸ hlen), hplain]

/-- A decimal with nine places is no half unit of the tenth place away from a double: that would
make a power of two a multiple of five. -/
theorem abs_sub_ne_tie (N m : Nat) (e : Int) : |(m : ℚ) * 2 ^ e - N / 10 ^ 9| ≠ 5 / 10 ^ 11 := by
  intro htie
  obtain ⟨a, ha⟩ : ∃ a, a = (Binary64.ratio m e).1 := ⟨_, rfl⟩
  obtain ⟨j, hj⟩ : ∃ j, 2 ^ j = (Binary64.ratio m e).2 := ⟨_, rfl⟩
  rw [← Binary64.ratio_eq, ← ha, ← hj, Nat.cast_pow, Nat.cast_ofNat] at htie
  -- cleared of denominators
  have hscaled : |(2 * 10 ^ 10 * a - 20 * (N * 2 ^ j) : ℤ)| = 2 ^ j := by
    have hfactor : (2 * 10 ^ 10 * a - 20 * (N * 2 ^ j) : ℚ) =
        ((a : ℚ) / 2 ^ j - N / 10 ^ 9) * (2 * 10 ^ 10 * 2 ^ j) := by
      field_simp
      ring
    have habs := congrArg abs hfactor
    rw [abs_mul, htie, abs_of_pos (by positivity : (0 : ℚ) < 2 * 10 ^ 10 * 2 ^ j)] at habs
    have hcancel : (5 / 10 ^ 11 * (2 * 10 ^ 10 * 2 ^ j) : ℚ) = 2 ^ j := by
      ring
    rw [hcancel] at habs
    exact_mod_cast habs
  have hfive : (5 : ℤ) ∣ 2 ^ j := by
    rw [← hscaled, dvd_abs]
    exact ⟨4 * 10 ^ 9 * a - 4 * (N * 2 ^ j), by ring⟩
  have hcoprime : Nat.Coprime 5 (2 ^ j) := Nat.Coprime.pow_right j (by decide)
  exact absurd (hcoprime.eq_one_of_dvd (by exact_mod_cast hfive)) (by decide)

/-! ## How near the double is -/

theorem magnitude_eq_div (h : n.Canonical 10) :
    n.magnitude = (n.units 10 : ℚ) / (10 ^ 10 : ℕ) := by
  rw [Numeral.magnitude_eq h.exponent h.length_part]
  norm_num

section Nearest

variable (hnearest : ∀ negative' m' e', (Datum.finite negative' m' e').Fits →
  |(m : ℚ) * 2 ^ e - n.magnitude| ≤ |(m' : ℚ) * 2 ^ e' - n.magnitude|)

include hnearest

theorem abs_sub_lt_of_magnitude_lt (h : n.Canonical 10) (hlt : n.magnitude < 2 ^ 19) :
    |(m : ℚ) * 2 ^ e - n.magnitude| < 5 / 10 ^ 11 := by
  obtain ⟨m', e', hfits, hnear⟩ := Binary64.exists_fits_of_lt (by decide : 19 ≤ 1023)
    (by decide : 0 < 10 ^ 10) (magnitude_eq_div h ▸ hlt)
  rw [← magnitude_eq_div h] at hnear
  exact ((hnearest false m' e' hfits).trans hnear).trans_lt (by norm_num)

/-- A whole number of fifteen digits is a double, so the nearest one is at no distance. -/
theorem abs_sub_eq_zero_of_whole (h : n.Canonical 10) (hlen : n.text.length ≤ 15)
    (hpart : n.part = []) : |(m : ℚ) * 2 ^ e - n.magnitude| = 0 := by
  have hwhole : n.magnitude = (Text.numberOfDigits n.whole : ℚ) := by
    rw [Numeral.magnitude, hpart, h.exponent]
    simp
  have hlt : Text.numberOfDigits n.whole < 2 ^ 53 := by
    have hdigits := n.length_text.1
    calc Text.numberOfDigits n.whole < 10 ^ n.whole.length := Text.numberOfDigits_lt _
      _ ≤ 10 ^ 15 := Nat.pow_le_pow_right (by decide) (by omega)
      _ ≤ 2 ^ 53 := by decide
  obtain ⟨m', e', hfits, hsame⟩ := Binary64.exists_fits_natCast hlt
  have hle := hnearest false m' e' hfits
  rw [hsame, hwhole, sub_self, abs_zero] at hle
  rw [hwhole]
  exact le_antisymm hle (abs_nonneg _)

/-- A double that is nearest to a positive number is within half a unit in its last place. -/
theorem abs_sub_le_of_pos (h : n.Canonical 10) (hlen : n.text.length ≤ 15)
    (hpos : 0 < n.units 10) : |(m : ℚ) * 2 ^ e - n.magnitude| ≤ n.magnitude / 2 ^ 53 := by
  have hleast : (2 : ℚ) ^ (Binary64.minExponent + 53) ≤ n.magnitude := by
    have hone : (1 : ℚ) ≤ n.units 10 := by exact_mod_cast hpos
    calc (2 : ℚ) ^ (Binary64.minExponent + 53) ≤ 2 ^ (-34 : ℤ) :=
          zpow_le_zpow_right₀ one_le_two (by decide)
      _ ≤ 1 / (10 ^ 10 : ℕ) := by norm_num
      _ ≤ n.units 10 / (10 ^ 10 : ℕ) := div_le_div_of_nonneg_right hone (by positivity)
      _ = n.magnitude := (magnitude_eq_div h).symm
  have hsize := magnitude_lt_of_short h.exponent hlen
  rw [magnitude_eq_div h] at hleast hsize
  obtain ⟨m', e', hfits, hnear⟩ := Binary64.exists_fits_of_le hpos (by decide : 0 < 10 ^ 10) hsize
    hleast
  rw [← magnitude_eq_div h] at hnear
  exact (hnearest false m' e' hfits).trans hnear

/-- Nearest is never half a unit of the tenth place away. -/
theorem abs_sub_ne_of_short (h : n.Canonical 10) (hlen : n.text.length ≤ 15) :
    |(m : ℚ) * 2 ^ e - n.magnitude| ≠ 5 / 10 ^ 11 := by
  rcases Nat.lt_or_ge n.part.length 10 with hnine | hten
  · rw [Numeral.magnitude_eq h.exponent (Nat.le_of_lt_succ hnine)]
    exact abs_sub_ne_tie _ m e
  · -- there are five digits in front of the point at most
    have hdigits := n.length_text.1
    have hlt : n.magnitude < 2 ^ 19 := by
      calc n.magnitude < 10 ^ n.whole.length := Numeral.magnitude_lt h.exponent
        _ ≤ 10 ^ 5 := pow_le_pow_right₀ (by norm_num) (by omega)
        _ ≤ 2 ^ 19 := by norm_num
    exact (abs_sub_lt_of_magnitude_lt hnearest h hlt).ne

/-- **A decimal is shown for the double it is read as exactly if that is less than half a unit of
the tenth place away.** -/
theorem shown_eq_iff_lt (h : n.Canonical 10) (hlen : n.text.length ≤ 15) :
    shown n.negative m e = n ↔ |(m : ℚ) * 2 ^ e - n.magnitude| < 5 / 10 ^ 11 := by
  have hunit : (0 : ℚ) < 1 / 10 ^ 10 := by positivity
  have hmagnitude : ((n.units 10 : ℤ) : ℚ) * (1 / 10 ^ 10) = n.magnitude := by
    rw [Numeral.magnitude_eq h.exponent h.length_part, Int.cast_natCast, mul_one_div]
  -- nearest leaves no tie, so at most half a unit is less than half a unit
  have hne := abs_sub_ne_of_short hnearest h hlen
  rw [shown_eq_iff h hlen]
  constructor
  · intro hunits
    have hnear := nearest_plainUnits 10 m e
    rw [hunits, Decimal.nearest_iff hunit, hmagnitude, abs_sub_comm] at hnear
    refine lt_of_le_of_ne (hnear.1.trans_eq ?_) hne
    norm_num
  · intro hlt
    have hnear : Nearest (1 / 10 ^ 10) (m * 2 ^ e) (n.units 10) := by
      rw [Decimal.nearest_iff hunit, hmagnitude, abs_sub_comm]
      have hhalf : (1 : ℚ) / 10 ^ 10 / 2 = 5 / 10 ^ 11 := by norm_num
      rw [hhalf]
      exact ⟨hlt.le, fun htie => absurd htie hne⟩
    exact_mod_cast (nearest_plainUnits 10 m e).unique hunit hnear

/-- Where a decimal is not shown, no other one is in plain text. -/
theorem not_short_of_ne (h : n.Canonical 10) (hlen : n.text.length ≤ 15)
    (hne : shown n.negative m e ≠ n) : ¬ (plainNumeral n.negative 10 m e).text.length ≤ 15 := by
  intro hshort
  have hfar : 5 / 10 ^ 11 ≤ |(m : ℚ) * 2 ^ e - n.magnitude| :=
    not_lt.1 (mt (shown_eq_iff_lt hnearest h hlen).2 hne)
  have hpos : 0 < n.units 10 := by
    refine Nat.pos_of_ne_zero fun hzero => not_lt.2 hfar (abs_sub_lt_of_magnitude_lt hnearest h ?_)
    rw [magnitude_eq_div h, hzero]
    norm_num
  -- what is shown is no further from the double than the decimal, so it is near the decimal too
  have hshown : |(plainNumeral n.negative 10 m e).magnitude - m * 2 ^ e| ≤ 5 / 10 ^ 11 := by
    have hhalf := ((Decimal.nearest_iff (by positivity)).1 (nearest_plainUnits 10 m e)).1
    rw [Int.cast_natCast, mul_one_div] at hhalf
    rw [magnitude_plainNumeral (by decide)]
    exact hhalf.trans_eq (by norm_num)
  have hread := abs_sub_le_of_pos hnearest h hlen hpos
  have hnear : |(plainNumeral n.negative 10 m e).magnitude - n.magnitude| ≤
      n.magnitude / 2 ^ 52 := by
    calc |(plainNumeral n.negative 10 m e).magnitude - n.magnitude|
        ≤ |(plainNumeral n.negative 10 m e).magnitude - m * 2 ^ e| + |m * 2 ^ e - n.magnitude| :=
          abs_sub_le _ _ _
      _ ≤ n.magnitude / 2 ^ 53 + n.magnitude / 2 ^ 53 :=
          add_le_add (hshown.trans (hfar.trans hread)) hread
      _ = n.magnitude / 2 ^ 52 := by ring
  have hsame := Numeral.magnitude_eq_of_near h.exponent rfl (n.length_text.1.trans hlen)
    ((Numeral.length_text _).1.trans hshort) hnear
  exact hne ((shown_eq_iff h hlen).2 (plainUnits_of_magnitude h hsame))

end Nearest

/-! ## Typed and shown -/

theorem part_eq_nil_of_not_mem (h : '.' ∉ n.text) : n.part = [] := by
  cases hpart : n.part with
  | nil => rfl
  | cons d ds =>
    refine absurd ?_ h
    rw [Numeral.text, hpart]
    simp [Numeral.pointed]

theorem magnitude_nonneg (n : Numeral) : 0 ≤ n.magnitude :=
  mul_nonneg (Nat.cast_nonneg _) (by positivity)

theorem abs_value (n : Numeral) : |n.value| = n.magnitude :=
  (Binary64.abs_signed n.negative n.magnitude).trans (abs_of_nonneg (magnitude_nonneg n))

/-- No number that is a double is nearer to a decimal than the one nearest in magnitude, under its
sign. -/
theorem abs_sub_value_le (hnearest : ∀ negative' m' e', (Datum.finite negative' m' e').Fits →
      |(m : ℚ) * 2 ^ e - n.magnitude| ≤ |(m' : ℚ) * 2 ^ e' - n.magnitude|)
    {y : Float} {u : ℚ} (hu : value? y = some u) :
    |signed n.negative (m * 2 ^ e) - n.value| ≤ |u - n.value| := by
  obtain ⟨negative', m', e', hy, rfl⟩ := Binary64.value?_eq_some_iff.1 hu
  have hmagnitude : |signed negative' ((m' : ℚ) * 2 ^ e')| = m' * 2 ^ e' := by
    rw [Binary64.abs_signed, abs_of_nonneg (by positivity)]
  calc |signed n.negative (m * 2 ^ e) - n.value| = |m * 2 ^ e - n.magnitude| :=
        Binary64.abs_signed_sub n.negative _ _
    _ ≤ |m' * 2 ^ e' - n.magnitude| := hnearest negative' m' e' (hy ▸ Binary64.fits_datum y)
    _ = |(|signed negative' (m' * 2 ^ e')| - |n.value|)| := by rw [hmagnitude, abs_value]
    _ ≤ |signed negative' (m' * 2 ^ e') - n.value| := abs_abs_sub_abs_le _ _

/-- **A typed numeral that fits is shown as it was typed where its double is near enough.** It is
read as the double nearest to it, and shown exactly if that is less than half a unit of the tenth
place away: a whole number and a number below `2 ^ 19` always. Otherwise it is shown in scientific
form. -/
theorem typed_is_shown_iff (stack : Evaluator.Stack) {s : String}
    (hs : s.toList ∈ Decimal.Pattern.plain.matches')
    (hzero : s ≠ "-0") (hlen : s.length ≤ 15) :
    ∃ n x v display, Numeral.read? s.toList = some n ∧ value? x = some v ∧
      (∀ y u, value? y = some u → |v - n.value| ≤ |u - n.value|) ∧
      Calculator.evaluate { stack } s = .ok ⟨s, Number.ofFloat x, display⟩ ∧
      (display = s ↔ |v - n.value| < 5 / 10 ^ 11) ∧
      ('.' ∉ s.toList ∨ |n.value| < 2 ^ 19 → display = s) ∧
      (display ≠ s → ScientificText display) := by
  obtain ⟨n, h, htext⟩ := Decimal.Pattern.mem_plain_iff.1
    ⟨hs, fun heq => hzero (String.toList_inj.1 heq)⟩
  obtain rfl : String.ofList n.text = s := by rw [htext, String.ofList_toList]
  rw [String.length_ofList] at hlen
  obtain ⟨m, e, hdatum, hnearest⟩ := datum_treeOf h.toWellFormed h.exponent
    (h.length_part.trans (by decide)) (magnitude_lt_of_short h.exponent hlen)
  have hfits : (Datum.finite n.negative m e).Fits := hdatum ▸ Binary64.fits_datum _
  have hdisplay : text (treeOf n).value = .ok (String.ofList (shown n.negative m e).text) :=
    text_eq_ok_iff.2 ⟨n.negative, m, e, hdatum, by rw [finiteText_eq]⟩
  -- two texts of numerals are equal where the numerals are
  have hsame : String.ofList (shown n.negative m e).text = String.ofList n.text ↔
      shown n.negative m e = n := by
    rw [String.ofList_inj, Numeral.text_inj wellFormed_shown h.toWellFormed]
  have hdist : |signed n.negative ((m : ℚ) * 2 ^ e) - n.value| = |m * 2 ^ e - n.magnitude| :=
    Binary64.abs_signed_sub n.negative _ _
  refine ⟨n, (treeOf n).value, signed n.negative (m * 2 ^ e), _, ?_,
    Binary64.value?_of_datum hdatum, fun _ _ => abs_sub_value_le hnearest,
    evaluate_of_text h.toWellFormed h.exponent (hlen.trans (by decide)) hdisplay, ?_, ?_, ?_⟩
  · rw [String.toList_ofList]
    exact Numeral.read?_text h.toWellFormed
  · rw [hsame, hdist]
    exact shown_eq_iff_lt hnearest h hlen
  · -- a whole number is exact, and below `2 ^ 19` the unit in the last place is small enough
    intro hnear
    rw [hsame, shown_eq_iff_lt hnearest h hlen]
    rcases hnear with hpoint | hsmall
    · rw [String.toList_ofList] at hpoint
      rw [abs_sub_eq_zero_of_whole hnearest h hlen (part_eq_nil_of_not_mem hpoint)]
      norm_num
    · rw [abs_value] at hsmall
      exact abs_sub_lt_of_magnitude_lt hnearest h hsmall
  · -- a text that is not the typed one is beyond what is shown plainly
    intro hne
    have hlong := not_short_of_ne hnearest h hlen (mt hsame.2 hne)
    rw [(shown_of_long hlong).1]
    exact scientificText_scientificNumeral hfits hlong

/-- Fifteen digits are shown as they were typed. -/
theorem typed_fifteen_digits :
    "123456789012345".toList ∈ Decimal.Pattern.plain.matches' ∧
      ∃ a, Calculator.evaluate { stack := .usual } "123456789012345" = .ok a ∧
        a.display = "123456789012345" := by
  have hs : "123456789012345".toList ∈ Decimal.Pattern.plain.matches' := by
    rw [← RegularExpression.rmatch_iff_matches']
    decide +kernel
  obtain ⟨n, x, v, display, -, -, -, hevaluate, -, hshown, -⟩ :=
    typed_is_shown_iff .usual hs (by decide) (by decide)
  exact ⟨hs, _, hevaluate, hshown (.inl (by decide))⟩

/-- A little above `2 ^ 19` doubles lie too far apart for eight digits in all to be shown as they
were typed. -/
theorem typed_not_shown :
    "524288.06".toList ∈ Decimal.Pattern.plain.matches' ∧ "524288.06".length ≤ 15 ∧
      ∃ a, Calculator.evaluate { stack := .usual } "524288.06" = .ok a ∧
        a.display = "5.2428806000e+05" ∧ a.display ≠ "524288.06" := by
  have hs : "524288.06".toList ∈ Decimal.Pattern.plain.matches' := by
    rw [← RegularExpression.rmatch_iff_matches']
    decide +kernel
  have hshown : (Calculator.evaluate { stack := .usual } "524288.06").toOption.map Answer.display =
      some "5.2428806000e+05" := by decide +kernel
  obtain ⟨a, ha, hdisplay⟩ := Option.map_eq_some_iff.1 hshown
  exact ⟨hs, by decide, a, eq_ok_of_toOption ha, hdisplay, by rw [hdisplay]; decide⟩

end KeypadCalc.Display

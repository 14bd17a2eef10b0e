import KeypadCalc.Proofs.Decimal.Pattern
import KeypadCalc.Proofs.Display.Reentry

/-!
# KeypadCalc — the shape of the text on the display

Plain text is a canonical decimal of so many units (`canonical_plainNumeral`), so no zero at its end
is left behind the point, and every zero in front of it stays. It is too long only for numbers above
a thousand (`thousand_le_of_long`), and no double is as large as the thousandth power of ten. So the
power of ten in scientific form has no minus sign and two or three digits (`text_has_shape`).
-/

namespace KeypadCalc.Display

open Binary64 (Datum ratio signed value?)
open Decimal (Nearest Numeral digits significand)

variable {negative : Bool} {m : Nat} {e : Int}

/-- Plain text is too long only above a thousand. -/
theorem thousand_le_of_long (h : ¬ (plainNumeral negative 10 m e).text.length ≤ 15) :
    (10 : ℚ) ^ (3 : ℤ) ≤ m * 2 ^ e := by
  by_contra hlt
  refine h ?_
  have hle : plainUnits 10 m e ≤ 10 ^ 13 := by
    have hbelow : (m : ℚ) * 2 ^ e ≤ ((10 ^ 13 : ℤ) : ℚ) * (1 / 10 ^ 10) := by
      norm_num at hlt ⊢
      linarith
    exact_mod_cast (nearest_plainUnits 10 m e).le_of_le_mul (by positivity) hbelow
  rcases hle.lt_or_eq with hfew | hround
  · -- three digits in front of the point and ten behind it, a sign and the point
    have hwhole : (digits (plainUnits 10 m e / 10 ^ 10)).length ≤ 3 := by
      rw [Decimal.length_digits_le_iff (by decide), Nat.div_lt_iff_lt_mul (by decide)]
      exact hfew
    have hpart : (plainNumeral negative 10 m e).part.length ≤ 10 :=
      (canonical_plainNumeral (by decide)).length_part
    have hlen : (plainNumeral negative 10 m e).text.length ≤ _ := Numeral.length_text _ |>.2
    have hpower : (Numeral.powerText (plainNumeral negative 10 m e).exponent).length = 0 := rfl
    have hdigits : (plainNumeral negative 10 m e).whole.length ≤ 3 := hwhole
    omega
  · -- what is rounded to a thousand has no digits behind the point
    have hthousand : plainNumeral negative 10 m e = Numeral.ofUnits negative 10 (10 ^ 13) := by
      rw [← hround]
      rfl
    rw [hthousand]
    cases negative <;> decide

/-- Text in scientific form fits its pattern where the power of ten has no minus sign. -/
theorem scientificNumeral_mem (hm : 0 < m)
    (hpos : 0 ≤ (significand 10 (ratio m e).1 (ratio m e).2).2)
    (hlt : (significand 10 (ratio m e).1 (ratio m e).2).2 < 1000) :
    (scientificNumeral negative 10 m e).text ∈ Decimal.Pattern.scientific.matches' := by
  obtain ⟨hlow, hhigh, -⟩ := Decimal.significand_spec 10 (Binary64.ratio_fst_pos hm e)
    (Binary64.ratio_snd_pos m e)
  obtain ⟨d, hwhole, hdigit, hne⟩ := Decimal.digits_of_lt_ten
    (Nat.div_pos hlow (by decide)) ((Nat.div_lt_iff_lt_mul (by decide)).2 hhigh)
  rw [scientificNumeral, hwhole]
  exact Decimal.Pattern.text_mem_scientific negative hdigit hne
    (fun _ => Decimal.isDigit_of_mem_digitsPadded)
    (Decimal.length_digitsPadded (by decide) (Nat.mod_lt _ (by decide))) hpos hlt

/-! ## The shape -/

/-- Plain text for a number: a canonical decimal of at most fifteen characters with all digits of
the number in front of the point, rounded to ten places. -/
structure PlainText (v : ℚ) (s : String) : Prop where
  pattern : s.toList ∈ Decimal.Pattern.plain.matches'
  not_signed_zero : s ≠ "-0"
  length_le : s.length ≤ 15
  whole : ∃ n k, Numeral.read? s.toList = some n ∧ Nearest (1 / 10 ^ 10) |v| (k : ℕ) ∧
    n.whole = digits (k / 10 ^ 10)

/-- Text in scientific form, of sixteen to eighteen characters and with a power of ten of at least
a thousand. -/
structure ScientificText (s : String) : Prop where
  pattern : s.toList ∈ Decimal.Pattern.scientific.matches'
  le_length : 16 ≤ s.length
  length_le : s.length ≤ 18
  exponent : ∃ n E, Numeral.read? s.toList = some n ∧ n.exponent = some E ∧ 3 ≤ E

theorem plainText_plainNumeral (h : (plainNumeral negative 10 m e).text.length ≤ 15) :
    PlainText (signed negative (m * 2 ^ e)) (String.ofList (plainNumeral negative 10 m e).text) := by
  have hcanonical : (plainNumeral negative 10 m e).Canonical 10 :=
    canonical_plainNumeral (by decide)
  obtain ⟨hpattern, hzero⟩ := Decimal.Pattern.mem_plain_iff.2 ⟨_, hcanonical, rfl⟩
  constructor
  · rw [String.toList_ofList]
    exact hpattern
  · rw [ne_eq, ← String.toList_inj, String.toList_ofList]
    exact hzero
  · rw [String.length_ofList]
    exact h
  · refine ⟨plainNumeral negative 10 m e, plainUnits 10 m e, ?_, ?_, rfl⟩
    · rw [String.toList_ofList]
      exact Numeral.read?_text wellFormed_plainNumeral
    · rw [Binary64.abs_signed, abs_of_nonneg (by positivity)]
      exact nearest_plainUnits 10 m e

theorem scientificText_scientificNumeral (hfits : (Datum.finite negative m e).Fits)
    (h : ¬ (plainNumeral negative 10 m e).text.length ≤ 15) :
    ScientificText (String.ofList (scientificNumeral negative 10 m e).text) := by
  have hm := (shown_of_long h).2
  -- what does not fit plainly is at least a thousand, so its exponent is at least three
  have hthousand := thousand_le_of_long h
  rw [← Binary64.ratio_eq] at hthousand
  have hleast := Decimal.le_exponent 10 (Binary64.ratio_fst_pos hm e) (Binary64.ratio_snd_pos m e)
    hthousand
  have hpattern : (scientificNumeral negative 10 m e).text ∈ _ :=
    scientificNumeral_mem hm (by omega) (exponent_lt hfits hm)
  obtain ⟨hlow, hhigh⟩ := Decimal.Pattern.between_scientific _ hpattern
  constructor
  · rw [String.toList_ofList]
    exact hpattern
  · rw [String.length_ofList]
    exact hlow
  · rw [String.length_ofList]
    exact hhigh
  · refine ⟨scientificNumeral negative 10 m e, _, ?_, rfl, hleast⟩
    rw [String.toList_ofList]
    exact Numeral.read?_text wellFormed_scientificNumeral

/-- **The text on the display has one of two shapes.** A finite result is shown by a decimal that
rounds it, which is a canonical one of at most fifteen characters, or in scientific form with a power
of ten of at least a thousand. -/
theorem text_has_shape {x : Float} {v : ℚ} (hx : value? x = some v) :
    ∃ s n, text x = .ok s ∧ Numeral.read? s.toList = some n ∧ Faithful v n ∧
      (PlainText v s ∨ ScientificText s) := by
  obtain ⟨negative, m, e, hdatum, rfl⟩ := Binary64.value?_eq_some_iff.1 hx
  have hfits : (Datum.finite negative m e).Fits := hdatum ▸ Binary64.fits_datum x
  have hread : Numeral.read? (String.ofList (shown negative m e).text).toList =
      some (shown negative m e) := by
    rw [String.toList_ofList]
    exact Numeral.read?_text wellFormed_shown
  refine ⟨_, _, text_eq_ok_iff.2 ⟨negative, m, e, hdatum, by rw [finiteText_eq]⟩, hread,
    faithful_shown negative m e, ?_⟩
  by_cases hshort : (plainNumeral negative 10 m e).text.length ≤ 15
  · rw [shown_of_short hshort]
    exact .inl (plainText_plainNumeral hshort)
  · rw [(shown_of_long hshort).1]
    exact .inr (scientificText_scientificNumeral hfits hshort)

/-- A little more than a million has a shape. -/
theorem shape_of_million :
    value? 1048576.125 = some (8388609 / 8) ∧
      ∃ s n, text 1048576.125 = .ok s ∧ Numeral.read? s.toList = some n ∧
        Faithful (8388609 / 8) n ∧ (PlainText (8388609 / 8) s ∨ ScientificText s) := by
  have hvalue : value? 1048576.125 = some (8388609 / 8) :=
    Binary64.value?_eq_some_iff.2 ⟨false, 4503600164241408, -32, by decide +kernel, by norm_num⟩
  exact ⟨hvalue, text_has_shape hvalue⟩

end KeypadCalc.Display

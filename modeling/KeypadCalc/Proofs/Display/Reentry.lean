import KeypadCalc.Proofs.Binary64.Nearest
import KeypadCalc.Proofs.Calculator
import KeypadCalc.Proofs.Display.Faithful
import KeypadCalc.Proofs.Grammar.Evaluation
import KeypadCalc.Proofs.Token.Numeral

/-!
# KeypadCalc — entering what the display shows

Plain text is an expression of its own. It is read as the double nearest to the decimal shown, which
is no further from that decimal than the double it was shown for; so the decimal is the one that is
shown for it too (`plainUnits_of_closer`). Text in scientific form is refused at its mark `e`. Either
way the text is short enough to be evaluated (`length_text_shown_le`). So what is shown is shown
again, or is refused there (`evaluate_text`).
-/

namespace KeypadCalc.Display

open Binary64 (Datum datum ofDecimal)
open Decimal (Numeral)

variable {stack : Evaluator.Stack} {negative : Bool} {places m : Nat} {e : Int}

theorem shown_of_short (h : (plainNumeral negative 10 m e).text.length ≤ 15) :
    shown negative m e = plainNumeral negative 10 m e := by
  have hplain : plain negative m e = (plainNumeral negative 10 m e).text :=
    text_plainNumeral (by decide)
  exact if_pos (hplain ▸ h)

theorem shown_of_long (h : ¬ (plainNumeral negative 10 m e).text.length ≤ 15) :
    shown negative m e = scientificNumeral negative 10 m e ∧ 0 < m := by
  have hplain : plain negative m e = (plainNumeral negative 10 m e).text :=
    text_plainNumeral (by decide)
  exact ⟨if_neg (hplain ▸ h), pos_of_long (hplain ▸ h)⟩

/-! ## Shown again -/

/-- Of the numbers that are no further from a decimal shown, that decimal is shown. -/
theorem plainUnits_of_closer {m' : Nat} {e' : Int}
    (h : |(m' : ℚ) * 2 ^ e' - plainUnits places m e / 10 ^ places| ≤
      |(m : ℚ) * 2 ^ e - plainUnits places m e / 10 ^ places|) :
    plainUnits places m' e' = plainUnits places m e := by
  have hunit : (0 : ℚ) < 1 / 10 ^ places := by positivity
  rw [div_eq_mul_one_div] at h
  have hnear := (nearest_plainUnits places m e).of_abs_sub_le hunit h
  exact_mod_cast (nearest_plainUnits places m' e').unique hunit hnear

/-- Plain text depends on a magnitude by its units alone. -/
theorem plainNumeral_of_units (negative : Bool) {m' : Nat} {e' : Int}
    (h : plainUnits places m' e' = plainUnits places m e) :
    plainNumeral (plainNumeral negative places m e).negative places m' e' =
      plainNumeral negative places m e := by
  simp [plainNumeral, h]

/-- A decimal of at most fifteen characters is not too large for a double. -/
theorem magnitude_lt_of_short {n : Numeral} (hnone : n.exponent = none) (hlen : n.text.length ≤ 15) :
    n.magnitude < 2 ^ 1023 := by
  have hdigits := n.length_text.1
  calc n.magnitude < 10 ^ n.whole.length := Numeral.magnitude_lt hnone
    _ ≤ 10 ^ 15 := pow_le_pow_right₀ (by norm_num) (by omega)
    _ ≤ 2 ^ 60 := by norm_num
    _ ≤ 2 ^ 1023 := pow_le_pow_right₀ one_le_two (by decide)

/-! ## Read as the nearest double -/

/-- The tree of a decimal without a power of ten. -/
def treeOf (n : Numeral) : Grammar.Tree .sum :=
  let numeral := Grammar.Tree.number (String.ofList (n.whole ++ Numeral.pointed n.part))
  .ofProduct (.ofFactor (.ofBase (if n.negative then .negate numeral else numeral)))

theorem evaluate_of_exponent_eq_none {n : Numeral} (h : n.WellFormed) (hnone : n.exponent = none) :
    Evaluator.evaluate stack Evaluator.defaultMaxDepth (String.ofList n.text) =
      .ok (treeOf n).value := by
  have hlexemes : Token.lexemes (String.ofList n.text) = .ok (Token.frontTokens n) := by
    rw [Token.lexemes_text h, hnone]
  have hdepth : (treeOf n).depth ≤ 2 := by
    rw [treeOf]
    cases n.negative with
    | false => exact (by decide : 1 ≤ 2)
    | true => exact (by decide : 2 ≤ 2)
  rw [Evaluator.evaluate, hlexemes]
  refine Grammar.whole_eq_ok_iff.2 ⟨treeOf n, ?_, hdepth.trans (by decide),
    Grammar.calls_le_of_depth stack (hdepth.trans (by decide)), ?_, rfl⟩
  · rw [treeOf, Token.frontTokens]
    cases n.negative <;> rfl
  · rw [treeOf]
    cases n.negative <;> exact trivial

/-- A decimal that is not too large is read as the nearest double, under its sign. -/
theorem datum_treeOf {n : Numeral} (h : n.WellFormed) (hnone : n.exponent = none)
    (hplaces : n.part.length ≤ 1000) (hsize : n.magnitude < 2 ^ 1023) :
    ∃ m e, datum (treeOf n).value = .finite n.negative m e ∧
      ∀ negative' m' e', (Datum.finite negative' m' e').Fits →
        |(m : ℚ) * 2 ^ e - n.magnitude| ≤ |(m' : ℚ) * 2 ^ e' - n.magnitude| := by
  have hmagnitude : n.magnitude =
      (Text.numberOfDigits (n.whole ++ n.part) : ℚ) / 10 ^ n.part.length := by
    rw [Numeral.magnitude, hnone, Option.getD_none, zero_sub, zpow_neg, zpow_natCast,
      div_eq_mul_inv]
  rw [hmagnitude] at hsize ⊢
  obtain ⟨m, e, hdatum, hnearest⟩ := Binary64.datum_ofDecimal false hplaces hsize
  refine ⟨m, e, ?_, hnearest⟩
  -- the tree holds the digits without the sign, which it puts in front as a negation
  have hnumeral : Token.numeralValue (String.ofList (n.whole ++ Numeral.pointed n.part)).toList =
      ofDecimal false (Text.numberOfDigits (n.whole ++ n.part)) (-(n.part.length : ℤ)) := by
    rw [String.toList_ofList, Token.numeralValue_unsigned h]
  rw [← hnumeral] at hdatum
  rw [treeOf]
  cases n.negative with
  | false => exact hdatum
  | true => exact (Binary64.datum_neg _).trans (congrArg Datum.neg hdatum)

/-- Plain text that fits is read as a double that it is shown for. -/
theorem text_of_reading (hfits : (Datum.finite negative m e).Fits)
    (hshort : (plainNumeral negative 10 m e).text.length ≤ 15) :
    text (treeOf (plainNumeral negative 10 m e)).value =
      .ok (String.ofList (plainNumeral negative 10 m e).text) := by
  have hplaces : (plainNumeral negative 10 m e).part.length ≤ 1000 := by
    have hlen := (plainNumeral negative 10 m e).length_text.1
    omega
  obtain ⟨m', e', hdatum, hnearest⟩ := datum_treeOf wellFormed_plainNumeral rfl hplaces
    (magnitude_lt_of_short rfl hshort)
  -- the double read is as near to the decimal as the one it was shown for
  have hcloser := hnearest negative m e hfits
  rw [magnitude_plainNumeral (by decide)] at hcloser
  have hunits := plainUnits_of_closer hcloser
  have hagain := plainNumeral_of_units negative hunits
  refine text_eq_ok_iff.2 ⟨_, m', e', hdatum, ?_⟩
  rw [finiteText_eq, shown_of_short (by rw [hagain]; exact hshort), hagain]

/-! ## Short enough to be evaluated -/

theorem isBlank_of_isDigit {c : Char} (h : c.isDigit = true) : Text.isBlank c = false := by
  obtain ⟨hlow, hhigh⟩ := Text.isAscii_digit h
  rw [Bool.eq_false_iff]
  intro hblank
  simp only [Text.isBlank, Text.isWhiteSpace, Text.isInformationSeparator, Bool.or_eq_true,
    Bool.and_eq_true, decide_eq_true_eq, beq_iff_eq] at hblank
  omega

/-- A decimal holds no blanks. -/
theorem isBlank_of_mem_text {n : Numeral} (h : n.WellFormed) :
    ∀ c ∈ n.text, Text.isBlank c = false := by
  have hmarks : Numeral.marks.all (Text.isBlank · == false) = true := by decide
  intro c hc
  rcases Numeral.isDigit_or_mem_marks h hc with hdigit | hmark
  · exact isBlank_of_isDigit hdigit
  · exact eq_of_beq (List.all_eq_true.1 hmarks c hmark)

/-- The power of ten of a double is below that of the largest one. -/
theorem exponent_lt (hfits : (Datum.finite negative m e).Fits) (hm : 0 < m) :
    (Decimal.significand 10 (Binary64.ratio m e).1 (Binary64.ratio m e).2).2 < 1000 := by
  have hmost := Binary64.magnitude_le_ten_pow hfits
  rw [← zpow_natCast, ← Binary64.ratio_eq] at hmost
  have hle := Decimal.exponent_le (by decide : 0 < 10) (Binary64.ratio_fst_pos hm e)
    (Binary64.ratio_snd_pos m e) hmost
  exact hle.trans_lt (by decide)

/-- The power of ten of a double has four digits at most. -/
theorem natAbs_exponent_lt (hfits : (Datum.finite negative m e).Fits) (hm : 0 < m) :
    (Decimal.significand 10 (Binary64.ratio m e).1 (Binary64.ratio m e).2).2.natAbs < 10 ^ 4 := by
  have hleast := Binary64.ten_zpow_le_magnitude hfits hm
  rw [← Binary64.ratio_eq] at hleast
  have hle := Decimal.le_exponent 10 (Binary64.ratio_fst_pos hm e) (Binary64.ratio_snd_pos m e)
    hleast
  have hlt := exponent_lt hfits hm
  omega

theorem length_text_shown_le (hfits : (Datum.finite negative m e).Fits) :
    (shown negative m e).text.length ≤ 1000 := by
  by_cases hshort : (plainNumeral negative 10 m e).text.length ≤ 15
  · rw [shown_of_short hshort]
    omega
  · obtain ⟨hscientific, hm⟩ := shown_of_long hshort
    obtain ⟨-, hhigh, -⟩ := Decimal.significand_spec 10 (Binary64.ratio_fst_pos hm e)
      (Binary64.ratio_snd_pos m e)
    -- one digit in front of the point, ten behind it, and an exponent of a few
    have hpower := Numeral.length_powerText_le (by decide : 0 < 4) (natAbs_exponent_lt hfits hm)
    have hpart := Decimal.length_digitsPadded (by decide : 0 < 10)
      (Nat.mod_lt (Decimal.significand 10 (Binary64.ratio m e).1 (Binary64.ratio m e).2).1
        (by decide : 0 < 10 ^ 10))
    have hwhole := (Decimal.length_digits_le_iff (by decide : 0 < 1)).2
      ((Nat.div_lt_iff_lt_mul (by decide : 0 < 10 ^ 10)).2 hhigh)
    have hlen := (scientificNumeral negative 10 m e).length_text.2
    rw [hscientific]
    simp only [scientificNumeral] at hlen ⊢
    omega

/-- A decimal of at most a thousand characters is admitted as it is. -/
theorem accept_text {n : Numeral} (h : n.WellFormed) (hlen : n.text.length ≤ 1000) :
    Calculator.accept { stack } (String.ofList n.text) = .ok (String.ofList n.text) := by
  -- under a name of its own the text is not taken apart by what follows
  obtain ⟨s, hs⟩ : ∃ s, s = String.ofList n.text := ⟨_, rfl⟩
  have hchars : s.toList = n.text := by rw [hs, String.toList_ofList]
  have htrim : Text.trim s = s := by
    refine Text.trim_eq_self fun c hc => ?_
    rw [hchars] at hc
    exact isBlank_of_mem_text h c hc
  have hnonempty : s.isEmpty = false := by
    rw [Bool.eq_false_iff, ne_eq, String.isEmpty_iff, ← String.toList_inj, hchars]
    exact Numeral.text_ne_nil h
  have hlength : ¬ (1000 : ℤ) < s.length := by
    rw [hs, String.length_ofList]
    omega
  rw [← hs, Calculator.accept, htrim, hnonempty]
  exact (if_neg (by decide)).trans (if_neg hlength)

/-- A decimal without a power of ten is evaluated, and what is shown for the double it is read as is
shown for it. -/
theorem evaluate_of_text {n : Numeral} (h : n.WellFormed) (hnone : n.exponent = none)
    (hlen : n.text.length ≤ 1000) {display : String} (htext : text (treeOf n).value = .ok display) :
    Calculator.evaluate { stack } (String.ofList n.text) =
      .ok ⟨String.ofList n.text, Number.ofFloat (treeOf n).value, display⟩ := by
  rw [Calculator.evaluate, accept_text h hlen]
  show (Calculator.compute { stack } _ >>= _) = _
  rw [Calculator.compute, evaluate_of_exponent_eq_none h hnone]
  simp only [htext]
  rfl

/-- Plain text that fits is evaluated, and shown as it is. -/
theorem evaluate_plainNumeral (hfits : (Datum.finite negative m e).Fits)
    (hshort : (plainNumeral negative 10 m e).text.length ≤ 15) :
    Calculator.evaluate { stack } (String.ofList (plainNumeral negative 10 m e).text) =
      .ok ⟨String.ofList (plainNumeral negative 10 m e).text,
        Number.ofFloat (treeOf (plainNumeral negative 10 m e)).value,
        String.ofList (plainNumeral negative 10 m e).text⟩ :=
  evaluate_of_text wellFormed_plainNumeral rfl (hshort.trans (by decide))
    (text_of_reading hfits hshort)

/-- Text in scientific form is refused at its mark. -/
theorem evaluate_scientificNumeral (hfits : (Datum.finite negative m e).Fits)
    (hlong : ¬ (plainNumeral negative 10 m e).text.length ≤ 15) :
    Calculator.evaluate { stack } (String.ofList (scientificNumeral negative 10 m e).text) =
      .error (.faulty (String.ofList (scientificNumeral negative 10 m e).text)
        Evaluator.defaultMaxDepth
        (.stray ⟨'e', (scientificNumeral negative 10 m e).text.idxOf 'e'⟩)) := by
  have hlen := length_text_shown_le hfits
  rw [(shown_of_long hlong).1] at hlen
  have haccept : Calculator.accept { stack } _ = .ok _ :=
    accept_text (n := scientificNumeral negative 10 m e) wellFormed_scientificNumeral hlen
  have hlexemes := Token.lexemes_text (n := scientificNumeral negative 10 m e)
    wellFormed_scientificNumeral
  rw [Calculator.evaluate, haccept]
  -- the text is accepted as it is, and cannot be cut into tokens at the mark of its exponent
  show (Calculator.compute { stack } _ >>= _) = _
  rw [Calculator.compute, Evaluator.evaluate, hlexemes]
  rfl

/-- **What the display shows can be entered again.** Plain text is evaluated, and shown as it is;
text in scientific form is refused as invalid at the place of its mark `e`. -/
theorem evaluate_text (stack : Evaluator.Stack) (x : Float) (hx : Binary64.isFinite x = true) :
    ∃ s, text x = .ok s ∧
      ('e' ∉ s.toList → ∃ a, Calculator.evaluate { stack } s = .ok a ∧ a.display = s) ∧
      ('e' ∈ s.toList → ∃ error, Calculator.evaluate { stack } s = .error error ∧
        error.failure.kind = .invalidExpression ∧
        error.failure.details.lookup "position" = some (.int (s.toList.idxOf 'e'))) := by
  cases hdatum : datum x with
  | nan => simp [Binary64.isFinite, hdatum] at hx
  | infinite negative => simp [Binary64.isFinite, hdatum] at hx
  | finite negative m e =>
    have hfits : (Datum.finite negative m e).Fits := hdatum ▸ Binary64.fits_datum x
    have htext : text x = .ok (String.ofList (shown negative m e).text) :=
      text_eq_ok_iff.2 ⟨negative, m, e, hdatum, by rw [finiteText_eq]⟩
    refine ⟨_, htext, ?_, ?_⟩
    · -- without an exponent the text is plain, and is read back
      intro hmark
      rw [String.toList_ofList, Token.mem_text_iff wellFormed_shown, not_not] at hmark
      by_cases hshort : (plainNumeral negative 10 m e).text.length ≤ 15
      · rw [shown_of_short hshort]
        exact ⟨_, evaluate_plainNumeral hfits hshort, rfl⟩
      · rw [(shown_of_long hshort).1] at hmark
        cases hmark
    · -- with one it is scientific, and the mark of the exponent is at fault
      intro hmark
      rw [String.toList_ofList, Token.mem_text_iff wellFormed_shown] at hmark
      by_cases hshort : (plainNumeral negative 10 m e).text.length ≤ 15
      · rw [shown_of_short hshort] at hmark
        exact absurd rfl hmark
      · rw [(shown_of_long hshort).1, String.toList_ofList]
        exact ⟨_, evaluate_scientificNumeral hfits hshort, rfl, rfl⟩

/-- A third below zero can be entered again. -/
theorem evaluate_text_third :
    Binary64.isFinite (-1.0 / 3.0) = true ∧ ∃ s, text (-1.0 / 3.0) = .ok s ∧
      ('e' ∉ s.toList → ∃ a, Calculator.evaluate { stack := .usual } s = .ok a ∧ a.display = s) ∧
      ('e' ∈ s.toList → ∃ error, Calculator.evaluate { stack := .usual } s = .error error ∧
        error.failure.kind = .invalidExpression ∧
        error.failure.details.lookup "position" = some (.int (s.toList.idxOf 'e'))) :=
  ⟨by decide +kernel, evaluate_text .usual (-1.0 / 3.0) (by decide +kernel)⟩

end KeypadCalc.Display

import KeypadCalc.Proofs.Decimal.Digits
import KeypadCalc.Text.Number
import Mathlib.Algebra.Order.Field.Power
import Mathlib.Algebra.Order.Ring.Rat

/-!
# KeypadCalc — decimals in writing

A `Numeral` is a decimal as it is written: a sign, the digits on both sides of the point, and the
power of ten behind the mark `e`, where there is one. `Numeral.value` is the rational number that it
denotes, exactly. `Numeral.read?` reads one from a text, and gets back what was written
(`read?_text`).
-/

namespace KeypadCalc.Decimal

/-- A decimal as it is written. -/
structure Numeral where
  negative : Bool
  /-- The digits in front of the point. -/
  whole : List Char
  /-- The digits behind the point; there is no point where there are none. -/
  part : List Char
  exponent : Option Int
  deriving DecidableEq, Repr

namespace Numeral

/-- The number that a decimal denotes, apart from its sign. -/
def magnitude (n : Numeral) : ℚ :=
  Text.numberOfDigits (n.whole ++ n.part) * 10 ^ (n.exponent.getD 0 - n.part.length)

/-- The number that a decimal denotes. -/
def value (n : Numeral) : ℚ :=
  if n.negative then -n.magnitude else n.magnitude

/-- Digits behind a point, which is left out where there are none. -/
def pointed : List Char → List Char
  | [] => []
  | d :: ds => '.' :: d :: ds

/-- A power of ten in writing, with two digits or more; it may be left out. -/
def powerText : Option Int → List Char
  | none => []
  | some e => exponentText 2 e

/-- A decimal in writing. -/
def text (n : Numeral) : List Char :=
  (if n.negative then ['-'] else []) ++ (n.whole ++ (pointed n.part ++ powerText n.exponent))

/-- The digits behind a point, if one comes next, and what follows them. -/
def readPart : List Char → List Char × List Char
  | '.' :: behind => (behind.takeWhile Char.isDigit, behind.dropWhile Char.isDigit)
  | rest => ([], rest)

/-- The power of ten that a decimal ends in, if it does not end at once. -/
def readPower? : List Char → Option (Option Int)
  | [] => some none
  | 'e' :: rest =>
    let (negative, ds) := Text.signed rest
    if ds ≠ [] ∧ ds.all Char.isDigit then
      some (some (Text.applySign negative (Text.numberOfDigits ds)))
    else none
  | _ => none

/-- A decimal is as long as its digits and its power of ten, and at most a sign and a point
longer. -/
theorem length_text (n : Numeral) :
    n.whole.length + n.part.length ≤ n.text.length ∧
      n.text.length ≤ n.whole.length + n.part.length + (powerText n.exponent).length + 2 := by
  have hsign : (if n.negative then ['-'] else []).length ≤ 1 := by
    split <;> decide
  have hpart : n.part.length ≤ (pointed n.part).length ∧
      (pointed n.part).length ≤ n.part.length + 1 := by
    cases n.part with
    | nil => exact ⟨le_rfl, Nat.zero_le _⟩
    | cons d ds => exact ⟨Nat.le_succ _, le_rfl⟩
  rw [text, List.length_append, List.length_append, List.length_append]
  omega

/-- A power of ten is written with a mark, a sign and its digits, or with two of these. -/
theorem length_powerText_le {e : Int} {width : Nat} (hwidth : 0 < width)
    (h : e.natAbs < 10 ^ width) : (powerText (some e)).length ≤ width + 4 := by
  have hdigits := (length_digits_le_iff hwidth).2 h
  show (digitsPadded 2 e.natAbs).length + 1 + 1 ≤ width + 4
  rw [digitsPadded, List.length_append, List.length_replicate]
  omega

/-- A decimal is below the power of ten that it has digits in front of the point for. -/
theorem magnitude_lt {n : Numeral} (hexponent : n.exponent = none) :
    n.magnitude < 10 ^ n.whole.length := by
  have hlt := Text.numberOfDigits_lt (n.whole ++ n.part)
  rw [List.length_append, Nat.pow_add] at hlt
  rw [magnitude, hexponent, Option.getD_none, zero_sub, zpow_neg, zpow_natCast, ← div_eq_mul_inv,
    div_lt_iff₀ (by positivity)]
  exact_mod_cast hlt

/-- Reads a decimal: a sign or none, digits, perhaps a point and digits, and perhaps a power of
ten. -/
def read? (cs : List Char) : Option Numeral :=
  let (negative, unsigned) := Text.signed cs
  let whole := unsigned.takeWhile Char.isDigit
  let (part, tail) := readPart (unsigned.dropWhile Char.isDigit)
  if whole = [] then none
  else (readPower? tail).map fun exponent => ⟨negative, whole, part, exponent⟩

/-- There are digits in front of the point, and all that stands for a digit is one. -/
structure WellFormed (n : Numeral) : Prop where
  whole_ne_nil : n.whole ≠ []
  isDigit_whole : ∀ c ∈ n.whole, c.isDigit = true
  isDigit_part : ∀ c ∈ n.part, c.isDigit = true

/-- What stands in a decimal beside its digits. -/
def marks : List Char :=
  ['-', '.', 'e', '+']

/-- A decimal is written in digits and marks. -/
theorem isDigit_or_mem_marks {n : Numeral} (h : n.WellFormed) {c : Char} (hc : c ∈ n.text) :
    c.isDigit = true ∨ c ∈ marks := by
  rw [text, List.mem_append, List.mem_append, List.mem_append] at hc
  -- a character of the text is in one of its four parts
  rcases hc with hsign | hwhole | hpart | hpower
  · cases hn : n.negative <;> simp [hn] at hsign
    exact .inr (by simp [hsign, marks])
  · exact .inl (h.isDigit_whole c hwhole)
  · cases hp : n.part with
    | nil => simp [hp, pointed] at hpart
    | cons d ds =>
      rw [hp] at hpart
      rcases List.mem_cons.1 hpart with rfl | hdigit
      · exact .inr (by decide)
      · exact .inl (h.isDigit_part c (hp ▸ hdigit))
  · cases he : n.exponent with
    | none => simp [he, powerText] at hpower
    | some e =>
      rw [he] at hpower
      rcases List.mem_cons.1 hpower with rfl | hpower
      · exact .inr (by decide)
      · rcases List.mem_cons.1 hpower with rfl | hdigit
        · refine .inr ?_
          split <;> decide
        · exact .inl (isDigit_of_mem_digitsPadded hdigit)

theorem text_ne_nil {n : Numeral} (h : n.WellFormed) : n.text ≠ [] := by
  intro hnil
  have hlen := n.length_text.1
  have hwhole := List.length_pos_iff.2 h.whole_ne_nil
  rw [hnil, List.length_nil] at hlen
  omega

/-! ## Reading back -/

theorem ends_powerText {p : Char → Bool} (hp : p 'e' = false) (e : Option Int) :
    Text.Ends p (powerText e) := by
  cases e with
  | none => exact Text.ends_nil p
  | some e => exact Text.ends_cons hp _

theorem ends_pointed {p : Char → Bool} (hpoint : p '.' = false) (hp : p 'e' = false)
    (part : List Char) (e : Option Int) : Text.Ends p (pointed part ++ powerText e) := by
  cases part with
  | nil => exact ends_powerText hp e
  | cons d ds => exact Text.ends_cons hpoint _

theorem readPart_pointed {part : List Char} (h : ∀ c ∈ part, c.isDigit = true) (e : Option Int) :
    readPart (pointed part ++ powerText e) = (part, powerText e) := by
  cases part with
  | nil => cases e <;> rfl
  | cons d ds =>
    have hends := ends_powerText (p := Char.isDigit) rfl e
    show (((d :: ds) ++ powerText e).takeWhile Char.isDigit,
      ((d :: ds) ++ powerText e).dropWhile Char.isDigit) = _
    rw [Text.takeWhile_of_ends h hends, Text.dropWhile_of_ends h hends]

/-- The exponent that is written is the one that is read, whatever its sign and length. -/
theorem readPower?_powerText (e : Option Int) : readPower? (powerText e) = some e := by
  cases e with
  | none => rfl
  | some e =>
    have hdigits : (digitsPadded 2 e.natAbs).all Char.isDigit = true :=
      List.all_eq_true.2 fun c hc => isDigit_of_mem_digitsPadded hc
    have hread := And.intro (digitsPadded_ne_nil 2 e.natAbs) hdigits
    have hvalue := numberOfDigits_digitsPadded 2 e.natAbs
    rw [powerText, exponentText]
    -- the sign is written in either case, and read off before the digits
    split
    · next hneg =>
      simp only [readPower?, Text.signed, if_pos hread, hvalue, Text.applySign]
      rw [if_pos trivial]
      congr 2
      omega
    · next hpos =>
      simp only [readPower?, Text.signed, if_pos hread, hvalue, Text.applySign]
      rw [if_neg (by decide)]
      congr 2
      omega

theorem signed_of_digit {c : Char} (h : c.isDigit = true) (cs : List Char) :
    Text.signed (c :: cs) = (false, c :: cs) := by
  unfold Text.signed
  split
  · next heq =>
    rw [(List.cons.inj heq).1] at h
    exact absurd h (by decide)
  · next heq =>
    rw [(List.cons.inj heq).1] at h
    exact absurd h (by decide)
  · rfl

theorem signed_text {n : Numeral} (h : n.WellFormed) :
    Text.signed n.text = (n.negative, n.whole ++ (pointed n.part ++ powerText n.exponent)) := by
  rw [text]
  cases n.negative with
  | true => rfl
  | false =>
    obtain ⟨c, cs, hwhole⟩ := List.exists_cons_of_ne_nil h.whole_ne_nil
    have hdigit := h.isDigit_whole c (hwhole ▸ List.mem_cons_self)
    rw [if_neg (by decide), List.nil_append, hwhole]
    exact signed_of_digit hdigit _

/-- What is written is read back. -/
theorem read?_text {n : Numeral} (h : n.WellFormed) : read? n.text = some n := by
  have hends := ends_pointed (p := Char.isDigit) rfl rfl n.part n.exponent
  rw [read?, signed_text h]
  simp only
  rw [Text.takeWhile_of_ends h.isDigit_whole hends, Text.dropWhile_of_ends h.isDigit_whole hends,
    readPart_pointed h.isDigit_part, if_neg h.whole_ne_nil]
  simp only
  rw [readPower?_powerText]
  rfl

/-- Decimals are told apart by what is written. -/
theorem text_inj {n n' : Numeral} (h : n.WellFormed) (h' : n'.WellFormed) :
    n.text = n'.text ↔ n = n' := by
  refine ⟨fun htext => ?_, congrArg text⟩
  have hread := read?_text h
  rw [htext, read?_text h'] at hread
  exact (Option.some.inj hread).symm

end Numeral

end KeypadCalc.Decimal

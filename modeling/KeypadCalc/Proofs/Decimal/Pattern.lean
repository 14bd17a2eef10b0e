import KeypadCalc.Proofs.Decimal.Canonical
import Mathlib.Computability.RegularExpressions
import Mathlib.Tactic.FinCases
import Mathlib.Tactic.IntervalCases

/-!
# KeypadCalc — the patterns of decimals

Decimals in writing fit regular expressions: the canonical ones with ten places at most are the texts
of one pattern, but for a zero under a sign (`mem_plain_iff`), and those in scientific form fit
another one (`text_mem_scientific`), of sixteen to eighteen characters (`between_scientific`).
-/

namespace KeypadCalc.Decimal.Pattern

open Numeral (pointed powerText)

/-- One of some characters. -/
def anyOf (cs : List Char) : RegularExpression Char :=
  (cs.map .char).sum

/-- What fits a pattern, or nothing. -/
def optional (r : RegularExpression Char) : RegularExpression Char :=
  1 + r

/-- `[0-9]` -/
def digit : RegularExpression Char :=
  anyOf ['0', '1', '2', '3', '4', '5', '6', '7', '8', '9']

/-- `[1-9]` -/
def nonzero : RegularExpression Char :=
  anyOf ['1', '2', '3', '4', '5', '6', '7', '8', '9']

/-- `-?` -/
def sign : RegularExpression Char :=
  optional (.char '-')

/-- `0|[1-9][0-9]*` -/
def whole : RegularExpression Char :=
  .char '0' + nonzero * digit.star

/-- `(\.[0-9]{0,9}[1-9])?` -/
def part : RegularExpression Char :=
  optional (.char '.' * (optional digit ^ 9 * nonzero))

/-- `-?(0|[1-9][0-9]*)(\.[0-9]{0,9}[1-9])?` -/
def plain : RegularExpression Char :=
  sign * (whole * part)

/-- `e\+[0-9]{2,3}` -/
def power : RegularExpression Char :=
  .char 'e' * (.char '+' * (digit ^ 2 * optional digit))

/-- `-?[1-9]\.[0-9]{10}e\+[0-9]{2,3}` -/
def scientific : RegularExpression Char :=
  sign * (nonzero * (.char '.' * (digit ^ 10 * power)))

variable {r s : RegularExpression Char} {w : List Char}

/-- One expression behind another matches the words that split into a word of each. -/
theorem mem_mul : w ∈ (r * s).matches' ↔ ∃ a ∈ r.matches', ∃ b ∈ s.matches', a ++ b = w := by
  rw [RegularExpression.matches'_mul]
  exact Language.mem_mul

/-- Words of two expressions make one of the two in a row. -/
theorem append_mem {a b : List Char} (ha : a ∈ r.matches') (hb : b ∈ s.matches') :
    a ++ b ∈ (r * s).matches' :=
  mem_mul.2 ⟨a, ha, b, hb, rfl⟩

theorem mem_char {c : Char} : w ∈ (RegularExpression.char c).matches' ↔ w = [c] := by
  rw [RegularExpression.matches'_char]
  exact Iff.rfl

theorem mem_optional : w ∈ (optional r).matches' ↔ w = [] ∨ w ∈ r.matches' := by
  rw [optional, RegularExpression.matches'_add, RegularExpression.matches'_epsilon]
  exact Iff.rfl

/-- A choice of characters matches each of them alone. -/
theorem mem_anyOf {cs : List Char} : w ∈ (anyOf cs).matches' ↔ ∃ c ∈ cs, w = [c] := by
  induction cs with
  | nil =>
    rw [anyOf, List.map_nil, List.sum_nil, RegularExpression.matches'_zero]
    simp
  | cons c cs ih =>
    have hsum : anyOf (c :: cs) = .char c + anyOf cs := List.sum_cons
    rw [hsum, RegularExpression.matches'_add, Language.mem_add, mem_char, ih]
    simp

/-- A pattern of one character, of a class. -/
def OneOf (p : Char → Prop) (r : RegularExpression Char) : Prop :=
  ∀ w, w ∈ r.matches' ↔ ∃ c, p c ∧ w = [c]

variable {p : Char → Prop}

theorem OneOf.mem_star (h : OneOf p r) : w ∈ r.star.matches' ↔ ∀ c ∈ w, p c := by
  rw [RegularExpression.matches'_star, Language.mem_kstar]
  constructor
  · rintro ⟨pieces, rfl, hpieces⟩ c hc
    obtain ⟨piece, hpiece, hc⟩ := List.mem_flatten.1 hc
    obtain ⟨d, hd, rfl⟩ := (h piece).1 (hpieces piece hpiece)
    exact List.mem_singleton.1 hc ▸ hd
  · intro hw
    refine ⟨w.map ([·]), (List.flatMap_singleton' w).symm, fun piece hpiece => ?_⟩
    obtain ⟨c, hc, rfl⟩ := List.mem_map.1 hpiece
    exact (h _).2 ⟨c, hw c hc, rfl⟩

/-- A fixed number of them. Induction on the number. -/
theorem OneOf.mem_pow (h : OneOf p r) {n : Nat} :
    w ∈ (r ^ n).matches' ↔ w.length = n ∧ ∀ c ∈ w, p c := by
  rw [RegularExpression.matches'_pow]
  induction n generalizing w with
  | zero =>
    rw [pow_zero, Language.mem_one, List.length_eq_zero_iff]
    simp +contextual
  | succ n ih =>
    rw [pow_succ', Language.mem_mul]
    simp only [ih, h _]
    -- the first of the characters is matched by the first of the factors
    constructor
    · rintro ⟨_, ⟨c, hc, rfl⟩, ds, ⟨hlen, hds⟩, rfl⟩
      exact ⟨by simp [hlen], List.forall_mem_cons.2 ⟨hc, hds⟩⟩
    · rintro ⟨hlen, hw⟩
      cases w with
      | nil => cases hlen
      | cons c ds =>
        obtain ⟨hc, hds⟩ := List.forall_mem_cons.1 hw
        exact ⟨[c], ⟨c, hc, rfl⟩, ds, ⟨Nat.succ.inj hlen, hds⟩, rfl⟩

theorem OneOf.mem_optional (h : OneOf p r) :
    w ∈ (optional r).matches' ↔ w.length ≤ 1 ∧ ∀ c ∈ w, p c := by
  rw [Pattern.mem_optional, h, Nat.le_one_iff_eq_zero_or_eq_one, List.length_eq_zero_iff,
    List.length_eq_one_iff]
  constructor
  · rintro (rfl | ⟨c, hc, rfl⟩)
    · exact ⟨.inl rfl, nofun⟩
    · exact ⟨.inr ⟨c, rfl⟩, fun d hd => List.mem_singleton.1 hd ▸ hc⟩
  · rintro ⟨rfl | ⟨c, rfl⟩, hc⟩
    · exact .inl rfl
    · exact .inr ⟨c, hc c (List.mem_singleton.2 rfl), rfl⟩

/-- Up to a number of them. Induction on the number. -/
theorem OneOf.mem_optional_pow (h : OneOf p r) {n : Nat} :
    w ∈ (optional r ^ n).matches' ↔ w.length ≤ n ∧ ∀ c ∈ w, p c := by
  rw [RegularExpression.matches'_pow]
  induction n generalizing w with
  | zero =>
    rw [pow_zero, Language.mem_one, Nat.le_zero, List.length_eq_zero_iff]
    simp +contextual
  | succ n ih =>
    rw [pow_succ', Language.mem_mul]
    simp only [ih, Pattern.mem_optional, h _]
    constructor
    · -- each factor takes a character or none; to match a word the first ones take its characters
      rintro ⟨_, rfl | ⟨c, hc, rfl⟩, ds, ⟨hlen, hds⟩, rfl⟩
      · exact ⟨hlen.trans (Nat.le_succ n), hds⟩
      · exact ⟨Nat.succ_le_succ hlen, List.forall_mem_cons.2 ⟨hc, hds⟩⟩
    · rintro ⟨hlen, hw⟩
      cases w with
      | nil => exact ⟨[], .inl rfl, [], ⟨Nat.zero_le n, hw⟩, rfl⟩
      | cons c ds =>
        obtain ⟨hc, hds⟩ := List.forall_mem_cons.1 hw
        exact ⟨[c], .inr ⟨c, hc, rfl⟩, ds, ⟨Nat.le_of_succ_le_succ hlen, hds⟩, rfl⟩

theorem oneOf_digit : OneOf (fun c => c.isDigit = true) digit := by
  intro w
  rw [digit, mem_anyOf]
  refine exists_congr fun c => and_congr_left fun _ => ⟨fun hc => ?_, fun hc => ?_⟩
  · fin_cases hc <;> rfl
  · obtain ⟨hlow, hhigh⟩ := Text.isAscii_digit hc
    rw [← Char.ofNat_toNat c]
    interval_cases c.toNat <;> decide

/-- The one for a digit other than zero matches these. -/
theorem oneOf_nonzero : OneOf (fun c => c.isDigit = true ∧ c ≠ '0') nonzero := by
  intro w
  rw [nonzero, mem_anyOf]
  refine exists_congr fun c => and_congr_left fun _ => ⟨fun hc => ?_, fun hc => ?_⟩
  · fin_cases hc <;> decide
  · obtain ⟨d, hd, hw⟩ := mem_anyOf.1 ((oneOf_digit [c]).2 ⟨c, hc.1, rfl⟩)
    rw [← (List.cons.inj hw).1] at hd
    simpa [hc.2] using hd

/-! ## How long -/

/-- What fits a pattern has at least and at most so many characters. -/
def Between (low high : Nat) (r : RegularExpression Char) : Prop :=
  ∀ w ∈ r.matches', low ≤ w.length ∧ w.length ≤ high

variable {a b c d : Nat}

/-- The bounds on the lengths of two expressions in a row add up. -/
theorem Between.mul (hr : Between a b r) (hs : Between c d s) :
    Between (a + c) (b + d) (r * s) := by
  intro w hw
  obtain ⟨v, hv, u, hu, rfl⟩ := mem_mul.1 hw
  have hfront := hr v hv
  have hback := hs u hu
  rw [List.length_append]
  omega

theorem Between.optional (hr : Between a b r) : Between 0 b (optional r) := by
  intro w hw
  rcases mem_optional.1 hw with rfl | hw
  · exact ⟨le_rfl, Nat.zero_le b⟩
  · exact ⟨Nat.zero_le _, (hr w hw).2⟩

theorem between_char (x : Char) : Between 1 1 (.char x) := by
  intro w hw
  rw [mem_char.1 hw]
  exact ⟨le_rfl, le_rfl⟩

theorem OneOf.between (h : OneOf p r) : Between 1 1 r := by
  intro w hw
  obtain ⟨x, -, rfl⟩ := (h w).1 hw
  exact ⟨le_rfl, le_rfl⟩

/-- A number of characters of a kind has that number for its length. -/
theorem OneOf.between_pow (h : OneOf p r) (n : Nat) : Between n n (r ^ n) := by
  intro w hw
  have hlen := (h.mem_pow.1 hw).1
  omega

/-- A numeral with an exponent is of sixteen to eighteen characters. -/
theorem between_scientific : Between 16 18 scientific :=
  (between_char '-').optional.mul (oneOf_nonzero.between.mul ((between_char '.').mul
    ((oneOf_digit.between_pow 10).mul ((between_char 'e').mul ((between_char '+').mul
      ((oneOf_digit.between_pow 2).mul oneOf_digit.between.optional))))))

/-! ## Parts of a decimal -/

theorem mem_sign : w ∈ sign.matches' ↔ ∃ negative : Bool, w = if negative then ['-'] else [] := by
  rw [sign, mem_optional, mem_char, Bool.exists_bool]
  rfl

/-- The part before the point is in digits, without a zero in front of others. -/
theorem mem_whole : w ∈ whole.matches' ↔ (∀ c ∈ w, c.isDigit = true) ∧ Unpadded w := by
  rw [whole, RegularExpression.matches'_add, Language.mem_add, mem_char, mem_mul]
  constructor
  · rintro (rfl | ⟨_, hd, ds, hds, rfl⟩)
    · exact ⟨List.forall_mem_singleton.2 rfl, .inl rfl⟩
    · obtain ⟨d, ⟨hdigit, hne⟩, rfl⟩ := (oneOf_nonzero _).1 hd
      exact ⟨List.forall_mem_cons.2 ⟨hdigit, oneOf_digit.mem_star.1 hds⟩, .inr ⟨d, ds, rfl, hne⟩⟩
  · rintro ⟨hdigits, rfl | ⟨d, ds, rfl, hne⟩⟩
    · exact .inl rfl
    · obtain ⟨hdigit, hds⟩ := List.forall_mem_cons.1 hdigits
      exact .inr ⟨[d], (oneOf_nonzero _).2 ⟨d, ⟨hdigit, hne⟩, rfl⟩, ds, oneOf_digit.mem_star.2 hds,
        rfl⟩

/-- The part behind the point is empty, or up to ten digits that do not end in a zero. -/
theorem mem_part : w ∈ part.matches' ↔
    ∃ ds, (∀ c ∈ ds, c.isDigit = true) ∧ Trimmed ds ∧ ds.length ≤ 10 ∧ w = pointed ds := by
  rw [part, mem_optional, mem_mul]
  constructor
  · rintro (rfl | ⟨_, hpoint, _, hbehind, rfl⟩)
    · exact ⟨[], nofun, .inl rfl, Nat.zero_le _, rfl⟩
    · -- the last digit is not zero, so the digits are trimmed; up to nine stand before it
      obtain ⟨front, hfront, _, hlast, rfl⟩ := mem_mul.1 hbehind
      obtain ⟨hlen, hdigits⟩ := oneOf_digit.mem_optional_pow.1 hfront
      obtain ⟨d, ⟨hdigit, hne⟩, rfl⟩ := (oneOf_nonzero _).1 hlast
      refine ⟨front ++ [d], ?_, .inr ⟨front, d, rfl, hne⟩, ?_, ?_⟩
      · exact List.forall_mem_append.2 ⟨hdigits, List.forall_mem_singleton.2 hdigit⟩
      · rw [List.length_append, List.length_singleton]
        omega
      · rw [mem_char.1 hpoint]
        cases front <;> rfl
  · rintro ⟨ds, hdigits, rfl | ⟨front, d, rfl, hne⟩, hlen, rfl⟩
    · exact .inl rfl
    · obtain ⟨hfront, hlast⟩ := List.forall_mem_append.1 hdigits
      rw [List.length_append, List.length_singleton] at hlen
      refine .inr ⟨['.'], mem_char.2 rfl, front ++ [d], ?_, by cases front <;> rfl⟩
      exact append_mem (oneOf_digit.mem_optional_pow.2 ⟨Nat.le_of_succ_le_succ hlen, hfront⟩)
        ((oneOf_nonzero _).2 ⟨d, ⟨hlast d (List.mem_singleton.2 rfl), hne⟩, rfl⟩)

/-- An exponent of up to three digits, with its sign, and at least two of them. -/
theorem mem_power {e : Int} (hpos : 0 ≤ e) (hlt : e < 1000) :
    powerText (some e) ∈ power.matches' := by
  obtain ⟨k, rfl⟩ := Int.eq_ofNat_of_zero_le hpos
  -- two digits stand at any rate, and behind them may stand a third
  have hpower : powerText (some (k : Int)) = ['e'] ++ (['+'] ++ ((digitsPadded 2 k).take 2 ++
      (digitsPadded 2 k).drop 2)) := by
    rw [List.take_append_drop]
    rfl
  have hlen : (digits k).length ≤ 3 := (length_digits_le_iff (by decide)).2 (by omega)
  have hdigits : ∀ c ∈ digitsPadded 2 k, c.isDigit = true := fun _ => isDigit_of_mem_digitsPadded
  have hpadded : 2 ≤ (digitsPadded 2 k).length ∧ (digitsPadded 2 k).length ≤ 3 := by
    rw [digitsPadded, List.length_append, List.length_replicate]
    omega
  rw [hpower]
  refine append_mem (mem_char.2 rfl) (append_mem (mem_char.2 rfl) (append_mem ?_ ?_))
  · refine oneOf_digit.mem_pow.2 ⟨?_, fun c hc => hdigits c (List.mem_of_mem_take hc)⟩
    rw [List.length_take]
    omega
  · refine oneOf_digit.mem_optional.2 ⟨?_, fun c hc => hdigits c (List.mem_of_mem_drop hc)⟩
    rw [List.length_drop]
    omega

/-! ## Decimals -/

/-- **The canonical decimals are the texts of a pattern**, but for a zero under a sign. -/
theorem mem_plain_iff :
    w ∈ plain.matches' ∧ w ≠ ['-', '0'] ↔ ∃ n : Numeral, n.Canonical 10 ∧ n.text = w := by
  constructor
  · rintro ⟨hw, hne⟩
    -- sign, whole and part of the pattern are those of a numeral
    obtain ⟨_, hsign, _, hbody, rfl⟩ := mem_mul.1 hw
    obtain ⟨ds, hwhole, _, hpart, rfl⟩ := mem_mul.1 hbody
    obtain ⟨negative, rfl⟩ := mem_sign.1 hsign
    obtain ⟨hdigits, hunpadded⟩ := mem_whole.1 hwhole
    obtain ⟨part, hpartdigits, htrimmed, hlen, rfl⟩ := mem_part.1 hpart
    have htext : Numeral.text ⟨negative, ds, part, none⟩ =
        (if negative then ['-'] else []) ++ (ds ++ pointed part) := by
      simp [Numeral.text, powerText]
    refine ⟨⟨negative, ds, part, none⟩, ⟨⟨?_, hdigits, hpartdigits⟩, hunpadded, htrimmed, hlen, rfl,
      ?_⟩, htext⟩
    · rcases hunpadded with rfl | ⟨d, rest, rfl, -⟩
      · exact List.cons_ne_nil _ _
      · exact List.cons_ne_nil _ _
    · rintro rfl ⟨rfl, rfl⟩
      exact hne rfl
  · rintro ⟨n, h, rfl⟩
    constructor
    · rw [Numeral.text, h.exponent, powerText, List.append_nil]
      exact append_mem (mem_sign.2 ⟨n.negative, rfl⟩) (append_mem
        (mem_whole.2 ⟨h.isDigit_whole, h.unpadded⟩)
        (mem_part.2 ⟨n.part, h.isDigit_part, h.trimmed, h.length_part, rfl⟩))
    · -- what is read off a zero under a sign is not canonical
      intro hzero
      have hread := Numeral.read?_text h.toWellFormed
      rw [hzero] at hread
      obtain rfl : ⟨true, ['0'], [], none⟩ = n := Option.some.inj hread
      exact h.signed rfl ⟨rfl, rfl⟩

/-- A decimal with one digit in front of the point, ten behind it and a power of ten fits the
pattern of scientific form. -/
theorem text_mem_scientific (negative : Bool) {d : Char} (hd : d.isDigit = true) (hne : d ≠ '0')
    {ds : List Char} (hds : ∀ c ∈ ds, c.isDigit = true) (hlen : ds.length = 10) {e : Int}
    (hpos : 0 ≤ e) (hlt : e < 1000) :
    Numeral.text ⟨negative, [d], ds, some e⟩ ∈ scientific.matches' := by
  have hpointed : pointed ds = ['.'] ++ ds := by
    cases ds with
    | nil => cases hlen
    | cons c cs => rfl
  rw [Numeral.text, hpointed, List.append_assoc]
  exact append_mem (mem_sign.2 ⟨negative, rfl⟩) (append_mem
    ((oneOf_nonzero _).2 ⟨d, ⟨hd, hne⟩, rfl⟩) (append_mem (mem_char.2 rfl)
      (append_mem (oneOf_digit.mem_pow.2 ⟨hlen, hds⟩) (mem_power hpos hlt))))

example : scientific.rmatch "-1.2345671000e+06".toList = true := by decide +kernel

end KeypadCalc.Decimal.Pattern

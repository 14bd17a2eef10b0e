import KeypadCalc.Decimal.Text
import KeypadCalc.Proofs.Text.Ending
import KeypadCalc.Text.Digit
import Mathlib.Data.Nat.Digits.Lemmas
import Mathlib.Tactic.Ring

/-!
# KeypadCalc — digits and the numbers they write

Digits are read from the left, so those behind others add to them, scaled (`numberOfDigits_append`).
Reading undoes writing: the digits of a number are read as that number, with or without zeros in
front of them (`numberOfDigits_digits`, `numberOfDigits_digitsPadded`), and zeros taken off the end
of digits scale what is read (`exists_dropFinalZeros`). Digits of one length are told from the number
that they are read as (`eq_of_numberOfDigits_eq`), so writing undoes reading where no zero leads
(`digits_numberOfDigits`).
-/

namespace KeypadCalc.Text

/-- The digits of the library are the ten from `0x30` on. -/
theorem isAscii_digit {c : Char} (h : c.isDigit = true) :
    0x30 ≤ c.toNat ∧ c.toNat ≤ 0x39 := by
  simp only [Char.isDigit, Bool.and_eq_true, decide_eq_true_eq] at h
  exact h

/-- Their values are how far they stand behind the first. -/
theorem digitValue?_of_isDigit {c : Char} (h : c.isDigit = true) :
    digitValue? c = some (c.toNat - 0x30) := by
  obtain ⟨hlow, hhigh⟩ := isAscii_digit h
  have hfirst : scriptZeros.find? (fun z => z ≤ c.toNat && c.toNat < z + 10) = some 0x30 := by
    rw [scriptZeros, List.find?_cons_of_pos]
    simp only [Bool.and_eq_true, decide_eq_true_eq]
    omega
  rw [digitValue?, hfirst]
  rfl

theorem isDigit_of_ascii {c : Char} (h : c.isDigit = true) : isDigit c = true := by
  rw [isDigit, digitValue?_of_isDigit h]
  rfl

/-- Digits read on from a number add to it, scaled. -/
theorem foldl_digits (ds : List Char) (n : Nat) :
    ds.foldl (fun n c => 10 * n + digitValue c) n = n * 10 ^ ds.length + numberOfDigits ds := by
  induction ds generalizing n with
  | nil => simp [numberOfDigits]
  | cons d ds ih =>
    have hfirst : numberOfDigits (d :: ds) = digitValue d * 10 ^ ds.length + numberOfDigits ds := by
      rw [numberOfDigits, List.foldl_cons, Nat.mul_zero, Nat.zero_add]
      exact ih (digitValue d)
    rw [List.foldl_cons, ih, hfirst, List.length_cons]
    ring

/-- Digits in front count for as many powers of ten as there are behind. -/
theorem numberOfDigits_append (ds es : List Char) :
    numberOfDigits (ds ++ es) = numberOfDigits ds * 10 ^ es.length + numberOfDigits es := by
  rw [numberOfDigits, List.foldl_append]
  exact foldl_digits es _

theorem numberOfDigits_replicate_zero (n : Nat) :
    numberOfDigits (List.replicate n '0') = 0 := by
  have hzero : digitValue '0' = 0 := by decide
  induction n with
  | zero => rfl
  | succ n ih =>
    rw [List.replicate_succ', numberOfDigits_append, ih, numberOfDigits, List.foldl_cons, hzero]
    rfl

/-- Digits are read as the digits of base ten that they stand for, from the last one. -/
theorem numberOfDigits_eq_ofDigits (ds : List Char) :
    numberOfDigits ds = Nat.ofDigits 10 (ds.map digitValue).reverse := by
  rw [Nat.ofDigits_eq_foldr, List.foldr_reverse, List.foldl_map, numberOfDigits]
  simp only [Nat.cast_id, Nat.add_comm]

/-- The values of digits are digits to the base of ten. -/
theorem digitValue_lt_of_mem (ds : List Char) : ∀ v ∈ (ds.map digitValue).reverse, v < 10 := by
  intro v hv
  obtain ⟨c, -, rfl⟩ := List.mem_map.1 (List.mem_reverse.1 hv)
  exact digitValue_lt c

/-- Digits write less than the power of ten of their length. -/
theorem numberOfDigits_lt (ds : List Char) : numberOfDigits ds < 10 ^ ds.length := by
  have hlt := Nat.ofDigits_lt_base_pow_length (by decide) (digitValue_lt_of_mem ds)
  rw [numberOfDigits_eq_ofDigits]
  simpa using hlt

/-- Digits of base ten are those of their values. -/
theorem map_digitValue {ds : List Char} (h : ∀ c ∈ ds, c.isDigit = true) :
    (ds.map digitValue).map (fun v => Char.ofNat (v + 0x30)) = ds := by
  rw [List.map_map]
  refine (List.map_congr_left fun c hc => ?_).trans (List.map_id ds)
  obtain ⟨hlow, -⟩ := isAscii_digit (h c hc)
  show Char.ofNat (digitValue c + 0x30) = c
  rw [digitValue, digitValue?_of_isDigit (h c hc), Option.getD_some, Nat.sub_add_cancel hlow,
    Char.ofNat_toNat]

/-- Digits of one length that are read as one number are the same. -/
theorem eq_of_numberOfDigits_eq {ds es : List Char} (hds : ∀ c ∈ ds, c.isDigit = true)
    (hes : ∀ c ∈ es, c.isDigit = true) (hlen : ds.length = es.length)
    (h : numberOfDigits ds = numberOfDigits es) : ds = es := by
  rw [numberOfDigits_eq_ofDigits, numberOfDigits_eq_ofDigits] at h
  have hvalues := Nat.ofDigits_inj_of_len_eq (by decide) (by simpa using hlen)
    (digitValue_lt_of_mem ds) (digitValue_lt_of_mem es) h
  rw [← map_digitValue hds, ← map_digitValue hes, List.reverse_inj.1 hvalues]

/-- A digit other than zero in front makes a number as large as its place. -/
theorem pow_le_numberOfDigits {d : Char} (hd : d.isDigit = true) (hne : d ≠ '0') (ds : List Char) :
    10 ^ ds.length ≤ numberOfDigits (d :: ds) := by
  have hpos : 1 ≤ digitValue d := by
    obtain ⟨hlow, -⟩ := isAscii_digit hd
    have hzero : d.toNat ≠ 0x30 := fun h => hne (Char.toNat_inj.1 h)
    rw [digitValue, digitValue?_of_isDigit hd, Option.getD_some]
    omega
  have hsplit := numberOfDigits_append [d] ds
  have hfirst : numberOfDigits [d] = digitValue d := by simp [numberOfDigits]
  rw [List.singleton_append, hfirst] at hsplit
  have hscale := Nat.mul_le_mul_right (10 ^ ds.length) hpos
  omega

/-- Digits of base ten are read as the core library reads them. -/
theorem numberOfDigits_eq {ds : List Char} (h : ∀ c ∈ ds, c.isDigit = true) :
    numberOfDigits ds = Nat.ofDigitChars 10 ds 0 := by
  have hvalue : ∀ c ∈ ds, digitValue c = c.toNat - '0'.toNat := by
    intro c hc
    rw [digitValue, digitValue?_of_isDigit (h c hc)]
    rfl
  rw [Nat.ofDigitChars_eq_foldl, numberOfDigits]
  exact List.foldl_ext _ _ _ fun n c hc => by rw [hvalue c hc]

end KeypadCalc.Text

namespace KeypadCalc.Decimal

open Text (numberOfDigits numberOfDigits_append numberOfDigits_replicate_zero)

theorem isDigit_of_mem_digits {n : Nat} {c : Char} (h : c ∈ digits n) : c.isDigit = true :=
  Nat.isDigit_of_mem_toDigits (by decide) (by decide) h

theorem numberOfDigits_digits (n : Nat) : numberOfDigits (digits n) = n := by
  rw [Text.numberOfDigits_eq fun _ => isDigit_of_mem_digits]
  exact Nat.ofDigitChars_ten_toDigits

theorem digits_eq_zero_iff {k : Nat} : digits k = ['0'] ↔ k = 0 := by
  constructor
  · intro h
    rw [← numberOfDigits_digits k, h]
    decide
  · rintro rfl
    rfl

/-- A number has no more digits than a width exactly if it is below that power of ten. -/
theorem length_digits_le_iff {n width : Nat} (h : 0 < width) :
    (digits n).length ≤ width ↔ n < 10 ^ width :=
  Nat.length_toDigits_le_iff (by decide) h

/-- Digits with no zero in front of another digit. -/
def Unpadded (ds : List Char) : Prop :=
  ds = ['0'] ∨ ∃ d rest, ds = d :: rest ∧ d ≠ '0'

theorem unpadded_digits (n : Nat) : Unpadded (digits n) := by
  obtain ⟨d, rest, hds⟩ := List.exists_cons_of_ne_nil (digits_ne_nil n)
  by_cases hd : d = '0'
  · subst hd
    -- without the zero the number is written with fewer digits, so there are no others
    have hrest : numberOfDigits rest = n := by
      have hsplit := numberOfDigits_append ['0'] rest
      have hzero : numberOfDigits ['0'] = 0 := by decide
      rw [List.singleton_append, ← hds, numberOfDigits_digits, hzero, Nat.zero_mul,
        Nat.zero_add] at hsplit
      exact hsplit.symm
    have hlt := Text.numberOfDigits_lt rest
    rw [hrest] at hlt
    rcases Nat.eq_zero_or_pos rest.length with hlen | hlen
    · rw [List.length_eq_zero_iff.1 hlen] at hds
      exact .inl hds
    · have hle := (length_digits_le_iff hlen).2 hlt
      rw [hds, List.length_cons] at hle
      omega
  · exact .inr ⟨d, rest, hds, hd⟩

/-- One digit, not zero, writes a positive number below ten. -/
theorem digits_of_lt_ten {n : Nat} (hpos : 0 < n) (hlt : n < 10) :
    ∃ d, digits n = [d] ∧ d.isDigit = true ∧ d ≠ '0' := by
  have hlen := (length_digits_le_iff (by decide : 0 < 1)).2 (by omega : n < 10 ^ 1)
  rcases unpadded_digits n with hzero | ⟨d, rest, hds, hd⟩
  · exact absurd (digits_eq_zero_iff.1 hzero) hpos.ne'
  · rw [hds, List.length_cons] at hlen
    have hrest : rest = [] := List.length_eq_zero_iff.1 (by omega)
    refine ⟨d, by rw [hds, hrest], isDigit_of_mem_digits (hds ▸ List.mem_cons_self), hd⟩

/-- Writing undoes reading where no zero is superfluous. -/
theorem digits_numberOfDigits {ds : List Char} (h : ∀ c ∈ ds, c.isDigit = true)
    (hds : Unpadded ds) : digits (numberOfDigits ds) = ds := by
  rcases hds with rfl | ⟨d, rest, rfl, hd⟩
  · decide
  · refine Text.eq_of_numberOfDigits_eq (fun _ => isDigit_of_mem_digits) h ?_
      (numberOfDigits_digits _)
    have hmost := (length_digits_le_iff (Nat.succ_pos rest.length)).2
      (Text.numberOfDigits_lt (d :: rest))
    have hleast := Text.pow_le_numberOfDigits (h d List.mem_cons_self) hd rest
    have hpos := List.length_pos_iff.2 (digits_ne_nil (numberOfDigits (d :: rest)))
    rw [List.length_cons]
    rcases Nat.eq_zero_or_pos rest.length with hlen | hlen
    · omega
    · have hmore := mt (length_digits_le_iff hlen).1 (Nat.not_lt.2 hleast)
      omega

/-! ## Digits up to a width -/

theorem isDigit_of_mem_digitsPadded {width n : Nat} {c : Char} (h : c ∈ digitsPadded width n) :
    c.isDigit = true := by
  rcases List.mem_append.1 h with hzero | hdigit
  · rw [List.eq_of_mem_replicate hzero]
    rfl
  · exact isDigit_of_mem_digits hdigit

theorem digitsPadded_ne_nil (width n : Nat) : digitsPadded width n ≠ [] := by
  intro h
  exact digits_ne_nil n (List.append_eq_nil_iff.1 h).2

/-- The zeros in front of a padded number count for nothing. -/
theorem numberOfDigits_digitsPadded (width n : Nat) :
    numberOfDigits (digitsPadded width n) = n := by
  rw [digitsPadded, numberOfDigits_append, numberOfDigits_replicate_zero, numberOfDigits_digits,
    Nat.zero_mul, Nat.zero_add]

theorem length_digitsPadded {width n : Nat} (hwidth : 0 < width) (h : n < 10 ^ width) :
    (digitsPadded width n).length = width := by
  have hlen := (length_digits_le_iff hwidth).2 h
  rw [digitsPadded, List.length_append, List.length_replicate]
  omega

/-- Writing up to a width undoes reading digits of that width. -/
theorem digitsPadded_numberOfDigits {width : Nat} {ds : List Char}
    (h : ∀ c ∈ ds, c.isDigit = true) (hlen : ds.length = width) (hwidth : 0 < width) :
    digitsPadded width (numberOfDigits ds) = ds := by
  have hlt := Text.numberOfDigits_lt ds
  rw [hlen] at hlt
  exact Text.eq_of_numberOfDigits_eq (fun _ => isDigit_of_mem_digitsPadded) h
    ((length_digitsPadded hwidth hlt).trans hlen.symm) (numberOfDigits_digitsPadded _ _)

/-- The digits on both sides of a point are those of the number without the point. -/
theorem numberOfDigits_split {places : Nat} (hplaces : 0 < places) (n : Nat) :
    numberOfDigits (digits (n / 10 ^ places) ++ digitsPadded places (n % 10 ^ places)) = n := by
  have hpow : 0 < 10 ^ places := Nat.pow_pos (by decide)
  rw [numberOfDigits_append, length_digitsPadded hplaces (Nat.mod_lt n hpow),
    numberOfDigits_digits, numberOfDigits_digitsPadded, Nat.div_add_mod']

/-! ## Zeros at the end -/

/-- Taking the zeros off the end of digits takes off zeros alone. -/
theorem exists_dropFinalZeros (ds : List Char) :
    ∃ count, dropFinalZeros ds ++ List.replicate count '0' = ds :=
  Text.exists_rdropWhile_append '0' ds

/-- Without their final zeros digits are digits still. -/
theorem isDigit_of_mem_dropFinalZeros {ds : List Char} (h : ∀ c ∈ ds, c.isDigit = true) :
    ∀ c ∈ dropFinalZeros ds, c.isDigit = true := by
  intro c hc
  obtain ⟨count, hds⟩ := exists_dropFinalZeros ds
  exact h c (hds ▸ List.mem_append_left _ hc)

theorem dropFinalZeros_digitsPadded_zero (width : Nat) :
    dropFinalZeros (digitsPadded width 0) = [] := by
  have hzeros : ∀ c ∈ digitsPadded width 0, (c == '0') = true := by
    intro c hc
    rcases List.mem_append.1 hc with hpad | hdigit
    · exact beq_iff_eq.2 (List.eq_of_mem_replicate hpad)
    · exact beq_iff_eq.2 (List.mem_singleton.1 hdigit)
  exact List.rdropWhile_eq_nil_iff.2 hzeros

/-- Digits with no zero at their end. -/
def Trimmed (ds : List Char) : Prop :=
  ds = [] ∨ ∃ front d, ds = front ++ [d] ∧ d ≠ '0'

/-- Digits are trimmed if they do not end in a zero. -/
theorem trimmed_iff {ds : List Char} : Trimmed ds ↔ ds.getLast? ≠ some '0' := by
  rcases List.eq_nil_or_concat ds with rfl | ⟨front, d, rfl⟩
  · exact iff_of_true (.inl rfl) nofun
  · rw [List.concat_eq_append, List.getLast?_concat, Ne, Option.some.injEq]
    constructor
    · rintro (hnil | ⟨front', d', heq, hd⟩)
      · exact absurd hnil (by simp)
      · rw [List.singleton_inj.1 (List.append_inj' heq rfl).2]
        exact hd
    · exact fun hd => .inr ⟨front, d, rfl, hd⟩

theorem trimmed_dropFinalZeros (ds : List Char) : Trimmed (dropFinalZeros ds) :=
  trimmed_iff.2 (Text.getLast?_rdropWhile_ne '0' ds)

/-- Zeros behind trimmed digits are all that is dropped. -/
theorem dropFinalZeros_append {ds : List Char} (h : Trimmed ds) (count : Nat) :
    dropFinalZeros (ds ++ List.replicate count '0') = ds :=
  Text.rdropWhile_append_replicate (trimmed_iff.1 h) count

/-- Without the zeros at their end digits behind others are read as less by a power of ten. -/
theorem numberOfDigits_dropFinalZeros (front ds : List Char) :
    ∃ count, (dropFinalZeros ds).length + count = ds.length ∧
      numberOfDigits (front ++ dropFinalZeros ds) * 10 ^ count = numberOfDigits (front ++ ds) := by
  obtain ⟨count, hds⟩ := exists_dropFinalZeros ds
  refine ⟨count, ?_, ?_⟩
  · rw [← congrArg List.length hds, List.length_append, List.length_replicate]
  · rw [← congrArg (front ++ ·) hds, ← List.append_assoc,
      numberOfDigits_append (front ++ dropFinalZeros ds), numberOfDigits_replicate_zero,
      List.length_replicate, Nat.add_zero]

end KeypadCalc.Decimal

import Mathlib
import KeypadCalc.Proofs.Binary64.Word

/-!
# KeypadCalc — how doubles compare

The comparisons of the core library work on the parts of a double, and so do its tests for an
infinity and for what is not a number. Here they are told by the datum: a double is below zero,
above zero or a zero by the side of zero its datum is on (`Datum.side`), and what is not a number is
on none. A double is known by its datum (`datum_injective`), as there is one word for what is not a
number.
-/

namespace KeypadCalc.Binary64

open Float.Model (UnpackedFloat)

/-! ## One double for a datum -/

/-- What a double stands for, by the unpacking of the library. -/
theorem datum_eq (x : Float) : datum x = Datum.ofUnpacked x.toModel.unpack :=
  (ofUnpacked_unpack _).symm

theorem signBit_inj {s t : UnpackedFloat.Sign} : signBit s = signBit t ↔ s = t := by
  cases s <;> cases t <;> simp [signBit]

/-- Parts that are not zero stand for a number that is not zero. -/
theorem ofUnpacked_injective : Function.Injective Datum.ofUnpacked := by
  intro u v h
  cases u with
  | notANumber => cases v <;> simp_all [Datum.ofUnpacked]
  | infinity s => cases v <;> simp_all [Datum.ofUnpacked, signBit_inj]
  -- a zero and a finite one are told alike, with zero as the mantissa, but no finite one has it
  | zero s =>
    cases v with
    | finite t m e hm =>
      obtain ⟨-, rfl, -⟩ := Datum.finite.inj h
      exact absurd hm (Nat.lt_irrefl 0)
    | _ => simp_all [Datum.ofUnpacked, signBit_inj]
  | finite s m e hm =>
    cases v with
    | zero t =>
      obtain ⟨-, rfl, -⟩ := Datum.finite.inj h
      exact absurd hm (Nat.lt_irrefl 0)
    | _ => simp_all [Datum.ofUnpacked, signBit_inj]

/-- A double is known by its parts. -/
theorem unpack_injective : Function.Injective fun x : Float => x.toModel.unpack := by
  intro x y h
  have hbits := (UnpackedFloat.unpack_inj_of_valid x.toModel.valid y.toModel.valid).1 h
  exact Float.toBits_inj.1 (UInt64.toBitVec_inj.1 hbits)

/-- A double is known by what it stands for. -/
theorem datum_injective : Function.Injective datum := by
  intro x y h
  rw [datum_eq, datum_eq] at h
  exact unpack_injective (ofUnpacked_injective h)

/-! ## Sides of zero -/

/-- How a datum compares with zero, unless it is not a number. -/
def Datum.side : Datum → Option Ordering
  | .nan => none
  | .infinite negative => some (if negative then .lt else .gt)
  | .finite _ 0 _ => some .eq
  | .finite negative (_ + 1) _ => some (if negative then .lt else .gt)

theorem unpack_zero : (0.0 : Float).toModel.unpack = .zero .positive := rfl

/-- A comparison with zero goes by the side, which nothing but not a number lacks. -/
theorem compare_zero (u : UnpackedFloat) :
    u.compare (.zero .positive) = (Datum.ofUnpacked u).side := by
  cases u with
  | notANumber => rfl
  | infinity s => cases s <;> rfl
  | zero s => rfl
  | finite s m e hm =>
    obtain ⟨m, rfl⟩ : ∃ n, m = n + 1 := ⟨m - 1, by omega⟩
    cases s <;> rfl

theorem zero_compare (u : UnpackedFloat) :
    UnpackedFloat.compare (.zero .positive) u = (Datum.ofUnpacked u).side.map Ordering.swap := by
  cases u with
  | notANumber => rfl
  | infinity s => cases s <;> rfl
  | zero s => rfl
  | finite s m e hm =>
    obtain ⟨m, rfl⟩ : ∃ n, m = n + 1 := ⟨m - 1, by omega⟩
    cases s <;> rfl

variable {x : Float}

theorem lt_zero_iff : x < 0.0 ↔ (datum x).side = some .lt := by
  show decide (UnpackedFloat.lt x.toModel.unpack (0.0 : Float).toModel.unpack = true) = true ↔ _
  rw [decide_eq_true_iff, UnpackedFloat.lt, unpack_zero, compare_zero, beq_iff_eq, datum_eq]

theorem zero_lt_iff : 0.0 < x ↔ (datum x).side = some .gt := by
  show decide (UnpackedFloat.lt (0.0 : Float).toModel.unpack x.toModel.unpack = true) = true ↔ _
  rw [decide_eq_true_iff, UnpackedFloat.lt, unpack_zero, zero_compare, beq_iff_eq, datum_eq]
  cases (Datum.ofUnpacked x.toModel.unpack).side with
  | none => simp
  | some o => cases o <;> decide

theorem beq_zero_iff : (x == 0.0) = true ↔ (datum x).side = some .eq := by
  show UnpackedFloat.beq x.toModel.unpack (0.0 : Float).toModel.unpack = true ↔ _
  rw [UnpackedFloat.beq, unpack_zero, compare_zero, beq_iff_eq, datum_eq]

/-- At most zero is what is below it or equal to it. -/
theorem le_zero_iff : x ≤ 0.0 ↔ (datum x).side = some .lt ∨ (datum x).side = some .eq := by
  show decide (UnpackedFloat.le x.toModel.unpack (0.0 : Float).toModel.unpack = true) = true ↔ _
  rw [decide_eq_true_iff, UnpackedFloat.le, unpack_zero, compare_zero, datum_eq]
  cases (Datum.ofUnpacked x.toModel.unpack).side with
  | none => simp
  | some o => cases o <;> decide

/-- At least zero is what is above it or equal to it. -/
theorem zero_le_iff : 0.0 ≤ x ↔ (datum x).side = some .gt ∨ (datum x).side = some .eq := by
  show decide (UnpackedFloat.le (0.0 : Float).toModel.unpack x.toModel.unpack = true) = true ↔ _
  rw [decide_eq_true_iff, UnpackedFloat.le, unpack_zero, zero_compare, datum_eq]
  cases (Datum.ofUnpacked x.toModel.unpack).side with
  | none => simp
  | some o => cases o <;> decide

theorem side_neg (d : Datum) : d.neg.side = d.side.map Ordering.swap := by
  cases d with
  | nan => rfl
  | infinite negative => cases negative <;> rfl
  | finite negative m e => cases m <;> cases negative <;> rfl

/-! ## Infinities, zeros and what is not a number -/

/-- Not a number is what stands for it, in whichever word. -/
theorem isNaN_iff : x.isNaN = true ↔ datum x = .nan := by
  show UnpackedFloat.isNaN x.toModel.unpack = true ↔ _
  rw [datum_eq]
  cases x.toModel.unpack <;> simp [UnpackedFloat.isNaN, Datum.ofUnpacked]

theorem isInf_iff : x.isInf = true ↔ ∃ negative, datum x = .infinite negative := by
  show UnpackedFloat.isInf x.toModel.unpack = true ↔ _
  rw [datum_eq]
  cases x.toModel.unpack <;> simp [UnpackedFloat.isInf, Datum.ofUnpacked]

theorem apart_of_isInf (h : x.isInf = true) : ¬ x.isNaN = true ∧ ¬ (x == 0.0) = true := by
  obtain ⟨negative, hx⟩ := isInf_iff.1 h
  rw [isNaN_iff, beq_zero_iff, hx]
  cases negative <;> simp [Datum.side]

/-- The finite doubles are those with a mantissa and an exponent. -/
theorem isFinite_iff : isFinite x = true ↔ ∃ negative m e, datum x = .finite negative m e := by
  rw [isFinite]
  cases datum x <;> simp

theorem datum_infinity : datum infinity = .infinite false := datum_ofBits _

theorem datum_neg_infinity : datum (-infinity) = .infinite true := by
  rw [datum_neg, datum_infinity]
  rfl

theorem datum_nan : datum nan = .nan := datum_ofBits _

/-- A finite double is on a side of zero, or is a zero. -/
theorem side_cases (h : isFinite x = true) : x < 0.0 ∨ (x == 0.0) = true ∨ 0.0 < x := by
  obtain ⟨negative, m, e, hx⟩ := isFinite_iff.1 h
  rw [lt_zero_iff, beq_zero_iff, zero_lt_iff, hx]
  cases m <;> cases negative <;> simp [Datum.side]

theorem apart_of_lt_zero (h : x < 0.0) : ¬ (x == 0.0) = true ∧ ¬ 0.0 < x := by
  rw [lt_zero_iff] at h
  simp [beq_zero_iff, zero_lt_iff, h]

theorem apart_of_beq_zero (h : (x == 0.0) = true) : ¬ x < 0.0 ∧ ¬ 0.0 < x := by
  rw [beq_zero_iff] at h
  simp [lt_zero_iff, zero_lt_iff, h]

theorem apart_of_zero_lt (h : 0.0 < x) : ¬ x < 0.0 ∧ ¬ (x == 0.0) = true := by
  rw [zero_lt_iff] at h
  simp [lt_zero_iff, beq_zero_iff, h]

/-- Above zero there is one double that is not finite. -/
theorem eq_infinity_or_isFinite (h : 0.0 ≤ x) : x = infinity ∨ isFinite x = true := by
  rw [zero_le_iff] at h
  cases hx : datum x with
  | nan => simp [hx, Datum.side] at h
  | infinite negative =>
    cases negative with
    | true => simp [hx, Datum.side] at h
    | false => exact .inl (datum_injective (hx.trans datum_infinity.symm))
  | finite negative m e => exact .inr (isFinite_iff.2 ⟨negative, m, e, hx⟩)

/-- Below zero there is one double that is not finite. -/
theorem eq_neg_infinity_or_isFinite (h : x ≤ 0.0) : x = -infinity ∨ isFinite x = true := by
  rw [le_zero_iff] at h
  cases hx : datum x with
  | nan => simp [hx, Datum.side] at h
  | infinite negative =>
    cases negative with
    | true => exact .inl (datum_injective (hx.trans datum_neg_infinity.symm))
    | false => simp [hx, Datum.side] at h
  | finite negative m e => exact .inr (isFinite_iff.2 ⟨negative, m, e, hx⟩)

theorem apart_of_isFinite (h : isFinite x = true) : ¬ x.isNaN = true ∧ ¬ x.isInf = true := by
  obtain ⟨negative, m, e, hx⟩ := isFinite_iff.1 h
  rw [isNaN_iff, isInf_iff, hx]
  exact ⟨nofun, nofun⟩

/-- The sign of a finite double is the one that it is told with. -/
theorem isNegative_of_datum {negative : Bool} {m : Nat} {e : Int}
    (h : datum x = .finite negative m e) : isNegative x = negative := by
  rw [datum, Datum.ofWord] at h
  simp only [Nat.pow_eq] at h
  split at h
  · split at h <;> cases h
  · split at h
    · exact (Datum.finite.inj h).1
    · exact (Datum.finite.inj h).1

theorem datum_of_beq_zero (h : (x == 0.0) = true) :
    ∃ negative, datum x = .finite negative 0 minExponent := by
  have hfits := fits_datum x
  rw [beq_zero_iff] at h
  cases hx : datum x with
  | nan => simp [hx, Datum.side] at h
  | infinite negative => cases negative <;> simp [hx, Datum.side] at h
  | finite negative m e =>
    cases m with
    | succ m => cases negative <;> simp [hx, Datum.side] at h
    -- only the least exponent takes a mantissa below full width
    | zero =>
      rw [hx] at hfits
      obtain rfl : e = minExponent := hfits.2.2.2.resolve_left (by decide)
      exact ⟨negative, rfl⟩

theorem isFinite_of_beq_zero (h : (x == 0.0) = true) : isFinite x = true := by
  obtain ⟨negative, hx⟩ := datum_of_beq_zero h
  exact isFinite_iff.2 ⟨negative, 0, minExponent, hx⟩

theorem toInt?_of_beq_zero (h : (x == 0.0) = true) : toInt? x = some 0 := by
  obtain ⟨negative, hx⟩ := datum_of_beq_zero h
  rw [toInt?_eq_some_iff, value?_of_datum hx]
  simp [signed_zero]

/-- Of the two zeros the negative one has its sign bit set. -/
theorem isNegative_zero_iff (h : (x == 0.0) = true) : isNegative x = true ↔ x = -0.0 := by
  obtain ⟨negative, hx⟩ := datum_of_beq_zero h
  rw [isNegative_of_datum hx]
  constructor
  · rintro rfl
    exact datum_injective (hx.trans (by decide +kernel))
  · rintro rfl
    have hsign : datum (-0.0) = .finite true 0 minExponent := by decide +kernel
    rw [hsign] at hx
    cases hx
    rfl

/-- The sign bit of a finite number other than zero tells its side. -/
theorem isNegative_iff (hx : isFinite x = true) (hzero : ¬ (x == 0.0) = true) :
    isNegative x = true ↔ x < 0.0 := by
  obtain ⟨negative, m, e, hdatum⟩ := isFinite_iff.1 hx
  rw [beq_zero_iff, hdatum] at hzero
  rw [isNegative_of_datum hdatum, lt_zero_iff, hdatum]
  cases m with
  | zero => exact absurd rfl hzero
  | succ m => cases negative <;> simp [Datum.side]

/-! ## One, and magnitudes -/

/-- The literal one, with its mantissa shifted to the full width. -/
theorem unpack_one :
    (1.0 : Float).toModel.unpack = .finite .positive (2 ^ 52) (-52) (by decide) := rfl

/-- One is one double. -/
theorem eq_one_of_beq (h : (x == 1.0) = true) : x = 1.0 := by
  have hbeq : UnpackedFloat.beq x.toModel.unpack (1.0 : Float).toModel.unpack = true := h
  obtain ⟨-, -, hsame | ⟨-, hzero⟩ | ⟨-, hzero⟩⟩ :=
    (UnpackedFloat.beq_iff_ne_notANumber_and_eq _ _).1 hbeq
  · exact unpack_injective hsame
  · rw [unpack_one] at hzero
    cases hzero
  · rw [unpack_one] at hzero
    cases hzero

/-- A datum without its sign. -/
def Datum.abs : Datum → Datum
  | .nan => .nan
  | .infinite _ => .infinite false
  | .finite _ m e => .finite false m e

/-- The absolute value drops the sign of what a double stands for. -/
theorem datum_abs (x : Float) : datum x.abs = (datum x).abs := by
  have hparts : Datum.ofUnpacked x.toModel.unpack.abs = (datum x).abs := by
    rw [datum_eq]
    cases x.toModel.unpack <;> rfl
  have hfits : (datum x).abs.Fits := by
    have hfits := fits_datum x
    cases hx : datum x with
    | nan | infinite => trivial
    | finite negative m e =>
      rw [hx] at hfits
      exact hfits
  have hpack := ofWord_pack (u := x.toModel.unpack.abs) (hparts ▸ hfits)
  exact hpack.trans hparts

/-- A finite double other than zero has an absolute value above zero. -/
theorem abs_of_isFinite (hx : isFinite x = true) (hzero : ¬ (x == 0.0) = true) :
    isFinite x.abs = true ∧ 0.0 < x.abs := by
  obtain ⟨negative, m, e, hdatum⟩ := isFinite_iff.1 hx
  have habs : datum x.abs = .finite false m e := by rw [datum_abs, hdatum, Datum.abs]
  rw [beq_zero_iff, hdatum] at hzero
  refine ⟨isFinite_iff.2 ⟨false, m, e, habs⟩, ?_⟩
  rw [zero_lt_iff, habs]
  cases m with
  | zero => exact absurd rfl hzero
  | succ m => rfl

/-- The negation of what is at least zero is at most zero. -/
theorem neg_le_zero (h : 0.0 ≤ x) : -x ≤ 0.0 := by
  rw [zero_le_iff] at h
  rw [le_zero_iff, datum_neg, side_neg]
  rcases h with h | h <;> simp [h]

end KeypadCalc.Binary64

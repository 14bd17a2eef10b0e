import KeypadCalc.Proofs.Binary64.Value

/-!
# KeypadCalc — words of doubles

The core library builds a double from a word by taking the word apart and packing the parts again,
and negates one in the same way. A word stands for the parts that the core library takes from it
(`ofUnpacked_unpack`), and parts that fit are packed into a word that stands for them
(`ofWord_pack`). So a double built from a word is read as that word (`datum_ofBits`), and negating
one turns its sign around (`datum_neg`).
-/

namespace KeypadCalc.Binary64

open Float.Model (Format UnpackedFloat)
open Float.Model.UnpackedFloat (Sign packComponents unpackExponent unpackMantissa unpackSign)

/-! ## A word by its fields -/

/-- What a word stands for, by its sign bit, its exponent field and its fraction. -/
def Datum.ofFields (negative : Bool) (field fraction : Nat) : Datum :=
  if field = 2047 then (if fraction = 0 then .infinite negative else .nan)
  else if field = 0 then .finite negative fraction minExponent
  else .finite negative (2 ^ 52 + fraction) (minExponent + field - 1)

/-- The word with a sign bit, an exponent field and a fraction. -/
def wordOfFields (negative : Bool) (field fraction : Nat) : Nat :=
  (if negative then 2 ^ 63 else 0) + field * 2 ^ 52 + fraction

theorem ofWord_wordOfFields {field fraction : Nat} (negative : Bool) (hfield : field < 2 ^ 11)
    (hfraction : fraction < 2 ^ 52) :
    Datum.ofWord (wordOfFields negative field fraction) =
      Datum.ofFields negative field fraction := by
  obtain ⟨top, htop, hbit⟩ : ∃ top, (top = 0 ∨ top = 1) ∧
      wordOfFields negative field fraction = top * 2 ^ 63 + field * 2 ^ 52 + fraction ∧
      (top == 1) = negative := by
    cases negative with
    | true => exact ⟨1, .inr rfl, by rw [wordOfFields, if_pos rfl, Nat.one_mul], rfl⟩
    | false => exact ⟨0, .inl rfl, by rw [wordOfFields, if_neg (by decide), Nat.zero_mul], rfl⟩
  obtain ⟨hword, hbit⟩ := hbit
  obtain ⟨w, hw⟩ : ∃ w, w = wordOfFields negative field fraction := ⟨_, rfl⟩
  -- the bound on each field keeps it out of the ones above
  have hsign : w / 2 ^ 63 = top := by omega
  have hmiddle : w / 2 ^ 52 % 2 ^ 11 = field := by omega
  have hlow : w % 2 ^ 52 = fraction := by omega
  rw [← hw, Datum.ofWord]
  simp only [Nat.pow_eq, hsign, hbit, hmiddle, hlow]
  rfl

/-! ## Parts that fit -/

/-- The mantissa and the exponent of a finite double are those of a grid: the finest one, or one on
which the mantissa has its leading bit. -/
def Datum.Fits : Datum → Prop
  | .finite _ m e => m < 2 ^ 53 ∧ minExponent ≤ e ∧ e ≤ 971 ∧ (2 ^ 52 ≤ m ∨ e = minExponent)
  | _ => True

theorem fits_ofWord (w : Nat) : (Datum.ofWord w).Fits := by
  have hfraction : w % 2 ^ 52 < 2 ^ 52 := Nat.mod_lt _ (by decide)
  have hfield : w / 2 ^ 52 % 2 ^ 11 < 2 ^ 11 := Nat.mod_lt _ (by decide)
  rw [Datum.ofWord]
  simp only [Nat.pow_eq]
  split
  · split <;> exact trivial
  · split
    · exact ⟨by omega, le_rfl, by decide, .inr rfl⟩
    · exact ⟨by omega, by simp only [minExponent]; omega, by simp only [minExponent]; omega,
        .inl (Nat.le_add_right _ _)⟩

theorem fits_datum (x : Float) : (datum x).Fits :=
  fits_ofWord _

/-! ## How large and how small -/

section Bounds

variable {negative : Bool} {m : Nat} {e : Int}

/-- No finite double reaches a number of 313 digits. -/
theorem magnitude_le_ten_pow (hfits : (Datum.finite negative m e).Fits) :
    (m : ℚ) * 2 ^ e ≤ 10 ^ (39 * 8) := by
  obtain ⟨hupper, -, htop, -⟩ := hfits
  calc (m : ℚ) * 2 ^ e ≤ 2 ^ 53 * 2 ^ (971 : ℤ) :=
        mul_le_mul (by exact_mod_cast hupper.le) (zpow_le_zpow_right₀ one_le_two htop)
          (zpow_pos two_pos _).le (by positivity)
    _ = (2 ^ 128) ^ 8 := by
        rw [show (971 : ℤ) = (971 : ℕ) from rfl, zpow_natCast, ← pow_add, ← pow_mul]
    _ ≤ (10 ^ 39) ^ 8 := pow_le_pow_left₀ (by positivity) (by norm_num) 8
    _ = 10 ^ (39 * 8) := (pow_mul _ _ _).symm

/-- Other than zero, a finite double is no less than one in the 1074th place. -/
theorem ten_zpow_le_magnitude (hfits : (Datum.finite negative m e).Fits) (hm : 0 < m) :
    (10 : ℚ) ^ (-1074 : ℤ) ≤ m * 2 ^ e := by
  obtain ⟨-, hlower, -, -⟩ := hfits
  have hlower : -1074 ≤ e := hlower
  have hone : (1 : ℚ) ≤ m := by exact_mod_cast hm
  calc (10 : ℚ) ^ (-1074 : ℤ) ≤ 2 ^ (-1074 : ℤ) := by
        rw [zpow_neg, zpow_neg]
        exact inv_anti₀ (zpow_pos two_pos _)
          (pow_le_pow_left₀ two_pos.le (by norm_num : (2 : ℚ) ≤ 10) 1074)
    _ ≤ 2 ^ e := zpow_le_zpow_right₀ one_le_two hlower
    _ ≤ m * 2 ^ e := le_mul_of_one_le_left (zpow_pos two_pos _).le hone

end Bounds

/-! ## Taking apart and packing -/

/-- The bit of a sign in a word. -/
def signBit : Sign → Bool
  | .negative => true
  | .positive => false

/-- What the parts of a double stand for. -/
def Datum.ofUnpacked : UnpackedFloat → Datum
  | .infinity s => .infinite (signBit s)
  | .notANumber => .nan
  | .zero s => .finite (signBit s) 0 minExponent
  | .finite s m e _ => .finite (signBit s) m e

/-- A word put in front of another counts for as many powers of two as the other has bits. -/
theorem toNat_append {m n : Nat} (a : BitVec m) (b : BitVec n) :
    (a ++ b).toNat = a.toNat * 2 ^ n + b.toNat := by
  rw [BitVec.toNat_append, ← Nat.shiftLeft_add_eq_or_of_lt b.isLt, Nat.shiftLeft_eq]

/-- The core library puts the fields of a word where they are read. -/
theorem toNat_packComponents (s : Sign) (field : BitVec 11) (fraction : BitVec 52) :
    (packComponents .binary64 s field fraction).toNat =
      wordOfFields (signBit s) field.toNat fraction.toNat := by
  show ((s.toBitVec ++ field) ++ fraction).toNat = _
  rw [toNat_append, toNat_append, wordOfFields]
  cases s with
  | negative =>
    show (1 * 2 ^ 11 + field.toNat) * 2 ^ 52 + fraction.toNat =
      2 ^ 63 + field.toNat * 2 ^ 52 + fraction.toNat
    omega
  | positive =>
    show (0 * 2 ^ 11 + field.toNat) * 2 ^ 52 + fraction.toNat =
      0 + field.toNat * 2 ^ 52 + fraction.toNat
    omega

/-- A word that the core library packs stands for its fields. -/
theorem ofWord_packComponents (s : Sign) (field : BitVec 11) (fraction : BitVec 52) :
    Datum.ofWord (packComponents .binary64 s field fraction).toNat =
      Datum.ofFields (signBit s) field.toNat fraction.toNat := by
  rw [toNat_packComponents]
  exact ofWord_wordOfFields _ field.isLt fraction.isLt

/-- A word is put together again from the parts it is taken into. -/
theorem packComponents_unpack (b : BitVec Format.binary64.numBits) :
    packComponents .binary64 (Sign.ofBitVec (unpackSign b))
      (unpackExponent b) (unpackMantissa b) = b := by
  have hsign : ∀ a : BitVec 1, (Sign.ofBitVec a).toBitVec = a := by decide
  rw [packComponents, hsign]
  delta unpackSign
  simp only [unpackExponent, unpackMantissa, BitVec.extractLsb]
  ext i hi
  grind

/-- A word stands for the parts it is taken into. -/
theorem ofUnpacked_unpack (b : BitVec Format.binary64.numBits) :
    Datum.ofUnpacked (UnpackedFloat.unpack .binary64 b) = Datum.ofWord b.toNat := by
  have hword := ofWord_packComponents (Sign.ofBitVec (unpackSign b))
    (unpackExponent b) (unpackMantissa b)
  rw [packComponents_unpack] at hword
  have hinfinite : unpackExponent b = -1#11 ↔ (unpackExponent b).toNat = 2047 :=
    BitVec.toNat_inj.symm
  have hsmall : unpackExponent b = 0#11 ↔ (unpackExponent b).toNat = 0 := BitVec.toNat_inj.symm
  have hzero : unpackMantissa b = 0#52 ↔ (unpackMantissa b).toNat = 0 := BitVec.toNat_inj.symm
  rw [hword, Datum.ofFields]
  show Datum.ofUnpacked
    (if unpackExponent b = -1#11 then (if unpackMantissa b = 0#52 then _ else _)
      else if unpackExponent b = 0#11 then (if h : unpackMantissa b = 0#52 then _ else _)
      else _) = _
  -- the core library tests the fields as words, and here they are tested as numbers
  by_cases hfull : unpackExponent b = -1#11
  · rw [if_pos hfull, if_pos (hinfinite.1 hfull)]
    by_cases hfraction : unpackMantissa b = 0#52
    · rw [if_pos hfraction, if_pos (hzero.1 hfraction)]
      rfl
    · rw [if_neg hfraction, if_neg (mt hzero.2 hfraction)]
      rfl
  · rw [if_neg hfull, if_neg (mt hinfinite.2 hfull)]
    by_cases hfield : unpackExponent b = 0#11
    · rw [if_pos hfield, if_pos (hsmall.1 hfield)]
      by_cases hfraction : unpackMantissa b = 0#52
      · rw [dif_pos hfraction, hzero.1 hfraction]
        rfl
      · rw [dif_neg hfraction, hfield]
        rfl
    · rw [if_neg hfield, if_neg (mt hsmall.2 hfield)]
      show Datum.finite _ _ _ = Datum.finite _ _ _
      rw [Datum.finite.injEq]
      -- the leading bit is put back in front of the fraction
      refine ⟨rfl, toNat_append 1#1 (unpackMantissa b), ?_⟩
      show _ - ((1023 : ℤ) + 52) = -1074 + _ - 1
      ring

/-- Parts that fit are packed into a word that stands for them. A number below full width is packed
with the lowest exponent field, and any other with its leading bit left out. -/
theorem ofWord_pack {u : UnpackedFloat} (h : (Datum.ofUnpacked u).Fits) :
    Datum.ofWord (UnpackedFloat.pack .binary64 u).toNat = Datum.ofUnpacked u := by
  cases u with
  | notANumber => rfl
  | infinity s => cases s <;> rfl
  | zero s => cases s <;> rfl
  | finite s m e hm =>
    obtain ⟨hupper, hlower, htop, hgrid⟩ := h
    rw [minExponent] at hlower hgrid
    -- the exponent field, in between those for infinities and for the finest grid
    obtain ⟨field, hfield⟩ : ∃ field, field = (e + 1023 + 52).toNat := ⟨_, rfl⟩
    have hfieldBits : (BitVec.ofNat 11 field).toNat = field := Nat.mod_eq_of_lt (by omega)
    have hshape : UnpackedFloat.pack .binary64 (.finite s m e hm) =
        if 2 ^ 11 ≤ field + 1 then UnpackedFloat.packedInfinity .binary64 s
        else if m.log2 + 1 = 53 then
          packComponents .binary64 s (BitVec.ofNat 11 field) (BitVec.ofNat 52 m)
        else packComponents .binary64 s 0#11 (BitVec.ofNat 52 m) := by
      rw [hfield]
      rfl
    rw [hshape, if_neg (by omega)]
    by_cases hleading : m.log2 + 1 = 53
    · rw [if_pos hleading]
      have hle : 2 ^ 52 ≤ m := (Nat.le_log2 hm.ne').1 (by omega)
      have hfraction : (BitVec.ofNat 52 m).toNat = m - 2 ^ 52 := by
        rw [BitVec.toNat_ofNat]
        omega
      rw [ofWord_packComponents, hfieldBits, hfraction, Datum.ofFields, if_neg (by omega),
        if_neg (by omega)]
      show Datum.finite _ _ _ = Datum.finite _ _ _
      rw [Datum.finite.injEq]
      refine ⟨rfl, by omega, ?_⟩
      rw [minExponent]
      omega
    · rw [if_neg hleading]
      have hlt : m < 2 ^ 52 := by
        by_contra hle
        have hlower := (Nat.le_log2 hm.ne').2 (Nat.not_lt.1 hle)
        have hlog := (Nat.log2_lt hm.ne').2 hupper
        omega
      have hfraction : (BitVec.ofNat 52 m).toNat = m := Nat.mod_eq_of_lt hlt
      rw [ofWord_packComponents, hfraction, hgrid.resolve_left (by omega)]
      rfl

/-- A double built from a word is read as that word. -/
theorem datum_ofBits (w : UInt64) : datum (Float.ofBits w) = Datum.ofWord w.toNat := by
  have hparts := ofUnpacked_unpack w.toBitVec
  have hpack := ofWord_pack (u := UnpackedFloat.unpack .binary64 w.toBitVec)
    (hparts ▸ fits_ofWord _)
  exact hpack.trans hparts

/-- A datum under the other sign. -/
def Datum.neg : Datum → Datum
  | .nan => .nan
  | .infinite negative => .infinite !negative
  | .finite negative m e => .finite (!negative) m e

theorem fits_neg {d : Datum} (h : d.Fits) : d.neg.Fits := by
  cases d with
  | nan => exact trivial
  | infinite negative => exact trivial
  | finite negative m e => exact h

/-- The core library negates by the sign, and so is it told here. -/
theorem ofUnpacked_neg (u : UnpackedFloat) :
    Datum.ofUnpacked u.neg = (Datum.ofUnpacked u).neg := by
  cases u with
  | notANumber => rfl
  | infinity s => cases s <;> rfl
  | zero s => cases s <;> rfl
  | finite s m e hm => cases s <;> rfl

theorem datum_neg (x : Float) : datum (-x) = (datum x).neg := by
  have hparts := ofUnpacked_unpack x.toBits.toBitVec
  have hneg := ofUnpacked_neg (UnpackedFloat.unpack .binary64 x.toBits.toBitVec)
  rw [hparts] at hneg
  have hpack := ofWord_pack (u := (UnpackedFloat.unpack .binary64 x.toBits.toBitVec).neg)
    (hneg ▸ fits_neg (fits_ofWord _))
  exact hpack.trans hneg

end KeypadCalc.Binary64

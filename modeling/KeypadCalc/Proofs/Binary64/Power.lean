import KeypadCalc.Binary64.Power
import KeypadCalc.Proofs.Binary64.Comparison

/-!
# KeypadCalc — powers and the standard

The evaluator takes a power from a library that refuses some of them, and puts a value in the place
of each refusal. What it should put there is the power of the floating-point standard.
`StandardPower` lists what the standard fixes of a power, whatever it is for operands that are not
special. For finite operands such a power can come out in four ways (`StandardPower.ends`): two of
them are refused in the domain and one as an overflow.

* **`power_follows_standard`** — the power of the evaluator is that of the standard, the sign of an
  infinity included, but for the negative zero under a negative odd exponent.
-/

namespace KeypadCalc.Binary64

/-- What the standard fixes of a power. A power of a finite number that is not zero may come out as
any double on the right side of zero. -/
structure StandardPower (p : Float → Float → Float) : Prop where
  by_zero : ∀ x y, y == 0.0 → p x y = 1.0
  of_one : ∀ x y, x == 1.0 → p x y = 1.0
  of_nan : ∀ x y, ¬ y == 0.0 → ¬ x == 1.0 → x.isNaN ∨ y.isNaN → p x y = nan
  by_infinity : ∀ x y, ¬ x == 1.0 → ¬ x.isNaN → y.isInf → p x y = powInfinite x y
  of_infinity : ∀ x y, x.isInf → isFinite y → ¬ y == 0.0 →
    p x y = withSignOf x y (if 0.0 < y then infinity else 0.0)
  of_zero : ∀ x y, x == 0.0 → isFinite y → ¬ y == 0.0 →
    p x y = withSignOf x y (if 0.0 < y then 0.0 else infinity)
  undefined : ∀ x y, isFinite x → x < 0.0 → isFinite y → toInt? y = none → p x y = nan
  of_negative : ∀ x y, isFinite x → x < 0.0 → toInt? y ≠ none →
    if isOdd y then p x y ≤ 0.0 else 0.0 ≤ p x y
  of_positive : ∀ x y, isFinite x → 0.0 < x → isFinite y → 0.0 ≤ p x y

/-- The refusals of `checkedPow`, for any power in the place of `pow`. -/
def checkedOver (p : Float → Float → Float) (x y : Float) : Except PowFault Float :=
  let r := p x y
  if isFinite x && isFinite y then
    if r.isNaN then .error .domain
    else if r.isInf then .error (if x == 0.0 then .domain else .overflow)
    else .ok r
  else .ok r

/-- What `power` puts in the place of the refusals, for any power in the place of `pow`. -/
def powerOver (p : Float → Float → Float) (base exponent : Float) : Float :=
  match checkedOver p base exponent with
  | .ok r => r
  | .error .overflow => if base < 0.0 && isOdd exponent then -infinity else infinity
  | .error .domain => if base == 0.0 then infinity else nan

theorem power_eq_powerOver : power = powerOver pow := rfl

variable {p : Float → Float → Float} {x y : Float}

/-! ## The power of the model -/

/-- The clauses of `pow` around any primitive. -/
def powOver (prim : Float → Float → Float) (x y : Float) : Float :=
  if y == 0.0 || x == 1.0 then 1.0
  else if x.isNaN || y.isNaN then nan
  else if y.isInf then powInfinite x y
  else if x.isInf then withSignOf x y (if 0.0 < y then infinity else 0.0)
  else if x == 0.0 then withSignOf x y (if 0.0 < y then 0.0 else infinity)
  else if x < 0.0 && (toInt? y).isNone then nan
  else withSignOf x y (prim x.abs y)

/-- `pow` is built over the power of positive numbers. -/
theorem pow_eq_powOver : pow = powOver positivePow := rfl

variable {prim : Float → Float → Float}

/-- Neither of two holds, so no disjunction of them does. -/
theorem not_or_eq_true {a b : Bool} (ha : ¬ a) (hb : ¬ b) : ¬ (a || b) := by
  simp [ha, hb]

/-- An exponent of zero and a base of one decide alone. -/
theorem powOver_of_trivial (h : (y == 0.0) = true ∨ (x == 1.0) = true) :
    powOver prim x y = 1.0 := by
  rw [powOver, if_pos (by simpa using h)]

/-- Finite numbers that are not special: the power of the absolute value, under the sign of an odd
exponent. -/
theorem powOver_of_finite (hx : isFinite x) (hy : isFinite y) (hzero : ¬ x == 0.0)
    (hby : ¬ y == 0.0) (hone : ¬ x == 1.0) :
    powOver prim x y =
      if x < 0.0 && (toInt? y).isNone then nan else withSignOf x y (prim x.abs y) := by
  obtain ⟨hnan, hinf⟩ := apart_of_isFinite hx
  obtain ⟨hnan', hinf'⟩ := apart_of_isFinite hy
  rw [powOver, if_neg (not_or_eq_true hby hone), if_neg (not_or_eq_true hnan hnan'), if_neg hinf',
    if_neg hinf, if_neg hzero]

/-- What is not one by a test that one itself does not pass. -/
theorem not_beq_one {c : Float → Bool} (hone : c 1.0 = false) (hx : c x) : ¬ x == 1.0 := by
  intro h
  rw [eq_one_of_beq h, hone] at hx
  cases hx

theorem not_beq_one_of_lt_zero (hneg : x < 0.0) : ¬ x == 1.0 :=
  not_beq_one (c := fun x => decide (x < 0.0)) (by decide +kernel) (decide_eq_true hneg)

theorem one_nonneg : (0.0 : Float) ≤ 1.0 := by decide +kernel

section Primitive

variable (hprim : ∀ x y, isFinite x → 0.0 < x → isFinite y → 0.0 ≤ prim x y)

include hprim

/-- An odd exponent takes the sign of the base over, and an even one does not. -/
theorem side_powOver_of_negative (hx : isFinite x) (hneg : x < 0.0) (hwhole : toInt? y ≠ none) :
    if isOdd y then powOver prim x y ≤ 0.0 else 0.0 ≤ powOver prim x y := by
  obtain ⟨n, hn⟩ := Option.ne_none_iff_exists'.1 hwhole
  have hy := isFinite_of_toInt? hn
  have hzero := (apart_of_lt_zero hneg).1
  by_cases hby : y == 0.0
  · -- under a zero the power is one, on the side of an even exponent
    have heven : isOdd y = false := by
      rw [isOdd, toInt?_of_beq_zero hby]
      rfl
    rw [powOver_of_trivial (.inl hby), heven]
    exact one_nonneg
  · obtain ⟨habs, hpos⟩ := abs_of_isFinite hx hzero
    have hmagnitude := hprim x.abs y habs hpos hy
    have hsign := (isNegative_iff hx hzero).2 hneg
    -- the exponent is whole, so the power is not undefined
    have hguard : ¬ (x < 0.0 && (toInt? y).isNone) = true := by simp [hn]
    rw [powOver_of_finite hx hy hzero hby (not_beq_one_of_lt_zero hneg), if_neg hguard, withSignOf,
      hsign, Bool.true_and]
    by_cases hodd : isOdd y = true
    · rw [if_pos hodd, if_pos hodd]
      exact neg_le_zero hmagnitude
    · rw [if_neg hodd, if_neg hodd]
      exact hmagnitude

theorem powOver_nonneg_of_positive (hx : isFinite x) (hpos : 0.0 < x) (hy : isFinite y) :
    0.0 ≤ powOver prim x y := by
  obtain ⟨hnot, hzero⟩ := apart_of_zero_lt hpos
  by_cases htrivial : (y == 0.0) = true ∨ (x == 1.0) = true
  · rw [powOver_of_trivial htrivial]
    exact one_nonneg
  · obtain ⟨hby, hone⟩ := not_or.1 htrivial
    obtain ⟨habs, habs'⟩ := abs_of_isFinite hx hzero
    have hsign : isNegative x = false := by
      rw [Bool.eq_false_iff]
      exact mt (isNegative_iff hx hzero).1 hnot
    rw [powOver_of_finite hx hy hzero hby hone, if_neg (by simp [hnot]), withSignOf, hsign]
    exact hprim x.abs y habs habs' hy

/-- Around a primitive that is nowhere below zero, the clauses are those of the standard. -/
theorem standard_powOver : StandardPower (powOver prim) where
  -- the branches of `powOver` in their order: each law refutes the guards before its own
  by_zero := fun x y h => powOver_of_trivial (.inl h)
  of_one := fun x y h => powOver_of_trivial (.inr h)
  of_nan := by
    intro x y hby hone h
    rw [powOver, if_neg (not_or_eq_true hby hone), if_pos (by rwa [Bool.or_eq_true])]
  by_infinity := by
    intro x y hone hnan hinf
    obtain ⟨hnan', hby⟩ := apart_of_isInf hinf
    rw [powOver, if_neg (not_or_eq_true hby hone), if_neg (not_or_eq_true hnan hnan'),
      if_pos hinf]
  of_infinity := by
    intro x y hinf hy hby
    have hone : ¬ x == 1.0 := not_beq_one (c := Float.isInf) (by decide +kernel) hinf
    have hnan : ¬ x.isNaN := (apart_of_isInf hinf).1
    obtain ⟨hnan', hinf'⟩ := apart_of_isFinite hy
    rw [powOver, if_neg (not_or_eq_true hby hone), if_neg (not_or_eq_true hnan hnan'), if_neg hinf',
      if_pos hinf]
  of_zero := by
    intro x y hzero hy hby
    have hone : ¬ x == 1.0 := not_beq_one (c := (· == 0.0)) (by decide +kernel) hzero
    obtain ⟨hnan, hinf⟩ := apart_of_isFinite (isFinite_of_beq_zero hzero)
    obtain ⟨hnan', hinf'⟩ := apart_of_isFinite hy
    rw [powOver, if_neg (not_or_eq_true hby hone), if_neg (not_or_eq_true hnan hnan'), if_neg hinf',
      if_neg hinf, if_pos hzero]
  undefined := by
    intro x y hx hneg hy hwhole
    -- a zero exponent would be a whole number
    have hby : ¬ y == 0.0 := by
      intro h
      rw [toInt?_of_beq_zero h] at hwhole
      cases hwhole
    rw [powOver_of_finite hx hy (apart_of_lt_zero hneg).1 hby (not_beq_one_of_lt_zero hneg),
      if_pos (by simp [hneg, hwhole])]
  of_negative := fun x y hx hneg hwhole => side_powOver_of_negative hprim hx hneg hwhole
  of_positive := fun x y hx hpos hy => powOver_nonneg_of_positive hprim hx hpos hy

end Primitive

/-! ## Refusals -/

theorem isInf_infinity_or_neg (negative : Bool) :
    (if negative then -infinity else infinity).isInf = true := by
  cases negative <;> decide +kernel

theorem checkedOver_of_finite (hr : isFinite (p x y)) : checkedOver p x y = .ok (p x y) := by
  obtain ⟨hnan, hinf⟩ := apart_of_isFinite hr
  simp only [checkedOver, if_neg hnan, if_neg hinf, ite_self]

/-- A power is taken as it is where an operand is not finite. -/
theorem checkedOver_of_special (h : ¬ (isFinite x ∧ isFinite y)) :
    checkedOver p x y = .ok (p x y) := by
  simp only [checkedOver, Bool.and_eq_true, if_neg h]

/-- An infinity is refused in the domain for a zero, and as an overflow for any other number. -/
theorem checkedOver_of_isInf (hx : isFinite x) (hy : isFinite y) (hr : (p x y).isInf) :
    checkedOver p x y = .error (if x == 0.0 then .domain else .overflow) := by
  have hnan : ¬ (p x y).isNaN := (apart_of_isInf hr).1
  simp only [checkedOver, Bool.and_eq_true, if_pos (And.intro hx hy), if_neg hnan, if_pos hr]

/-- One of finite numbers that comes out as not a number is refused in the domain. -/
theorem checkedOver_of_nan (hx : isFinite x) (hy : isFinite y) (hr : p x y = nan) :
    checkedOver p x y = .error .domain := by
  have hnan : (p x y).isNaN = true := isNaN_iff.2 (by rw [hr, datum_nan])
  simp only [checkedOver, Bool.and_eq_true, if_pos (And.intro hx hy), if_pos hnan]

/-! ## How a power of finite numbers comes out -/

/-- The ways in which a power of finite numbers can come out, with what becomes of it: finite, and
taken; infinite, for a zero under a negative exponent, or undefined, for a negative base under an
exponent that is not whole, and refused in the domain; infinite for another base, and refused as an
overflow. -/
inductive PowerEnd (x y r : Float) (checked : Except PowFault Float) : Prop where
  | finite (hx : x == 0.0 → ¬ y < 0.0) (hr : isFinite r) (hchecked : checked = .ok r)
  | pole (hx : x == 0.0) (hy : y < 0.0) (hr : r = withSignOf x y infinity)
      (hchecked : checked = .error .domain)
  | undefined (hx : x < 0.0) (hy : toInt? y = none) (hr : r = nan)
      (hchecked : checked = .error .domain)
  | overflow (hx : ¬ x == 0.0) (hr : r = if x < 0.0 && isOdd y then -infinity else infinity)
      (hchecked : checked = .error .overflow)

/-- A power of a number other than zero that comes out infinite is an overflow. -/
theorem PowerEnd.of_infinite (hx : isFinite x) (hy : isFinite y) (hnonzero : ¬ x == 0.0)
    (hr : p x y = if x < 0.0 && isOdd y then -infinity else infinity) :
    PowerEnd x y (p x y) (checkedOver p x y) := by
  have hinf : (p x y).isInf := by
    rw [hr]
    exact isInf_infinity_or_neg _
  exact .overflow hnonzero hr (by rw [checkedOver_of_isInf hx hy hinf, if_neg hnonzero])

/-- A power that comes out finite ends so, unless it is one of zero below zero. -/
theorem PowerEnd.of_finite (hx : x == 0.0 → ¬ y < 0.0) (hr : isFinite (p x y)) :
    PowerEnd x y (p x y) (checkedOver p x y) :=
  .finite hx hr (checkedOver_of_finite hr)

/-- A negative base: the parity of the exponent tells the side of the power. -/
theorem StandardPower.ends_of_negative (hp : StandardPower p) (hx : isFinite x) (hy : isFinite y)
    (hneg : x < 0.0) : PowerEnd x y (p x y) (checkedOver p x y) := by
  have hnonzero := (apart_of_lt_zero hneg).1
  -- a power of a negative base is real only for a whole exponent, whose parity is its sign
  by_cases hwhole : toInt? y = none
  · have hr := hp.undefined x y hx hneg hy hwhole
    exact .undefined hneg hwhole hr (checkedOver_of_nan hx hy hr)
  · have hside := hp.of_negative x y hx hneg hwhole
    by_cases hodd : isOdd y = true
    · rw [if_pos hodd] at hside
      rcases eq_neg_infinity_or_isFinite hside with hr | hr
      · exact .of_infinite hx hy hnonzero (by rw [hr, if_pos (by simp [hneg, hodd])])
      · exact .of_finite (fun h => absurd h hnonzero) hr
    · rw [if_neg hodd] at hside
      rcases eq_infinity_or_isFinite hside with hr | hr
      · exact .of_infinite hx hy hnonzero (by rw [hr, if_neg (by simp [hodd])])
      · exact .of_finite (fun h => absurd h hnonzero) hr

/-- A zero: the exponent tells whether the power is infinite, one, or a zero. -/
theorem StandardPower.ends_of_zero (hp : StandardPower p) (hx : isFinite x) (hy : isFinite y)
    (hzero : x == 0.0) : PowerEnd x y (p x y) (checkedOver p x y) := by
  -- an exponent below zero makes a pole; for one at zero the power is one, and above it zero
  rcases side_cases hy with hbelow | hby | habove
  · obtain ⟨hnonzero, hnot⟩ := apart_of_lt_zero hbelow
    have hr : p x y = withSignOf x y infinity := by
      rw [hp.of_zero x y hzero hy hnonzero, if_neg hnot]
    have hinf : (p x y).isInf := by
      rw [hr]
      exact isInf_infinity_or_neg _
    exact .pole hzero hbelow hr (by rw [checkedOver_of_isInf hx hy hinf, if_pos hzero])
  · refine .of_finite (fun _ => (apart_of_beq_zero hby).1) ?_
    rw [hp.by_zero x y hby]
    decide +kernel
  · obtain ⟨hnot, hnonzero⟩ := apart_of_zero_lt habove
    refine .of_finite (fun _ => hnot) ?_
    rw [hp.of_zero x y hzero hy hnonzero, if_pos habove, withSignOf]
    split <;> decide +kernel

/-- The standard leaves four ways for finite operands to come out. -/
theorem StandardPower.ends (hp : StandardPower p) (hx : isFinite x) (hy : isFinite y) :
    PowerEnd x y (p x y) (checkedOver p x y) := by
  rcases side_cases hx with hneg | hzero | hpos
  · exact hp.ends_of_negative hx hy hneg
  · exact hp.ends_of_zero hx hy hzero
  · obtain ⟨hnot, hnonzero⟩ := apart_of_zero_lt hpos
    rcases eq_infinity_or_isFinite (hp.of_positive x y hx hpos hy) with hr | hr
    · exact .of_infinite hx hy hnonzero (by rw [hr, if_neg (by simp [hnot])])
    · exact .of_finite (fun h => absurd h hnonzero) hr

/-- A power is refused as an overflow where it is infinite though its operands are finite, the base
not being zero. -/
theorem StandardPower.overflow_iff (hp : StandardPower p) :
    checkedOver p x y = .error .overflow ↔
      isFinite x ∧ isFinite y ∧ ¬ x == 0.0 ∧ (p x y).isInf := by
  constructor
  · intro h
    by_cases hfinite : isFinite x ∧ isFinite y
    · obtain ⟨hx, hy⟩ := hfinite
      cases hp.ends hx hy with
      | overflow hnonzero hr _ =>
        refine ⟨hx, hy, hnonzero, ?_⟩
        rw [hr]
        exact isInf_infinity_or_neg _
      | finite _ _ hchecked | pole _ _ _ hchecked | undefined _ _ _ hchecked =>
        rw [hchecked] at h
        cases h
    · rw [checkedOver_of_special hfinite] at h
      cases h
  · -- an infinite power of finite numbers is refused, for the pole if the base is zero
    rintro ⟨hx, hy, hnonzero, hr⟩
    rw [checkedOver_of_isInf hx hy hr, if_neg hnonzero]

/-- A power is refused in the domain for a zero under a negative exponent, and for a finite negative
base under a finite exponent that is not whole. -/
theorem StandardPower.domain_iff (hp : StandardPower p) :
    checkedOver p x y = .error .domain ↔ isFinite x ∧ isFinite y ∧
      ((x == 0.0) = true ∧ y < 0.0 ∨ x < 0.0 ∧ toInt? y = none) := by
  constructor
  · intro h
    by_cases hfinite : isFinite x ∧ isFinite y
    · obtain ⟨hx, hy⟩ := hfinite
      -- of the four ends of a power of finite operands two are out of its domain
      cases hp.ends hx hy with
      | pole hzero hbelow _ _ => exact ⟨hx, hy, .inl ⟨hzero, hbelow⟩⟩
      | undefined hneg hwhole _ _ => exact ⟨hx, hy, .inr ⟨hneg, hwhole⟩⟩
      | finite _ _ hchecked | overflow _ _ hchecked =>
        rw [hchecked] at h
        cases h
    · rw [checkedOver_of_special hfinite] at h
      cases h
  · rintro ⟨hx, hy, ⟨hzero, hbelow⟩ | ⟨hneg, hwhole⟩⟩
    · cases hp.ends hx hy with
      | pole _ _ _ hchecked | undefined _ _ _ hchecked => exact hchecked
      | finite hnot _ _ => exact absurd hbelow (hnot hzero)
      | overflow hnonzero _ _ => exact absurd hzero hnonzero
    · exact checkedOver_of_nan hx hy (hp.undefined x y hx hneg hy hwhole)

/-! ## What takes the place of a refusal -/

/-- A zero under a finite negative exponent is answered with the positive infinity, where the
standard goes by the sign of the zero. -/
theorem StandardPower.powerOver_of_pole (hp : StandardPower p) (hzero : x == 0.0) (hbelow : y < 0.0)
    (hy : isFinite y) :
    powerOver p x y = infinity ∧ p x y = withSignOf x y infinity := by
  obtain ⟨hnonzero, hnot⟩ := apart_of_lt_zero hbelow
  have hchecked : checkedOver p x y = .error .domain :=
    hp.domain_iff.2 ⟨isFinite_of_beq_zero hzero, hy, .inl ⟨hzero, hbelow⟩⟩
  constructor
  · rw [powerOver, hchecked]
    exact if_pos hzero
  · rw [hp.of_zero x y hzero hy hnonzero, if_neg hnot]

/-- Any other power is as it was before it was refused. -/
theorem StandardPower.powerOver_eq (hp : StandardPower p)
    (h : ¬ ((x == 0.0) = true ∧ y < 0.0 ∧ isFinite y)) : powerOver p x y = p x y := by
  rw [powerOver]
  by_cases hfinite : isFinite x ∧ isFinite y
  · obtain ⟨hx, hy⟩ := hfinite
    cases hp.ends hx hy with
    | finite _ _ hchecked => rw [hchecked]
    | pole hzero hbelow _ _ => exact absurd ⟨hzero, hbelow, hy⟩ h
    | undefined hneg _ hr hchecked =>
      rw [hchecked, hr]
      exact if_neg (apart_of_lt_zero hneg).1
    | overflow _ hr hchecked => rw [hchecked, hr]
  · rw [checkedOver_of_special hfinite]

theorem isFinite_of_isOdd (h : isOdd y) : isFinite y = true := by
  rw [isOdd] at h
  cases hn : toInt? y with
  | none => simp [hn] at h
  | some n => exact isFinite_of_toInt? hn

/-- **The power of the evaluator follows the standard, but for one pole.** Whatever power the
library computes within the standard, what becomes of it behind the refusals is the same double,
with the same sign where it is infinite. The one exception is the negative zero under a negative odd
exponent: there the standard has the negative infinity, and the evaluator the positive one. -/
theorem power_follows_standard (hp : StandardPower p) :
    power = powerOver (powOver positivePow) ∧ ∀ x y : Float,
      (¬ (x = -0.0 ∧ y < 0.0 ∧ isOdd y) → powerOver p x y = p x y) ∧
      (x = -0.0 ∧ y < 0.0 ∧ isOdd y → powerOver p x y = infinity ∧ p x y = -infinity) := by
  rw [← pow_eq_powOver]
  refine ⟨power_eq_powerOver, fun x y => ⟨fun hother => ?_, ?_⟩⟩
  · by_cases hpole : (x == 0.0) = true ∧ y < 0.0 ∧ isFinite y
    · -- a pole on the positive side
      obtain ⟨hzero, hbelow, hy⟩ := hpole
      obtain ⟨hpower, hr⟩ := hp.powerOver_of_pole hzero hbelow hy
      have hplus : ¬ (isNegative x && isOdd y) = true := by
        rw [Bool.and_eq_true, isNegative_zero_iff hzero]
        exact fun h => hother ⟨h.1, hbelow, h.2⟩
      rw [hpower, hr, withSignOf, if_neg hplus]
    · exact hp.powerOver_eq hpole
  · rintro ⟨rfl, hbelow, hodd⟩
    have hzero : (-0.0 : Float) == 0.0 := by decide +kernel
    obtain ⟨hpower, hr⟩ := hp.powerOver_of_pole hzero hbelow (isFinite_of_isOdd hodd)
    have hminus : (isNegative (-0.0) && isOdd y) = true := by
      rw [Bool.and_eq_true, isNegative_zero_iff hzero]
      exact ⟨rfl, hodd⟩
    rw [hpower, hr, withSignOf, if_pos hminus]
    exact ⟨rfl, rfl⟩

/-- The product of three equal factors, where that is not below zero. -/
def cube (x _y : Float) : Float :=
  if 0.0 ≤ x * x * x then x * x * x else 1.0

/-- The cube, taken for every power of positive numbers, makes a power with the signs of the
standard. -/
theorem standard_cube : StandardPower (powOver cube) := by
  refine standard_powOver fun x y _ _ _ => ?_
  rw [cube]
  split
  · assumption
  · exact one_nonneg

/-- The cube of a large negative number is refused as an overflow, and the negative infinity is put
back in its place. -/
theorem cube_of_large_negative :
    StandardPower (powOver cube) ∧
      checkedOver (powOver cube) (-1e200) 3.0 = .error .overflow ∧
      powerOver (powOver cube) (-1e200) 3.0 = powOver cube (-1e200) 3.0 ∧
      powOver cube (-1e200) 3.0 = -infinity := by
  have hzero : (-1e200 : Float) ≠ -0.0 := by decide +kernel
  have hrefused : checkedOver (powOver cube) (-1e200) 3.0 = .error .overflow := by decide +kernel
  have hcube : powOver cube (-1e200) 3.0 = -infinity := by decide +kernel
  have hsame := ((power_follows_standard standard_cube).2 (-1e200) 3.0).1 fun h => hzero h.1
  exact ⟨standard_cube, hrefused, hsame, hcube⟩

/-- In `-0**-1` the negative zero has the negative infinity for its power, and the evaluator answers
with the positive one. -/
theorem pole_of_negative_zero :
    Evaluator.evaluate .usual 100 "-0**-1" = .ok (power (-0.0) (-1.0)) ∧
      power (-0.0) (-1.0) = infinity ∧ pow (-0.0) (-1.0) = -infinity ∧ infinity ≠ -infinity := by
  have hevaluate : Evaluator.evaluate .usual 100 "-0**-1" = .ok (power (-0.0) (-1.0)) := by
    decide +kernel
  exact ⟨hevaluate, by decide +kernel, by decide +kernel, by decide +kernel⟩

end KeypadCalc.Binary64

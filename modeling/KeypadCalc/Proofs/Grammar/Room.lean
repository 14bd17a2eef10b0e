import KeypadCalc.Calculator
import KeypadCalc.Proofs.Grammar.Soundness

/-!
# KeypadCalc — more room

More room for levels, and more places for calls, change nothing but the lack of them: an outcome other
than that of too many levels stays as it is (`agrees_whole`). Two runs of a reader, in a narrow room
and in a wide one, are kept in step through all their parts up to where the narrow one gives up
(`Agrees.bind`).

* **`limit_only_refuses_nesting`** — a lower limit on levels leaves the report of an expression as it
  is, or turns it into the report of too many levels.
-/

namespace KeypadCalc.Grammar

open Evaluator (Operation Reading chain)

/-- An outcome in a wide room is the one in a narrow room, unless that has too many levels. -/
def Agrees {α : Type} (narrow wide : Except Fault α) : Prop :=
  narrow ≠ .error .nestingTooDeep → wide = narrow

theorem Agrees.refl {α : Type} (x : Except Fault α) : Agrees x x :=
  fun _ => rfl

theorem Agrees.tooDeep {α : Type} (x : Except Fault α) : Agrees (.error .nestingTooDeep) x :=
  fun h => absurd rfl h

/-- Outcomes that agree go on to outcomes that agree. -/
theorem Agrees.bind {α β : Type} {x y : Except Fault α} {f g : α → Except Fault β}
    (h : Agrees x y) (hf : ∀ a, Agrees (f a) (g a)) : Agrees (x >>= f) (y >>= g) := by
  intro hne
  cases x with
  | error fault =>
    have hfault : (Except.error fault : Except Fault α) ≠ .error .nestingTooDeep := by
      rintro ⟨⟩
      exact hne rfl
    rw [h hfault]
    rfl
  | ok a =>
    rw [h nofun]
    exact hf a hne

/-- Chains of operands that agree do so. Induction on the fuel. -/
theorem agrees_chain {narrow wide : List Token → Reading} (h : ∀ ts, Agrees (narrow ts) (wide ts))
    (operation? : Token.Kind → Option Operation) (fuel : Nat) (v : Float) (ts : List Token) :
    Agrees (chain narrow operation? fuel v ts) (chain wide operation? fuel v ts) := by
  induction fuel generalizing v ts with
  | zero => exact .refl _
  | succ fuel ih =>
    cases ts with
    | nil => exact .refl _
    | cons t tail =>
      rw [chain, chain]
      cases operation? t.kind with
      | none => exact .refl _
      | some operation =>
        refine .bind (h tail) fun next => ?_
        exact .bind (.refl (operation v next.1)) fun u => ih u next.2

/-! ## Readers -/

/-- The readings of a rank with some places and some room agree with those with more of both. -/
def Steady (r : Rank) (places room : Nat) : Prop :=
  ∀ places' room', places ≤ places' → room ≤ room' → ∀ ts,
    Agrees (read r places room ts) (read r places' room' ts)

variable {places room : Nat}

/-- A level that is entered in the narrow room is there in the wide one, and so is a place. -/
theorem exists_lower {n n' : Nat} (h : n + 1 ≤ n') : ∃ lower, n' = lower + 1 ∧ n ≤ lower :=
  ⟨n' - 1, by omega, by omega⟩

/-- Without a place a reading has too many levels at once. -/
theorem Steady.exhausted (r : Rank) (room : Nat) : Steady r 0 room := by
  intro places' room' _ _ ts
  rw [read_zero]
  exact .tooDeep _

theorem Steady.sum_zero (places : Nat) : Steady .sum (places + 1) 0 := by
  intro places' room' _ _ ts
  rw [read, Evaluator.sum]
  exact .tooDeep _

theorem Steady.sum (hp : Steady .product places room) : Steady .sum (places + 1) (room + 1) := by
  intro places' room' hplaces hroom ts
  obtain ⟨fewer, rfl, hfewer⟩ := exists_lower hplaces
  obtain ⟨lower, rfl, hlower⟩ := exists_lower hroom
  rw [read, Evaluator.sum, Evaluator.sum]
  refine .bind (hp fewer lower hfewer hlower ts) fun first => ?_
  exact agrees_chain (hp fewer lower hfewer hlower) Evaluator.additive? first.2.length first.1
    first.2

theorem Steady.product (hf : Steady .factor places room) : Steady .product (places + 1) room := by
  intro places' room' hplaces hroom ts
  obtain ⟨fewer, rfl, hfewer⟩ := exists_lower hplaces
  rw [read, Evaluator.product, Evaluator.product]
  refine .bind (hf fewer room' hfewer hroom ts) fun first => ?_
  exact agrees_chain (hf fewer room' hfewer hroom) Evaluator.multiplicative? first.2.length first.1
    first.2

/-- A factor is steady if its base is, and the exponent one level down. -/
theorem Steady.factor (hb : Steady .base places room)
    (hf : ∀ lower, room = lower + 1 → Steady .factor places lower) :
    Steady .factor (places + 1) room := by
  intro places' room' hplaces hroom ts
  obtain ⟨fewer, rfl, hfewer⟩ := exists_lower hplaces
  rw [read, Evaluator.factor.eq_def, Evaluator.factor.eq_def]
  refine .bind (hb fewer room' hfewer hroom ts) fun first => ?_
  obtain ⟨v, rest⟩ := first
  cases rest with
  | nil => exact .refl _
  | cons t tail =>
    simp only
    split
    · cases room with
      | zero => exact .tooDeep _
      | succ lower =>
        -- the wider room has room for the exponent too, one level down
        obtain ⟨lower', rfl, hlower⟩ := exists_lower hroom
        exact .bind (hf lower rfl fewer lower' hfewer hlower tail) fun _ => .refl _
    · exact .refl _

/-- A base is steady if a sum in parentheses is, and the operand of a minus sign one level down. -/
theorem Steady.base (hs : Steady .sum places room)
    (hb : ∀ lower, room = lower + 1 → Steady .base places lower) :
    Steady .base (places + 1) room := by
  intro places' room' hplaces hroom ts
  obtain ⟨fewer, rfl, hfewer⟩ := exists_lower hplaces
  cases ts with
  | nil =>
    rw [read, Evaluator.base, Evaluator.base]
    exact .refl _
  | cons t tail =>
    rw [read, Evaluator.base.eq_def, Evaluator.base.eq_def]
    simp only
    split
    · exact .refl _
    · -- a minus sign takes a level of both rooms
      cases room with
      | zero => exact .tooDeep _
      | succ lower =>
        obtain ⟨lower', rfl, hlower⟩ := exists_lower hroom
        exact .bind (hb lower rfl fewer lower' hfewer hlower tail) fun _ => .refl _
    · exact .bind (hs fewer room' hfewer hroom tail) fun _ => .refl _
    · exact .bind (hs fewer room' hfewer hroom tail) fun _ => .refl _
    · exact .refl _

/-- Every reading agrees with the one with more places and in a wider room. -/
theorem steady (r : Rank) (places room : Nat) : Steady r places room :=
  Rank.places_induction .exhausted .sum_zero (fun _ _ => .sum) (fun _ _ => .product)
    (fun _ _ => .factor) (fun _ _ => .base) r places room

/-- **With more places and in a wider room an expression has the same outcome, unless it has too many
levels.** -/
theorem agrees_whole {places places' room room' : Nat} (hplaces : places ≤ places')
    (hroom : room ≤ room') (ts : List Token) :
    Agrees (Evaluator.whole places room ts) (Evaluator.whole places' room' ts) :=
  .bind (steady .sum places room places' room' hplaces hroom ts) fun _ => .refl _

/-! ## Limits -/

variable {stack : Evaluator.Stack}

/-- Under a higher limit an expression has the same outcome, unless it has too many levels. -/
theorem agrees_evaluate (stack : Evaluator.Stack) {maxDepth higher : Int} (h : maxDepth ≤ higher)
    (w : String) :
    Agrees (Evaluator.evaluate stack maxDepth w) (Evaluator.evaluate stack higher w) := by
  unfold Evaluator.evaluate
  cases Token.lexemes w with
  | error stray => exact .refl _
  | ok ts => exact agrees_whole (Nat.le_refl _) (Int.toNat_le_toNat h) ts

/-- The outcome of an expression under a limit on levels, with a fault as it is reported. -/
def reported (stack : Evaluator.Stack) (maxDepth : Int) (w : String) : Except Failure Float :=
  (Evaluator.evaluate stack maxDepth w).mapError (Fault.failure w maxDepth)

/-- The report of an expression that has more levels than a limit. -/
def nestingFailure (maxDepth : Int) (w : String) : Failure :=
  ⟨.invalidExpression, .string "Invalid expression: nesting is too deep.",
    [("expression", .string w), ("maxDepth", .int maxDepth)]⟩

/-- The limit is reported with too many levels alone. -/
theorem failure_eq_nestingFailure_iff {fault : Fault} {maxDepth : Int} {w : String} :
    fault.failure w maxDepth = nestingFailure maxDepth w ↔ fault = .nestingTooDeep := by
  constructor
  · intro h
    have hdetails : fault.details w maxDepth = (nestingFailure maxDepth w).details :=
      congrArg Failure.details h
    match fault with
    | .nestingTooDeep => rfl
    | .stray s | .unexpected (some t) | .unexpected none | .divisionByZero =>
      simp [Fault.details, Fault.position?, nestingFailure] at hdetails
  · rintro rfl
    rfl

/-- Of all faults only too many levels are reported with the limit. -/
theorem failure_of_ne_nestingTooDeep {fault : Fault} (h : fault ≠ .nestingTooDeep) (w : String)
    (maxDepth higher : Int) : fault.failure w higher = fault.failure w maxDepth := by
  match fault with
  | .nestingTooDeep => exact absurd rfl h
  | .stray s | .unexpected (some t) | .unexpected none | .divisionByZero => rfl

theorem reported_eq_nestingFailure_iff {maxDepth : Int} {w : String} :
    reported stack maxDepth w = .error (nestingFailure maxDepth w) ↔
      Evaluator.evaluate stack maxDepth w = .error .nestingTooDeep := by
  unfold reported
  cases Evaluator.evaluate stack maxDepth w with
  | ok v =>
    show Except.ok v = .error (nestingFailure maxDepth w) ↔
      Except.ok v = .error Fault.nestingTooDeep
    simp
  | error fault =>
    show Except.error (fault.failure w maxDepth) = .error (nestingFailure maxDepth w) ↔
      (Except.error fault : Except Fault Float) = .error .nestingTooDeep
    simp [failure_eq_nestingFailure_iff]

/-- **A limit on levels only ever turns an outcome into that of too many levels.** Where an
expression has not too many for a limit, a higher one makes no difference to what is reported; and
what has too many for the higher one has too many for the lower, which is then the one reported. -/
theorem limit_only_refuses_nesting (stack : Evaluator.Stack) {maxDepth higher : Int}
    (h : maxDepth ≤ higher) (w : String) :
    (reported stack maxDepth w ≠ .error (nestingFailure maxDepth w) →
      reported stack higher w = reported stack maxDepth w) ∧
    (reported stack higher w = .error (nestingFailure higher w) →
      reported stack maxDepth w = .error (nestingFailure maxDepth w)) := by
  have hagrees := agrees_evaluate stack h w
  rw [Ne, reported_eq_nestingFailure_iff, reported_eq_nestingFailure_iff]
  constructor
  · intro hne
    have hsame := hagrees hne
    unfold reported
    rw [hsame]
    cases houtcome : Evaluator.evaluate stack maxDepth w with
    | ok v => rfl
    | error fault =>
      -- the limit is named in the report of too many levels alone
      have hfault : fault ≠ .nestingTooDeep := by
        rintro rfl
        exact hne houtcome
      exact congrArg Except.error (failure_of_ne_nestingTooDeep hfault w maxDepth higher)
  · intro hdeep
    by_cases hlow : Evaluator.evaluate stack maxDepth w = .error .nestingTooDeep
    · exact hlow
    · rw [← hagrees hlow, hdeep]

/-- The division by zero in `(1/(1-1))` is met with three levels and with four; the levels of
`1**(2**-(3))` are too many for four, and so for three. -/
theorem reported_with_three_and_four :
    (3 : Int) ≤ 4 ∧
      reported .usual 4 "(1/(1-1))" = .error ⟨.divisionByZero,
        .string "Division by zero is not allowed.", [("expression", .string "(1/(1-1))")]⟩ ∧
      reported .usual 3 "1**(2**-(3))" = .error (nestingFailure 3 "1**(2**-(3))") := by
  have hzero : Evaluator.evaluate .usual 3 "(1/(1-1))" = .error .divisionByZero := by decide +kernel
  have hdeep : Evaluator.evaluate .usual 4 "1**(2**-(3))" = .error .nestingTooDeep := by decide +kernel
  have hmet : reported .usual 3 "(1/(1-1))" ≠ .error (nestingFailure 3 "(1/(1-1))") := by
    rw [Ne, reported_eq_nestingFailure_iff, hzero]
    nofun
  obtain ⟨hsame, -⟩ := limit_only_refuses_nesting .usual (show (3 : Int) ≤ 4 by decide) "(1/(1-1))"
  obtain ⟨-, hrefuses⟩ :=
    limit_only_refuses_nesting .usual (show (3 : Int) ≤ 4 by decide) "1**(2**-(3))"
  refine ⟨by decide, ?_, hrefuses (reported_eq_nestingFailure_iff.2 hdeep)⟩
  rw [hsame hmet, reported, hzero]
  rfl

end KeypadCalc.Grammar

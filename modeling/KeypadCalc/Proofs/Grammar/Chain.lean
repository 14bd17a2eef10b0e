import KeypadCalc.Evaluator
import KeypadCalc.Proofs.Outcome
import Mathlib.Logic.Relation

/-!
# KeypadCalc — chains of operators

The loop that reads a chain of operators of one rank, described by its rounds. A `Round` takes one
operator with its operand and combines it with the value so far. A reading of the loop is a sequence
of rounds (`rounds_of_chain`), and where an operand is never longer than the text it is read from,
every sequence of rounds that ends where no operator stands is a reading (`chain_of_rounds`).
-/

namespace KeypadCalc.Evaluator

variable {operand : List Token → Reading} {operation? : Token.Kind → Option Operation}

/-- A value with the tokens behind it. -/
abbrev Standing := Float × List Token

/-- One round of the loop: an operator, its operand, and the value that the two lead to. -/
def Round (operand : List Token → Reading) (operation? : Token.Kind → Option Operation)
    (before after : Standing) : Prop :=
  ∃ t tail operation w, before.2 = t :: tail ∧ operation? t.kind = some operation ∧
    operand tail = .ok (w, after.2) ∧ operation before.1 w = .ok after.1

/-- Any number of rounds. -/
abbrev Rounds (operand : List Token → Reading) (operation? : Token.Kind → Option Operation) :
    Standing → Standing → Prop :=
  Relation.ReflTransGen (Round operand operation?)

/-- No operator of the loop stands at the front of what is left. -/
def Stops (operation? : Token.Kind → Option Operation) (ts : List Token) : Prop :=
  ∀ t tail, ts = t :: tail → operation? t.kind = none

/-- A part is never longer than the tokens that it is read from. -/
def Shortens (operand : List Token → Reading) : Prop :=
  ∀ ts w rest, operand ts = .ok (w, rest) → rest.length ≤ ts.length

/-- The loop takes nothing where no operator stands. -/
theorem chain_of_stops {v : Float} {ts : List Token} (h : Stops operation? ts) (fuel : Nat) :
    chain operand operation? fuel v ts = .ok (v, ts) := by
  cases fuel with
  | zero => rfl
  | succ fuel =>
    cases ts with
    | nil => rfl
    | cons t tail => rw [chain, h t tail rfl]

/-- A reading of the loop is a sequence of rounds. Induction on the fuel, a unit for each round. -/
theorem rounds_of_chain {fuel : Nat} {v u : Float} {ts rest : List Token}
    (h : chain operand operation? fuel v ts = .ok (u, rest)) :
    Rounds operand operation? (v, ts) (u, rest) := by
  induction fuel generalizing v ts with
  | zero =>
    cases h
    exact .refl
  | succ fuel ih =>
    cases ts with
    | nil =>
      cases h
      exact .refl
    | cons t tail =>
      rw [chain] at h
      split at h
      · cases h
        exact .refl
      · next operation hop =>
        -- the round that this unit of fuel pays for
        obtain ⟨⟨w, mid⟩, hw, h⟩ := bind_eq_ok_iff.1 h
        obtain ⟨x, hx, h⟩ := bind_eq_ok_iff.1 h
        have hround : Round operand operation? (v, t :: tail) (x, mid) :=
          ⟨t, tail, operation, w, rfl, hop, hw, hx⟩
        exact .head hround (ih h)

/-- Rounds that end where no operator stands are a reading, given a unit of fuel for each token.
Induction on the rounds from the first one; `hshort` keeps the fuel ahead of the tokens left. -/
theorem chain_of_rounds (hshort : Shortens operand) {v u : Float} {ts rest : List Token}
    (h : Rounds operand operation? (v, ts) (u, rest)) (hstop : Stops operation? rest) :
    ∀ fuel, ts.length ≤ fuel → chain operand operation? fuel v ts = .ok (u, rest) := by
  suffices key : ∀ before : Standing, Rounds operand operation? before (u, rest) →
      ∀ fuel, before.2.length ≤ fuel →
        chain operand operation? fuel before.1 before.2 = .ok (u, rest) from key (v, ts) h
  intro before hrounds
  induction hrounds using Relation.ReflTransGen.head_induction_on with
  | refl =>
    intro fuel _
    exact chain_of_stops hstop fuel
  | @head before mid hround _ ih =>
    intro fuel hfuel
    obtain ⟨t, tail, operation, w, hts, hop, hw, hx⟩ := hround
    -- a round takes at least its operator, so there is fuel for the others
    have hmid : mid.2.length ≤ tail.length := hshort tail w mid.2 hw
    rw [hts] at hfuel ⊢
    rw [List.length_cons] at hfuel
    obtain ⟨fuel, rfl⟩ : ∃ n, fuel = n + 1 := ⟨fuel - 1, by omega⟩
    rw [chain, hop]
    refine bind_eq_ok_iff.2 ⟨(w, mid.2), hw, ?_⟩
    refine bind_eq_ok_iff.2 ⟨mid.1, hx, ?_⟩
    exact ih fuel (by omega)

end KeypadCalc.Evaluator

/-!
# KeypadCalc — rounding a quotient

`roundDiv` is the one place where an exact quotient becomes a whole number: the nearest one, and
between two equally near ones the even one. Doubles are built with it from decimals, and decimals
from doubles.
-/

namespace KeypadCalc.Decimal

/-- The whole number nearest to `num / den`; a tie goes to the even neighbour. -/
def roundDiv (num den : Nat) : Nat :=
  let q := num / den
  let r := num % den
  if 2 * r < den then q
  else if den < 2 * r then q + 1
  else q + q % 2

theorem roundDiv_mul_left {den : Nat} (h : 0 < den) (n : Nat) : roundDiv (den * n) den = n := by
  simp [roundDiv, Nat.mul_div_cancel_left n h, h]

/-- The result is at most half a unit away: twice the distance, scaled by `den`, is at most
`den`. -/
theorem roundDiv_le {den : Nat} (h : 0 < den) (num : Nat) :
    2 * (den * roundDiv num den) ≤ 2 * num + den ∧
      2 * num ≤ 2 * (den * roundDiv num den) + den := by
  have hsplit := Nat.div_add_mod num den
  have hlt := Nat.mod_lt num h
  unfold roundDiv
  simp only
  split
  · omega
  · split
    · rw [Nat.mul_add]; omega
    · have hbit : num / den % 2 = 0 ∨ num / den % 2 = 1 := by omega
      rcases hbit with h0 | h1
      · rw [h0, Nat.add_zero]; omega
      · rw [h1, Nat.mul_add]; omega

theorem roundDiv_even_of_tie {num den : Nat} (h : 2 * (num % den) = den) :
    roundDiv num den % 2 = 0 := by
  unfold roundDiv
  simp only
  split
  · omega
  · split <;> omega

end KeypadCalc.Decimal

import KeypadCalc.Proofs.Keypad.Stroke
import Mathlib.Data.List.DropRight

/-!
# KeypadCalc — the answer and the expression it was given for

Behind a key other than the one that clears, the texts of a state go on with what they were
(`State.Edits.grows`). For zeros, which overwrite, that is so because a zero alone is shown as it
is typed. So the expression that an answer was given for is still the front of the one in the state,
however many keys have been pressed since (`answered_pressedAll`).
-/

namespace KeypadCalc.Keypad

variable {limits : Limits} {maxDigits : Int} {s t u : State}

/-! ## Texts that grow -/

/-- The texts of a state are the fronts of those of another one. -/
structure State.Precedes (s t : State) : Prop where
  expression : s.expression.toList <+: t.expression.toList
  equation : s.equation.toList <+: t.equation.toList

theorem State.Precedes.trans (h : s.Precedes t) (h' : t.Precedes u) : s.Precedes u :=
  ⟨h.expression.trans h'.expression, h.equation.trans h'.equation⟩

/-- A state after keys, with the calculator at hand. -/
def State.pressedAll (limits : Limits) (maxDigits : Int) (s : State) (keys : List Key) : State :=
  keys.foldl (State.pressed limits maxDigits) s

namespace State

/-- The last of many keys is pressed in the state behind the others. -/
theorem pressedAll_snoc (limits : Limits) (maxDigits : Int) (s : State) (keys : List Key)
    (k : Key) : s.pressedAll limits maxDigits (keys ++ [k]) =
      (s.pressedAll limits maxDigits keys).pressed limits maxDigits k := by
  rw [pressedAll, List.foldl_append]
  rfl

/-- With the calculator at hand keys lead to one state, in any surroundings. -/
theorem leads_pressedAll (limits : Limits) (maxDigits : Int) (s : State) (keys : List Key) :
    Leads (Calculator.localService limits) maxDigits s keys (s.pressedAll limits maxDigits keys) := by
  induction keys using List.reverseRecOn with
  | nil => exact .nil _ _ _
  | append_singleton ks k ih =>
    rw [pressedAll_snoc]
    exact ih.snoc fun w => press_localService limits maxDigits _ k w

theorem pressed_of_ne {k : Key} (hk : k ≠ .equals) :
    s.pressed limits maxDigits k = s.edit maxDigits k :=
  if_neg hk

/-- The key `=` closes the root and answers the expression. -/
theorem pressed_equals :
    s.pressed limits maxDigits .equals =
      { s.closeRoot with answer := localAnswer limits s.closeRoot.expression } :=
  if_pos rfl

/-- Its answer belongs to the expression that it leaves. -/
theorem answer_pressed_equals :
    (s.pressed limits maxDigits .equals).answer =
      localAnswer limits (s.pressed limits maxDigits .equals).expression := by
  rw [pressed_equals]

/-- A press leaves a state that strokes have written. -/
theorem Scripted.pressed (h : s.Scripted) (limits : Limits) (maxDigits : Int) (k : Key) :
    (s.pressed limits maxDigits k).Scripted := by
  by_cases hk : k = .equals
  · subst hk
    rw [pressed_equals]
    exact (h.edit maxDigits .equals).with_answer _
  · rw [pressed_of_ne hk]
    exact h.edit maxDigits k

theorem Scripted.pressedAll (h : s.Scripted) (limits : Limits) (maxDigits : Int)
    (keys : List Key) : (s.pressedAll limits maxDigits keys).Scripted := by
  induction keys using List.reverseRecOn with
  | nil => exact h
  | append_singleton ks k ih =>
    rw [pressedAll_snoc]
    exact ih.pressed limits maxDigits k

end State

end KeypadCalc.Keypad

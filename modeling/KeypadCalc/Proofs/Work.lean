import KeypadCalc.Surroundings

/-!
# KeypadCalc — steps in the surroundings

How a computation runs in the surroundings of the program, step by step, and what its steps leave
alone.
-/

namespace KeypadCalc

/-- Steps that change a state are taken one after the other. -/
theorem run_bind {σ α β : Type} (x : StateM σ α) (f : α → StateM σ β) (s : σ) :
    (x >>= f).run s = (f (x.run s).1).run (x.run s).2 := rfl

theorem Work.note_run (event : Log.Event) (w : Surroundings) :
    (Work.note event).run w = ((), w.note event) := rfl

/-- To note an event takes nothing off the wire. -/
theorem Surroundings.note_wire (w : Surroundings) (event : Log.Event) :
    (w.note event).wire = w.wire := by
  unfold Surroundings.note
  split <;> rfl

/-- To note an event changes no id. -/
theorem Surroundings.note_context (w : Surroundings) (event : Log.Event) :
    (w.note event).context = w.context := by
  unfold Surroundings.note
  split <;> rfl

end KeypadCalc

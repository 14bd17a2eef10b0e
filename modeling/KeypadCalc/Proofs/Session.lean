import KeypadCalc.Session
import KeypadCalc.Proofs.Work

/-!
# KeypadCalc — what an update does to the sessions

An update that goes well leaves its session in the state that it made (`get?_after_update`), and
every other session as it was. One that fails leaves all of them as they were, if it cannot fail on
a blank state (`update_run_of_error`).
-/

namespace KeypadCalc.Session.Store

open Keypad (State)

variable {σ ε : Type} {store : Store} {id : String} {f : State → StateM σ (Except ε State)}

theorem getOrCreate_fst (store : Store) (id : String) :
    (store.getOrCreate id).1 = (store.get? id).getD (.blank id) := by
  unfold getOrCreate
  split <;> simp [*]

/-- To make a session is nothing to any other. -/
theorem get?_getOrCreate_of_ne (store : Store) {id other : String} (h : other ≠ id) :
    (store.getOrCreate id).2.get? other = store.get? other := by
  unfold getOrCreate
  split
  · rfl
  · exact store.get?_save_of_ne h

/-- An update starts from the state of the session, or from a blank one, and saves what it makes. -/
theorem update_run (store : Store) (id : String) (f : State → StateM σ (Except ε State)) (w : σ) :
    (store.update id f).run w =
      match (f ((store.get? id).getD (.blank id))).run w with
      | (.ok new, after) => ((.ok new, (store.getOrCreate id).2.save new), after)
      | (.error fault, after) => ((.error fault, (store.getOrCreate id).2), after) := by
  rw [← getOrCreate_fst]
  unfold update
  rcases store.getOrCreate id with ⟨s, made⟩
  show ((f s) >>= _).run w = _
  rw [run_bind]
  rcases (f s).run w with ⟨result, after⟩
  cases result <;> rfl

theorem update_run_of_ok {new : State} {w after : σ}
    (h : (f ((store.get? id).getD (.blank id))).run w = (.ok new, after)) :
    (store.update id f).run w = ((.ok new, (store.getOrCreate id).2.save new), after) := by
  rw [update_run, h]

/-- A failed update changes nothing: its session was there before, unless it has failed on a blank
state. -/
theorem update_run_of_error {w : σ} {fault : ε}
    (hblank : ∃ new, ((f (.blank id)).run w).1 = .ok new)
    (h : ((store.update id f).run w).1.1 = .error fault) :
    ((store.update id f).run w).1.2 = store := by
  cases hget : store.get? id with
  | none =>
    -- a blank state has led on, so this update has not failed
    obtain ⟨new, hnew⟩ := hblank
    have hrun : (f ((store.get? id).getD (.blank id))).run w =
        (.ok new, ((f (.blank id)).run w).2) := by
      rw [hget, ← hnew]
      rfl
    rw [update_run_of_ok hrun] at h
    cases h
  | some s =>
    have hmade : (store.getOrCreate id).2 = store := by
      rw [getOrCreate, hget]
    rw [update_run] at h ⊢
    rcases hrun : (f ((store.get? id).getD (.blank id))).run w with ⟨result, after⟩
    rw [hrun] at h
    cases result with
    | ok new => cases h
    | error fault' => exact hmade

/-- The sessions after a state of a session has been saved in an update of it. -/
theorem get?_after_update {new : State} (hid : new.sessionId = id) (other : String) :
    ((store.getOrCreate id).2.save new).get? other =
      if other = id then some new else store.get? other := by
  split
  · next h =>
    subst h
    rw [← hid, get?_save_self]
  · next h =>
    rw [get?_save_of_ne _ (by rw [hid]; exact h), get?_getOrCreate_of_ne _ h]

/-- The sessions after one has been removed. -/
theorem get?_clear (store : Store) (id other : String) :
    (store.clear id).2.get? other = if other = id then none else store.get? other := by
  split
  · next h =>
    subst h
    exact store.get?_erase_self other
  · next h => exact store.get?_erase_of_ne h

end KeypadCalc.Session.Store

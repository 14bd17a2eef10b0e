import Mathlib.Logic.Function.Basic
import KeypadCalc.Proofs.Work

/-!
# KeypadCalc — ids at hand for a while

An id is set for a while: the token that setting it gives is handed back at the end, and the id is
what it was before. In between other ids may be set for a while, and the calculators and the keypads
note what they do. `Context.Settles` and `Surroundings.Settles` say what has come of it in the end:
the ids at hand are the same, no fresh id has been taken, and the journal has grown by records of a
certain kind. What settles one after the other settles as a whole (`Work.Settles.bind`), and so does
what settles while an id is set (`Surroundings.Settles.restored`).

A token restores its id only if it has not been used. For this the numbers of tokens are followed:
what settles uses none of the tokens given out before it, so the own token of a scope is still good
at its end (`Context.exists_reset_of_settles`).
-/

namespace KeypadCalc

namespace Context

/-- The tokens that have been used are among those given out. -/
def WellFormed (c : Context) : Prop :=
  ∀ n ∈ c.used, n < c.issued

/-- A context goes over into one with the same ids, and no token given out before is used for it. -/
structure Settles (c c' : Context) : Prop where
  get_eq : c'.get = c.get
  issued_le : c.issued ≤ c'.issued
  used_sub : ∀ n ∈ c'.used, n ∈ c.used ∨ c.issued ≤ n ∧ n < c'.issued

theorem Settles.refl (c : Context) : c.Settles c :=
  ⟨rfl, Nat.le_refl _, fun _ h => .inl h⟩

/-- Contexts that settle one after the other settle as a whole. -/
theorem Settles.trans {c c' c'' : Context} (h : c.Settles c') (h' : c'.Settles c'') :
    c.Settles c'' where
  get_eq := h'.get_eq.trans h.get_eq
  issued_le := Nat.le_trans h.issued_le h'.issued_le
  used_sub := by
    intro n hn
    have hle := h.issued_le
    have hle' := h'.issued_le
    rcases h'.used_sub n hn with hused | hnew
    · rcases h.used_sub n hused with hold | hnew
      · exact .inl hold
      · exact .inr ⟨hnew.1, by omega⟩
    · exact .inr ⟨by omega, hnew.2⟩

theorem WellFormed.of_settles {c c' : Context} (hc : c.WellFormed) (h : c.Settles c') :
    c'.WellFormed := by
  intro n hn
  rcases h.used_sub n hn with hold | hnew
  · exact Nat.lt_of_lt_of_le (hc n hold) h.issued_le
  · exact hnew.2

theorem WellFormed.set {c : Context} (hc : c.WellFormed) (v : Slot) (value : Option String) :
    (c.set v value).2.WellFormed := by
  intro n hn
  have hold : n ∈ c.used := by
    cases v <;> exact hn
  exact Nat.lt_succ_of_lt (hc n hold)

/-- The token of a scope restores the id at its end. -/
theorem exists_reset_of_settles {c c' : Context} (hc : c.WellFormed) {v : Slot}
    {value : Option String} (h : (c.set v value).2.Settles c') :
    ∃ restored, c'.reset v (c.set v value).1 = .ok restored ∧ c.Settles restored := by
  have hissued : c.issued + 1 ≤ c'.issued := h.issued_le
  have hused : ∀ n ∈ c'.used, n ∈ c.used ∨ c.issued + 1 ≤ n ∧ n < c'.issued := by
    intro n hn
    rcases h.used_sub n hn with hold | hnew
    · refine .inl ?_
      cases v <;> exact hold
    · exact .inr hnew
  -- the token has a number that no token used before or inside the scope has
  have hfresh : ¬ c'.used.contains (c.set v value).1.serial = true := by
    intro hcontains
    have hmem : c.issued ∈ c'.used := List.contains_iff_mem.1 hcontains
    rcases hused _ hmem with hold | hnew
    · exact Nat.lt_irrefl _ (hc _ hold)
    · omega
  have hreset : c'.reset v (c.set v value).1 =
      .ok { c'.put v (c.get v) with used := c.issued :: c'.used } := by
    rw [reset, if_neg hfresh, if_neg (fun hne => hne rfl)]
    rfl
  refine ⟨_, hreset, ?_, ?_, ?_⟩
  · funext u
    by_cases hu : u = v
    · subst hu
      cases u <;> rfl
    · have hother := congrFun h.get_eq u
      rw [get_set_of_ne c hu] at hother
      exact (get_put_of_ne c' hu (c.get v)).trans hother
  · show c.issued ≤ (c'.put v (c.get v)).issued
    cases v <;> exact Nat.le_of_succ_le hissued
  · intro n hn
    have hlt : (c'.put v (c.get v)).issued = c'.issued := by
      cases v <;> rfl
    show _ ∨ c.issued ≤ n ∧ n < (c'.put v (c.get v)).issued
    rw [hlt]
    rcases List.mem_cons.1 hn with rfl | hmem
    · exact .inr ⟨Nat.le_refl _, by omega⟩
    · exact (hused n hmem).imp_right fun hnew => ⟨by omega, hnew.2⟩

end Context

/-- What is at hand under each id. -/
abbrev Ids := Context.Slot → Option String

/-- The ids of a record are those at hand. -/
structure Log.Record.Under (ids : Ids) (r : Log.Record) : Prop where
  requestId : r.requestId = Context.shown (ids .requestId)
  sessionId : r.sessionId = Context.shown (ids .sessionId)

/-- A record shows the ids at hand when it was made. -/
theorem Log.Record.Under.of (c : Context) (event : Log.Event) :
    (Log.Record.of c event).Under c.get :=
  ⟨rfl, rfl⟩

namespace Work

variable {v : Context.Slot} {token : Context.Token} {w : Surroundings}

/-- A token that restores an id changes nothing else of the surroundings. -/
theorem resetId_run_of_ok {context : Context} (h : w.context.reset v token = .ok context) :
    ((resetId v token).run w).2 = { w with context } := by
  unfold resetId
  simp only [StateT.run_modify, h]
  rfl

theorem resetId_run_of_error {fault : Context.ResetFault}
    (h : w.context.reset v token = .error fault) : ((resetId v token).run w).2 = w := by
  unfold resetId
  simp only [StateT.run_modify, h]
  rfl

end Work

namespace Surroundings

variable {P Q : Log.Record → Prop} {w w' w'' : Surroundings}

/-- Surroundings go over into others in which the same ids are at hand and as many fresh ids have
been taken, and records of a kind have been added to the journal. -/
structure Settles (P : Log.Record → Prop) (w w' : Surroundings) : Prop where
  context : w.context.Settles w'.context
  idsIssued : w'.idsIssued = w.idsIssued
  freshId : w'.freshId = w.freshId
  journal : ∃ records, w'.journal = w.journal ++ records ∧ ∀ r ∈ records, P r

theorem Settles.refl (P : Log.Record → Prop) (w : Surroundings) : w.Settles P w :=
  ⟨.refl _, rfl, rfl, [], (List.append_nil _).symm, fun _ h => absurd h List.not_mem_nil⟩

/-- Surroundings that settle one after the other settle as a whole. -/
theorem Settles.trans (h : w.Settles P w') (h' : w'.Settles P w'') : w.Settles P w'' where
  context := h.context.trans h'.context
  idsIssued := h'.idsIssued.trans h.idsIssued
  freshId := h'.freshId.trans h.freshId
  journal := by
    obtain ⟨records, hjournal, hrecords⟩ := h.journal
    obtain ⟨more, hjournal', hmore⟩ := h'.journal
    refine ⟨records ++ more, ?_, fun r hr => ?_⟩
    · rw [hjournal', hjournal, List.append_assoc]
    · exact (List.mem_append.1 hr).elim (hrecords r) (hmore r)

theorem Settles.imp (h : w.Settles P w') (hPQ : ∀ r, P r → Q r) : w.Settles Q w' where
  context := h.context
  idsIssued := h.idsIssued
  freshId := h.freshId
  journal := by
    obtain ⟨records, hjournal, hrecords⟩ := h.journal
    exact ⟨records, hjournal, fun r hr => hPQ r (hrecords r hr)⟩

/-- An event of the kind settles: it adds its record, or none. -/
theorem settles_note (w : Surroundings) {event : Log.Event} (h : P (.of w.context event)) :
    w.Settles P (w.note event) := by
  unfold note
  split
  · refine ⟨.refl _, rfl, rfl, [.of w.context event], rfl, fun r hr => ?_⟩
    rw [List.mem_singleton.1 hr]
    exact h
  · exact .refl P w

/-- What settles while an id is set settles in the surroundings from before, once the id is
restored. -/
theorem Settles.restored (hw : w.context.WellFormed) {v : Context.Slot} {value : Option String}
    (h : ((Work.setId v value).run w).2.Settles P w') :
    w.Settles P ((Work.resetId v ((Work.setId v value).run w).1).run w').2 := by
  obtain ⟨restored, hreset, hsettles⟩ := Context.exists_reset_of_settles hw h.context
  have hrun : ((Work.resetId v ((Work.setId v value).run w).1).run w').2 =
      { w' with context := restored } := Work.resetId_run_of_ok hreset
  rw [hrun]
  exact ⟨hsettles, h.idsIssued, h.freshId, h.journal⟩

end Surroundings

namespace Work

/-- An id that is set is at hand, and the others stay. -/
theorem get_setId (v : Context.Slot) (value : Option String) (w : Surroundings) :
    ((setId v value).run w).2.context.get = Function.update w.context.get v value := by
  funext u
  by_cases hu : u = v
  · subst hu
    rw [Function.update_self]
    exact Context.get_set_self w.context u value
  · rw [Function.update_of_ne hu]
    exact Context.get_set_of_ne w.context hu value

/-- To restore an id notes nothing. -/
theorem journal_resetId (v : Context.Slot) (token : Context.Token) (w : Surroundings) :
    ((resetId v token).run w).2.journal = w.journal := by
  cases h : w.context.reset v token with
  | ok context => rw [resetId_run_of_ok h]
  | error fault => rw [resetId_run_of_error h]

variable {α β : Type} {P : Ids → Log.Record → Prop}

/-- A computation settles, wherever it runs, with records that befit the ids at hand. -/
def Settles (P : Ids → Log.Record → Prop) (x : Work α) : Prop :=
  ∀ w : Surroundings, w.context.WellFormed → w.Settles (P w.context.get) (x.run w).2

theorem Settles.pure (a : α) : Settles P (Pure.pure a : Work α) :=
  fun w _ => .refl _ w

theorem Settles.bind {x : Work α} {f : α → Work β} (hx : x.Settles P) (hf : ∀ a, (f a).Settles P) :
    (x >>= f).Settles P := by
  intro w hw
  have hfirst := hx w hw
  have hsecond := hf (x.run w).1 (x.run w).2 (hw.of_settles hfirst.context)
  rw [hfirst.context.get_eq] at hsecond
  exact hfirst.trans hsecond

/-- What is done on the wire changes no id and notes nothing. -/
theorem settles_exchange (f : Remote.Wire → α × Remote.Wire) :
    (modifyGet fun w => let (a, wire) := f w.wire; (a, { w with wire }) : Work α).Settles P := by
  intro w _
  show w.Settles _ (match f w.wire with | (a, wire) => (a, { w with wire })).2
  generalize f w.wire = exchanged
  exact ⟨.refl _, rfl, rfl, [], (List.append_nil _).symm, fun _ h => absurd h List.not_mem_nil⟩

/-- Noting an event settles, if its record is of the kind with any ids at hand. -/
theorem settles_note {event : Log.Event} (h : ∀ c : Context, P c.get (.of c event)) :
    (Work.note event).Settles P :=
  fun w _ => w.settles_note (h w.context)

end Work

end KeypadCalc

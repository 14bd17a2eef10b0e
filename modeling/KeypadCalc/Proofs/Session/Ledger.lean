import KeypadCalc.Proofs.Session

/-!
# KeypadCalc — the sessions as a ledger

What a store has in it follows from what has been written to it and removed from it, in order. A
`Ledger` lists these changes, and `Ledger.latest` reads the state of a session off them: the one
last written under its id, unless the session has been removed since. The operations on a store are
told once more on ledgers, where they only ever add to the list.

* `Agrees` says that a store has in it what a ledger tells, with each state under its own id;
  `agrees_perform` says that every operation keeps a store and its ledger in agreement and returns
  the same from both.
* **`store_keeps_ledger`** — after any operations, in any order, a store is the keyed map that its
  ledger tells.
-/

namespace KeypadCalc.Session

open Keypad (State)

/-- What is done to a store: a state is written under the id that it carries, or a session is
removed. -/
inductive Change where
  | wrote (s : State)
  | cleared (id : String)

namespace Change

/-- The session that a change is about. -/
def id : Change → String
  | wrote s => s.sessionId
  | cleared id => id

/-- The state that a change leaves under its id. -/
def state? : Change → Option State
  | wrote s => some s
  | cleared _ => none

end Change

/-- The changes to a store, the last one first. -/
abbrev Ledger := List Change

namespace Ledger

/-- The state last written under an id, if the session has not been removed since. -/
def latest (ledger : Ledger) (id : String) : Option State :=
  (ledger.find? fun c => c.id == id).bind Change.state?

/-- A ledger with a session in it: a blank state is written for one that is not there. -/
def opened (ledger : Ledger) (id : String) : Ledger :=
  match ledger.latest id with
  | some _ => ledger
  | none => .wrote (.blank id) :: ledger

theorem latest_cons (c : Change) (ledger : Ledger) (id : String) :
    latest (c :: ledger) id = if id = c.id then c.state? else ledger.latest id := by
  unfold latest
  by_cases h : id = c.id
  · simp [h]
  · have hne : (c.id == id) = false := by simpa using Ne.symm h
    simp [h, hne]

/-- A change of another session tells nothing of it. -/
theorem latest_cons_of_ne {c : Change} {id : String} (h : id ≠ c.id) (ledger : Ledger) :
    latest (c :: ledger) id = ledger.latest id := by
  rw [latest_cons, if_neg h]

end Ledger

/-! ## Operations -/

/-- An operation on a store. The function of an update may fail, and it may be a computation in
surroundings of its own. -/
inductive Operation (σ ε : Type) where
  | get (id : String)
  | getOrCreate (id : String)
  | update (id : String) (f : State → StateM σ (Except ε State))
  | save (s : State)
  | clear (id : String)

/-- What an operation returns. -/
inductive Reply (ε : Type) where
  | found (s : Option State)
  | state (s : State)
  | failed (fault : ε)
  | saved
  | cleared (wasThere : Bool)

variable {σ ε : Type}

/-- The reply for how an update has ended. -/
def Reply.ofUpdate : Except ε State → Reply ε
  | .ok s => .state s
  | .error fault => .failed fault

namespace Operation

/-- The session that an operation is asked for. -/
def target : Operation σ ε → String
  | get id | getOrCreate id | update id _ | clear id => id
  | save s => s.sessionId

/-- The state that an operation saves, by what it has returned. -/
def saves? : Operation σ ε → Reply ε → Option State
  | update _ _, .state new => some new
  | save s, _ => some s
  | _, _ => none

/-- An operation on a store. -/
def perform (op : Operation σ ε) (store : Store) : StateM σ (Reply ε × Store) :=
  match op with
  | get id => return (.found (store.get? id), store)
  | getOrCreate id => return (.state (store.getOrCreate id).1, (store.getOrCreate id).2)
  | update id f => do
    let (result, store) ← store.update id f
    return (.ofUpdate result, store)
  | save s => return (.saved, store.save s)
  | clear id => return (.cleared (store.clear id).1, (store.clear id).2)

/-- An operation on a ledger. -/
def enter (op : Operation σ ε) (ledger : Ledger) : StateM σ (Reply ε × Ledger) :=
  match op with
  | get id => return (.found (ledger.latest id), ledger)
  | getOrCreate id => return (.state ((ledger.latest id).getD (.blank id)), ledger.opened id)
  | update id f => do
    match ← f ((ledger.latest id).getD (.blank id)) with
    | .ok new => return (.state new, .wrote new :: ledger.opened id)
    | .error fault => return (.failed fault, ledger.opened id)
  | save s => return (.saved, .wrote s :: ledger)
  | clear id => return (.cleared (ledger.latest id).isSome, .cleared id :: ledger)

end Operation

/-- Operations one after the other, on a store or on a ledger: what each returns, and what is there
at the end. -/
def runAll {S : Type} (step : Operation σ ε → S → StateM σ (Reply ε × S)) (s : S) :
    List (Operation σ ε) → StateM σ (List (Reply ε) × S)
  | [] => return ([], s)
  | op :: ops => do
    let (reply, s) ← step op s
    let (replies, s) ← runAll step s ops
    return (reply :: replies, s)

/-- What steps keep in agreement, with the same replies and surroundings, runs do. -/
theorem runAll_of_step {S T : Type} {R : S → T → Prop}
    {step : Operation σ ε → S → StateM σ (Reply ε × S)}
    {step' : Operation σ ε → T → StateM σ (Reply ε × T)}
    (hstep : ∀ op s t w, R s t → ∃ reply s' t' after,
      (step op s).run w = ((reply, s'), after) ∧ (step' op t).run w = ((reply, t'), after) ∧
        R s' t')
    (ops : List (Operation σ ε)) {s : S} {t : T} (w : σ) (h : R s t) :
    ∃ replies s' t' after, (runAll step s ops).run w = ((replies, s'), after) ∧
      (runAll step' t ops).run w = ((replies, t'), after) ∧ R s' t' := by
  induction ops generalizing s t w with
  | nil => exact ⟨[], s, t, w, rfl, rfl, h⟩
  | cons op ops ih =>
    -- the first step leaves the two related, in the surroundings in which both go on
    obtain ⟨reply, s₁, t₁, mid, hs₁, ht₁, h₁⟩ := hstep op s t w h
    obtain ⟨replies, s₂, t₂, after, hs₂, ht₂, h₂⟩ := ih mid h₁
    refine ⟨reply :: replies, s₂, t₂, after, ?_, ?_, h₂⟩
    · rw [runAll, run_bind, hs₁]
      show (runAll step s₁ ops >>= _).run mid = _
      rw [run_bind, hs₂]
      rfl
    · rw [runAll, run_bind, ht₁]
      show (runAll step' t₁ ops >>= _).run mid = _
      rw [run_bind, ht₂]
      rfl

/-! ## Stores and their ledgers -/

/-- Every state stands under the id that it carries, and no id has two. -/
structure Store.WellKeyed (store : Store) : Prop where
  own : ∀ e ∈ store.entries, e.2.sessionId = e.1
  distinct : (store.entries.map Prod.fst).Nodup

namespace Store.WellKeyed

variable {store : Store}

/-- Without one of its entries a store has each key once still. -/
theorem erase (h : store.WellKeyed) (id : String) : (store.erase id).WellKeyed := by
  have hsub : (store.erase id).entries.Sublist store.entries := List.filter_sublist
  exact ⟨fun e he => h.own e (hsub.subset he), h.distinct.sublist (hsub.map Prod.fst)⟩

theorem save (h : store.WellKeyed) (s : State) : (store.save s).WellKeyed := by
  have herased := h.erase s.sessionId
  refine ⟨fun e he => ?_, ?_⟩
  · rcases List.mem_cons.1 he with rfl | he
    · rfl
    · exact herased.own e he
  · -- the id was erased before
    have hnew : s.sessionId ∉ (store.erase s.sessionId).entries.map Prod.fst := by
      simp [Store.erase]
    exact List.nodup_cons.2 ⟨hnew, herased.distinct⟩

end Store.WellKeyed

/-- A store has in it what a ledger tells, each state under its own id. -/
structure Agrees (store : Store) (ledger : Ledger) : Prop where
  wellKeyed : store.WellKeyed
  get?_eq : ∀ id, store.get? id = ledger.latest id

namespace Agrees

variable {store : Store} {ledger : Ledger}

theorem empty : Agrees {} [] :=
  ⟨⟨nofun, .nil⟩, fun _ => rfl⟩

theorem save (h : Agrees store ledger) (s : State) :
    Agrees (store.save s) (.wrote s :: ledger) := by
  refine ⟨h.wellKeyed.save s, fun id => ?_⟩
  rw [Ledger.latest_cons]
  split
  · next hid =>
    subst hid
    exact store.get?_save_self s
  · next hid => rw [store.get?_save_of_ne hid, h.get?_eq]

theorem clear (h : Agrees store ledger) (id : String) :
    Agrees (store.clear id).2 (.cleared id :: ledger) := by
  refine ⟨h.wellKeyed.erase id, fun other => ?_⟩
  rw [Ledger.latest_cons, store.get?_clear, h.get?_eq]
  rfl

/-- A session that is opened is written blank, unless it is there. -/
theorem getOrCreate (h : Agrees store ledger) (id : String) :
    Agrees (store.getOrCreate id).2 (ledger.opened id) := by
  unfold Store.getOrCreate Ledger.opened
  rw [h.get?_eq id]
  cases ledger.latest id with
  | some s => exact h
  | none => exact h.save (.blank id)

end Agrees

/-- An operation keeps a store and its ledger in agreement, and returns the same from both. -/
theorem agrees_perform (op : Operation σ ε) (store : Store) (ledger : Ledger) (w : σ)
    (h : Agrees store ledger) :
    ∃ reply store' ledger' after, (op.perform store).run w = ((reply, store'), after) ∧
      (op.enter ledger).run w = ((reply, ledger'), after) ∧ Agrees store' ledger' := by
  cases op with
  | get id =>
    refine ⟨.found (ledger.latest id), store, ledger, w, ?_, rfl, h⟩
    rw [← h.get?_eq id]
    rfl
  | getOrCreate id =>
    refine ⟨_, _, ledger.opened id, w, rfl, ?_, h.getOrCreate id⟩
    rw [Store.getOrCreate_fst, h.get?_eq id]
    rfl
  | save s => exact ⟨.saved, store.save s, .wrote s :: ledger, w, rfl, rfl, h.save s⟩
  | clear id =>
    refine ⟨_, _, .cleared id :: ledger, w, rfl, ?_, h.clear id⟩
    show _ = ((Reply.cleared (store.get? id).isSome, _), w)
    rw [h.get?_eq id]
    rfl
  | update id f =>
    -- an update opens its session, and saves only what has not failed
    have hperform : (Operation.update id f).perform store =
        store.update id f >>= fun p => return (Reply.ofUpdate p.1, p.2) := rfl
    have henter : (Operation.update id f).enter ledger =
        f ((ledger.latest id).getD (.blank id)) >>= fun
          | .ok new => return (.state new, .wrote new :: ledger.opened id)
          | .error fault => return (.failed fault, ledger.opened id) := rfl
    rw [hperform, henter, run_bind, run_bind, Store.update_run, h.get?_eq id]
    rcases (f ((ledger.latest id).getD (.blank id))).run w with ⟨result, after⟩
    cases result with
    | ok new => exact ⟨_, _, _, after, rfl, rfl, (h.getOrCreate id).save new⟩
    | error fault => exact ⟨_, _, _, after, rfl, rfl, h.getOrCreate id⟩

/-! ## What an operation leaves alone -/

theorem Ledger.latest_opened_of_ne (ledger : Ledger) {id other : String} (h : other ≠ id) :
    (ledger.opened id).latest other = ledger.latest other := by
  unfold Ledger.opened
  split
  · rfl
  · exact Ledger.latest_cons_of_ne h ledger

/-- An operation changes nothing of a session but the one it is asked for and the one whose state it
saves. -/
theorem latest_enter_of_ne (op : Operation σ ε) (ledger : Ledger) (w : σ) {id : String}
    (htarget : id ≠ op.target)
    (hsaves : ∀ s, op.saves? ((op.enter ledger).run w).1.1 = some s → id ≠ s.sessionId) :
    ((op.enter ledger).run w).1.2.latest id = ledger.latest id := by
  cases op with
  | get _ => rfl
  | getOrCreate _ => exact ledger.latest_opened_of_ne htarget
  | save s => exact Ledger.latest_cons_of_ne htarget ledger
  | clear _ => exact Ledger.latest_cons_of_ne htarget ledger
  | update target f =>
    have henter : (Operation.update target f).enter ledger =
        f ((ledger.latest target).getD (.blank target)) >>= fun
          | .ok new => return (.state new, .wrote new :: ledger.opened target)
          | .error fault => return (.failed fault, ledger.opened target) := rfl
    rw [henter, run_bind] at hsaves ⊢
    have hopened := ledger.latest_opened_of_ne htarget
    -- whatever the function comes to, it is entered under its own session
    generalize (f ((ledger.latest target).getD (.blank target))).run w = outcome at hsaves ⊢
    obtain ⟨result, after⟩ := outcome
    cases result with
    | error fault => exact hopened
    | ok new => exact (Ledger.latest_cons_of_ne (hsaves new rfl) _).trans hopened

/-- **A store is the keyed map that its ledger tells**, after any operations: each state stands
under its own id, a session is in the state last written under its id since it was last removed, and
so is every reply; whether there was a session to remove is whether it has a state; and an operation
leaves all sessions alone but the one it is asked for and the one whose state it saves. -/
theorem store_keeps_ledger (ops : List (Operation σ ε)) (w : σ) :
    ∃ replies store ledger after,
      (runAll Operation.perform {} ops).run w = ((replies, store), after) ∧
      (runAll Operation.enter [] ops).run w = ((replies, ledger), after) ∧
      store.WellKeyed ∧ (∀ id, store.get? id = ledger.latest id) ∧
      (∀ id, (store.clear id).1 = true ↔ store.get? id ≠ none) ∧
      ∀ (op : Operation σ ε) id, id ≠ op.target →
        (∀ s, op.saves? ((op.perform store).run after).1.1 = some s → id ≠ s.sessionId) →
        ((op.perform store).run after).1.2.get? id = store.get? id := by
  obtain ⟨replies, store, ledger, after, hstore, hledger, h⟩ :=
    runAll_of_step agrees_perform ops w Agrees.empty
  refine ⟨replies, store, ledger, after, hstore, hledger, h.wellKeyed, h.get?_eq, fun id => ?_,
    fun op id htarget hsaves => ?_⟩
  · show (store.get? id).isSome = true ↔ _
    rw [Option.isSome_iff_ne_none]
  · obtain ⟨reply, store', ledger', last, hperform, henter, h'⟩ :=
      agrees_perform op store ledger after h
    rw [hperform] at hsaves ⊢
    -- what the ledger keeps the store keeps
    have hkept := latest_enter_of_ne op ledger after htarget
    rw [henter] at hkept
    show store'.get? id = store.get? id
    rw [h'.get?_eq, h.get?_eq]
    exact hkept hsaves

/-- An update that renames a session leaves two: the blank one it was asked for, and the one it
saves. -/
example :
    let rename : Operation Unit Empty := .update "a" fun s => return .ok { s with sessionId := "b" }
    ((runAll Operation.perform {} [rename, .clear "a", .get "a", .get "b"]).run ()).1.1 =
      [.state (.blank "b"), .cleared true, .found none, .found (some (.blank "b"))] := by
  rfl

end KeypadCalc.Session

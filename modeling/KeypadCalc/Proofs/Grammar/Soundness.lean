import KeypadCalc.Proofs.Grammar.Chain
import KeypadCalc.Proofs.Grammar.Tree

/-!
# KeypadCalc — what is read has a tree

Whatever one of the four readers accepts is a tree of its rank: the tokens taken are what the tree
writes, the value is what it comes to, its depth fits into the room and its calls into the places,
and no division in it is by zero (`exists_tree_of_read`). The readers call each other in a circle, and
every call takes a place, so the induction is on the places (`Rank.places_induction`).
-/

namespace KeypadCalc.Grammar

open Evaluator (Rounds Shortens Standing)

/-- The reader of a rank. -/
def read : Rank → (places room : Nat) → List Token → Evaluator.Reading
  | .sum => Evaluator.sum
  | .product => Evaluator.product
  | .factor => Evaluator.factor
  | .base => Evaluator.base

/-- What passes from rank to rank as the readers call each other holds of all of them, with any number
of places and in any room. Induction on the places: a reader calls others with one place fewer, and
enters a level with a minus sign, an exponent or a sum only where there is room for it. -/
theorem Rank.places_induction {P : Rank → (places room : Nat) → Prop}
    (exhausted : ∀ r room, P r 0 room) (sum_zero : ∀ places, P .sum (places + 1) 0)
    (sum : ∀ places room, P .product places room → P .sum (places + 1) (room + 1))
    (product : ∀ places room, P .factor places room → P .product (places + 1) room)
    (factor : ∀ places room, P .base places room →
      (∀ lower, room = lower + 1 → P .factor places lower) → P .factor (places + 1) room)
    (base : ∀ places room, P .sum places room →
      (∀ lower, room = lower + 1 → P .base places lower) → P .base (places + 1) room)
    (r : Rank) (places room : Nat) : P r places room := by
  induction places generalizing r room with
  | zero => exact exhausted r room
  | succ places ih =>
    -- each reader calls others with one place less, on no more room
    cases r with
    | sum =>
      cases room with
      | zero => exact sum_zero places
      | succ room => exact sum places room (ih .product room)
    | product => exact product places room (ih .factor room)
    | factor => exact factor places room (ih .base room) fun lower _ => ih .factor lower
    | base => exact base places room (ih .sum room) fun lower _ => ih .base lower

/-- Without a place no reader is called. -/
@[simp] theorem read_zero (r : Rank) (room : Nat) (ts : List Token) :
    read r 0 room ts = .error .nestingTooDeep := by
  cases r with
  | sum => rw [read, Evaluator.sum]
  | product => rw [read, Evaluator.product]
  | factor => rw [read, Evaluator.factor]
  | base => rw [read, Evaluator.base]

/-- A tree accounts for a reading: with some places and some room, from some tokens to a value and the
tokens left. -/
structure Tree.Explains {r : Rank} (t : Tree r) (places room : Nat) (ts : List Token) (v : Float)
    (rest : List Token) : Prop where
  yield_eq : ts.map .ofToken = t.yield ++ rest.map .ofToken
  depth_le : t.depth ≤ room
  calls_le : t.calls ≤ places
  divisors : t.DivisorsNonzero
  value_eq : t.value = v

/-- Every reading of a rank with some places and some room has a tree. -/
def Explained (r : Rank) (places room : Nat) : Prop :=
  ∀ ts v rest, read r places room ts = .ok (v, rest) →
    ∃ t : Tree r, t.Explains places room ts v rest

/-! ## The ranks, one from the other -/

/-- Without a place nothing is read, so there is nothing to explain. -/
theorem Explained.exhausted (r : Rank) (room : Nat) : Explained r 0 room := by
  intro ts v rest h
  rw [read_zero] at h
  cases h

theorem Explained.sum_zero (places : Nat) : Explained .sum (places + 1) 0 := by
  intro ts v rest h
  rw [read, Evaluator.sum] at h
  cases h

/-- A sum grows by one product in every round of its loop. -/
theorem Explained.sum {places room : Nat} (hp : Explained .product places room) :
    Explained .sum (places + 1) (room + 1) := by
  intro ts v rest h
  rw [read, Evaluator.sum] at h
  obtain ⟨⟨w, mid⟩, hfirst, h⟩ := bind_eq_ok_iff.1 h
  have hrounds := Evaluator.rounds_of_chain h
  obtain ⟨p, hpt⟩ := hp ts w mid hfirst
  -- the tree grows with the rounds, so this is said of wherever they have come to
  suffices key : ∀ after : Standing,
      Rounds (Evaluator.product places room) Evaluator.additive? (w, mid) after →
        ∃ s : Tree .sum, s.Explains (places + 1) (room + 1) ts after.1 after.2 from
    key (v, rest) hrounds
  intro after hrounds
  induction hrounds with
  | refl =>
    have hdepth : (Tree.ofProduct p).depth ≤ room + 1 := Nat.succ_le_succ hpt.depth_le
    have hcalls : (Tree.ofProduct p).calls ≤ places + 1 := Nat.succ_le_succ hpt.calls_le
    exact ⟨.ofProduct p, hpt.yield_eq, hdepth, hcalls, hpt.divisors, hpt.value_eq⟩
  | @tail before after _ hround ih =>
    obtain ⟨s, hs⟩ := ih
    obtain ⟨t, tail, operation, x, hts, hop, hx, hv⟩ := hround
    obtain ⟨op, hkind, happly⟩ := exists_additive hop
    obtain ⟨q, hq⟩ := hp tail x after.2 hx
    have hmark : Terminal.ofToken t = .mark op.kind :=
      Terminal.ofToken_of_kind hkind (by cases op <;> decide)
    refine ⟨.add s op q, ?_, ?_, ?_, ⟨hs.divisors, hq.divisors⟩, ?_⟩
    · rw [hs.yield_eq, hts, List.map_cons, hmark, hq.yield_eq, Tree.yield, List.append_assoc,
        List.cons_append]
    · exact Nat.max_le.2 ⟨hs.depth_le, Nat.succ_le_succ hq.depth_le⟩
    · exact Nat.max_le.2 ⟨hs.calls_le, Nat.succ_le_succ hq.calls_le⟩
    · rw [Tree.value, hs.value_eq, hq.value_eq]
      exact Except.ok.inj ((happly before.1 x).symm.trans hv)

/-- A product grows by one factor in every round of its loop. -/
theorem Explained.product {places room : Nat} (hf : Explained .factor places room) :
    Explained .product (places + 1) room := by
  intro ts v rest h
  rw [read, Evaluator.product] at h
  obtain ⟨⟨w, mid⟩, hfirst, h⟩ := bind_eq_ok_iff.1 h
  have hrounds := Evaluator.rounds_of_chain h
  obtain ⟨f, hft⟩ := hf ts w mid hfirst
  suffices key : ∀ after : Standing,
      Rounds (Evaluator.factor places room) Evaluator.multiplicative? (w, mid) after →
        ∃ p : Tree .product, p.Explains (places + 1) room ts after.1 after.2 from
    key (v, rest) hrounds
  intro after hrounds
  induction hrounds with
  | refl =>
    have hcalls : (Tree.ofFactor f).calls ≤ places + 1 := Nat.succ_le_succ hft.calls_le
    exact ⟨.ofFactor f, hft.yield_eq, hft.depth_le, hcalls, hft.divisors, hft.value_eq⟩
  | @tail before after _ hround ih =>
    obtain ⟨p, hp⟩ := ih
    obtain ⟨t, tail, operation, x, hts, hop, hx, hv⟩ := hround
    obtain ⟨op, hkind, happly⟩ := exists_multiplicative hop
    obtain ⟨g, hg⟩ := hf tail x after.2 hx
    -- the operator has taken its operand, so it admits it
    obtain ⟨hadmits, hvalue⟩ := (happly before.1 x after.1).1 hv
    have hmark : Terminal.ofToken t = .mark op.kind :=
      Terminal.ofToken_of_kind hkind (by cases op <;> decide)
    refine ⟨.multiply p op g, ?_, ?_, ?_, ⟨hp.divisors, hg.divisors, ?_⟩, ?_⟩
    · rw [hp.yield_eq, hts, List.map_cons, hmark, hg.yield_eq, Tree.yield, List.append_assoc,
        List.cons_append]
    · exact Nat.max_le.2 ⟨hp.depth_le, hg.depth_le⟩
    · exact Nat.max_le.2 ⟨hp.calls_le, Nat.succ_le_succ hg.calls_le⟩
    · rw [hg.value_eq]
      exact hadmits
    · rw [Tree.value, hp.value_eq, hg.value_eq]
      exact hvalue

/-- A factor is a base, or a base and an exponent one level deeper. -/
theorem Explained.factor {places room : Nat} (hb : Explained .base places room)
    (hf : ∀ lower, room = lower + 1 → Explained .factor places lower) :
    Explained .factor (places + 1) room := by
  intro ts v rest h
  rw [read, Evaluator.factor.eq_def] at h
  obtain ⟨⟨w, mid⟩, hbase, h⟩ := bind_eq_ok_iff.1 h
  obtain ⟨b, hbt⟩ := hb ts w mid hbase
  -- where no power sign follows, the base is the factor
  have halone : ∀ k, mid = k → (Except.ok (w, k) : Evaluator.Reading) = .ok (v, rest) →
      ∃ f : Tree .factor, f.Explains (places + 1) room ts v rest := by
    rintro k rfl h
    cases h
    have hcalls : (Tree.ofBase b).calls ≤ places + 1 := Nat.succ_le_succ hbt.calls_le
    exact ⟨.ofBase b, hbt.yield_eq, hbt.depth_le, hcalls, hbt.divisors, hbt.value_eq⟩
  cases mid with
  | nil => exact halone [] rfl h
  | cons t tail =>
    simp only at h
    split at h
    · next hkind =>
      cases room with
      | zero => cases h
      | succ lower =>
        -- the exponent is a factor of the level below
        obtain ⟨⟨x, after⟩, hexp, h⟩ := bind_eq_ok_iff.1 h
        cases h
        obtain ⟨e, he⟩ := hf lower rfl tail x after hexp
        have hmark : Terminal.ofToken t = .mark .power :=
          Terminal.ofToken_of_kind hkind (by decide)
        refine ⟨.power b e, ?_, ?_, ?_, ⟨hbt.divisors, he.divisors⟩, ?_⟩
        · rw [hbt.yield_eq, List.map_cons, hmark, he.yield_eq, Tree.yield, List.append_assoc,
            List.cons_append]
        · exact Nat.max_le.2 ⟨hbt.depth_le, Nat.succ_le_succ he.depth_le⟩
        · exact Nat.succ_le_succ (Nat.max_le.2 ⟨hbt.calls_le, he.calls_le⟩)
        · rw [Tree.value, hbt.value_eq, he.value_eq]
    · exact halone (t :: tail) rfl h

/-- What stands between an opening and a closing parenthesis is a sum. -/
theorem explains_of_close {places room : Nat} {apply : Float → Float} {ts rest : List Token}
    {v : Float} (hs : Explained .sum places room)
    (h : (do Evaluator.close apply (← Evaluator.sum places room ts)) = .ok (v, rest)) :
    ∃ s : Tree .sum, ts.map .ofToken = s.yield ++ .mark .closeGroup :: rest.map .ofToken ∧
      s.depth ≤ room ∧ s.calls ≤ places ∧ s.DivisorsNonzero ∧ apply s.value = v := by
  obtain ⟨⟨w, mid⟩, hsum, h⟩ := bind_eq_ok_iff.1 h
  obtain ⟨s, hst⟩ := hs ts w mid hsum
  cases mid with
  | nil => cases h
  | cons t tail =>
    rw [Evaluator.close] at h
    split at h
    · -- what the sum has left begins with the parenthesis
      next hkind =>
      cases h
      have hmark : Terminal.ofToken t = .mark .closeGroup :=
        Terminal.ofToken_of_kind hkind (by decide)
      refine ⟨s, ?_, hst.depth_le, hst.calls_le, hst.divisors, ?_⟩
      · rw [hst.yield_eq, List.map_cons, hmark]
      · rw [hst.value_eq]
    · cases h

/-- A base is told by its first token. -/
theorem Explained.base {places room : Nat} (hs : Explained .sum places room)
    (hb : ∀ lower, room = lower + 1 → Explained .base places lower) :
    Explained .base (places + 1) room := by
  intro ts v rest h
  cases ts with
  | nil =>
    rw [read, Evaluator.base] at h
    cases h
  | cons t tail =>
    rw [read, Evaluator.base.eq_def] at h
    simp only at h
    split at h
    · next hkind =>
      cases h
      have hnumeral : Terminal.ofToken t = .numeral t.text :=
        Terminal.ofToken_eq_numeral_iff.2 ⟨hkind, rfl⟩
      refine ⟨.number t.text, ?_, Nat.zero_le room, Nat.le_add_left 1 places, trivial, rfl⟩
      rw [List.map_cons, hnumeral, Tree.yield, List.singleton_append]
    · next hkind =>
      -- the operand of a minus sign is read one level down
      cases room with
      | zero => cases h
      | succ lower =>
        obtain ⟨⟨w, after⟩, hbase, h⟩ := bind_eq_ok_iff.1 h
        cases h
        obtain ⟨b, hbt⟩ := hb lower rfl tail w after hbase
        have hmark : Terminal.ofToken t = .mark .minus :=
          Terminal.ofToken_of_kind hkind (by decide)
        refine ⟨.negate b, ?_, Nat.succ_le_succ hbt.depth_le, Nat.succ_le_succ hbt.calls_le,
          hbt.divisors, ?_⟩
        · rw [List.map_cons, hmark, hbt.yield_eq, Tree.yield, List.cons_append]
        · rw [Tree.value, hbt.value_eq]
    · next hkind =>
      obtain ⟨s, hyield, hdepth, hcalls, hdiv, hvalue⟩ := explains_of_close hs h
      have hmark : Terminal.ofToken t = .mark .openGroup :=
        Terminal.ofToken_of_kind hkind (by decide)
      refine ⟨.group s, ?_, hdepth, Nat.succ_le_succ hcalls, hdiv, hvalue⟩
      rw [List.map_cons, hmark, hyield, Tree.yield, List.cons_append, List.append_assoc,
        List.singleton_append]
    · next hkind =>
      obtain ⟨s, hyield, hdepth, hcalls, hdiv, hvalue⟩ := explains_of_close hs h
      have hmark : Terminal.ofToken t = .mark .openRoot :=
        Terminal.ofToken_of_kind hkind (by decide)
      refine ⟨.root s, ?_, hdepth, Nat.succ_le_succ hcalls, hdiv, hvalue⟩
      rw [List.map_cons, hmark, hyield, Tree.yield, List.cons_append, List.append_assoc,
        List.singleton_append]
    · cases h

/-! ## All ranks -/

/-- Every reading has a tree of its rank. -/
theorem explained (r : Rank) (places room : Nat) : Explained r places room :=
  Rank.places_induction .exhausted .sum_zero (fun _ _ => .sum) (fun _ _ => .product)
    (fun _ _ => .factor) (fun _ _ => .base) r places room

/-- **What is read has a tree.** -/
theorem exists_tree_of_read {r : Rank} {places room : Nat} {ts rest : List Token} {v : Float}
    (h : read r places room ts = .ok (v, rest)) :
    ∃ t : Tree r, t.Explains places room ts v rest :=
  explained r places room ts v rest h

/-- A reader leaves no more tokens than it was given. -/
theorem shortens_read (r : Rank) (places room : Nat) : Shortens (read r places room) := by
  intro ts w rest h
  obtain ⟨t, ht⟩ := exists_tree_of_read h
  have hlen := congrArg List.length ht.yield_eq
  simp only [List.length_map, List.length_append] at hlen
  omega

end KeypadCalc.Grammar

import KeypadCalc.Proofs.Grammar.Soundness

/-!
# KeypadCalc — what has a tree is read

The readers find every tree that fits into their room and their places and divides by nothing that is
zero (`read_of_tree`).

A tree is followed by tokens `k` that the reader looks at to see whether a part goes on. `Ends` says
of a rank that they do not continue a part of it, and `Reaches` that the reader, which may be in the
middle of a chain, comes to stand in front of `k`: a chain that has been read so far is itself a
tree, so the induction is on the tree, with everything behind it left open.
-/

namespace KeypadCalc.Grammar

open Evaluator (Round Rounds Stops)

/-- A token of this kind, behind a part of a rank, belongs to the part. -/
def Rank.goesOn : Rank → Token.Kind → Bool
  | .sum, k => k = .plus || k = .minus || k = .times || k = .divide || k = .power
  | .product, k => k = .times || k = .divide || k = .power
  | .factor, k => k = .power
  | .base, _ => false

/-- A part of a rank ends in front of these tokens. -/
def Ends (r : Rank) (k : List Token) : Prop :=
  ∀ t tail, k = t :: tail → r.goesOn t.kind = false

/-- The rank of the parts that a reader of a rank is done with in the middle of a chain. -/
def Rank.inner : Rank → Rank
  | .sum => .product
  | .product => .factor
  | .factor => .factor
  | .base => .base

/-- The reader of a rank comes to stand in front of the tokens `k` with a value: a sum or a product
possibly in the middle of its chain, a factor or a base at its end. -/
def Reaches : Rank → (places room : Nat) → List Token → Float → List Token → Prop
  | .sum, places + 1, room + 1, ts, v, k => ∃ w mid,
      Evaluator.product places room ts = .ok (w, mid) ∧
        Rounds (Evaluator.product places room) Evaluator.additive? (w, mid) (v, k)
  | .product, places + 1, room, ts, v, k => ∃ w mid,
      Evaluator.factor places room ts = .ok (w, mid) ∧
        Rounds (Evaluator.factor places room) Evaluator.multiplicative? (w, mid) (v, k)
  | .factor, places, room, ts, v, k => Evaluator.factor places room ts = .ok (v, k)
  | .base, places, room, ts, v, k => Evaluator.base places room ts = .ok (v, k)
  | _, _, _, _, _, _ => False

/-! ## Where parts end -/

theorem Ends.nil (r : Rank) : Ends r [] := by
  intro t tail h
  cases h

/-- A part ends in front of a token that does not go on with it. -/
theorem Ends.cons {r : Rank} {t : Token} {k : List Token} (h : r.goesOn t.kind = false) :
    Ends r (t :: k) := by
  intro t' tail h'
  cases h'
  exact h

/-- What ends a part ends its last part of the rank below. -/
theorem Ends.inner {r : Rank} {k : List Token} (h : Ends r k) : Ends r.inner k := by
  intro t tail hk
  have hr := h t tail hk
  cases r with
  | sum =>
    simp only [Rank.goesOn, Bool.or_eq_false_iff] at hr
    simp only [Rank.inner, Rank.goesOn, Bool.or_eq_false_iff]
    exact ⟨⟨hr.1.1.2, hr.1.2⟩, hr.2⟩
  | product =>
    simp only [Rank.goesOn, Bool.or_eq_false_iff] at hr
    exact hr.2
  | factor => exact hr
  | base => rfl

theorem Ends.stops_additive {k : List Token} (h : Ends .sum k) : Stops Evaluator.additive? k := by
  intro t tail hk
  have ht := h t tail hk
  cases hkind : t.kind with
  | plus => simp [Rank.goesOn, hkind] at ht
  | minus => simp [Rank.goesOn, hkind] at ht
  | _ => rfl

theorem Ends.stops_multiplicative {k : List Token} (h : Ends .product k) :
    Stops Evaluator.multiplicative? k := by
  intro t tail hk
  have ht := h t tail hk
  cases hkind : t.kind with
  | times => simp [Rank.goesOn, hkind] at ht
  | divide => simp [Rank.goesOn, hkind] at ht
  | _ => rfl

/-- A reader that stands where its part ends has read it. -/
theorem read_of_reaches {r : Rank} {places room : Nat} {ts k : List Token} {v : Float}
    (h : Reaches r places room ts v k) (hends : Ends r k) : read r places room ts = .ok (v, k) := by
  cases r with
  | sum =>
    cases places with
    | zero => exact h.elim
    | succ places =>
      cases room with
      | zero => exact h.elim
      | succ room =>
        obtain ⟨w, mid, hfirst, hrounds⟩ := h
        -- the rounds are all that the loop takes, for nothing that follows goes on with them
        rw [read, Evaluator.sum]
        refine bind_eq_ok_iff.2 ⟨(w, mid), hfirst, ?_⟩
        exact Evaluator.chain_of_rounds (shortens_read .product places room) hrounds
          hends.stops_additive mid.length (Nat.le_refl _)
  | product =>
    cases places with
    | zero => exact h.elim
    | succ places =>
      obtain ⟨w, mid, hfirst, hrounds⟩ := h
      rw [read, Evaluator.product]
      refine bind_eq_ok_iff.2 ⟨(w, mid), hfirst, ?_⟩
      exact Evaluator.chain_of_rounds (shortens_read .factor places room) hrounds
        hends.stops_multiplicative mid.length (Nat.le_refl _)
  | factor => exact h
  | base => exact h

/-! ## The readers follow a tree -/

/-- Tokens that write two parts with a mark between them fall into the two parts. -/
theorem exists_split_at_mark {ts : List Token} {l r : List Terminal} {kind : Token.Kind}
    (h : ts.map .ofToken = l ++ .mark kind :: r) :
    ∃ before t after, ts = before ++ t :: after ∧ before.map .ofToken = l ∧ t.kind = kind ∧
      after.map .ofToken = r := by
  obtain ⟨before, rest, rfl, hbefore, hrest⟩ := List.map_eq_append_iff.1 h
  obtain ⟨t, after, rfl, ht, hafter⟩ := List.map_eq_cons_iff.1 hrest
  obtain ⟨hkind, -⟩ := Terminal.ofToken_eq_mark_iff.1 ht
  exact ⟨before, t, after, rfl, hbefore, hkind, hafter⟩

/-- A base that no power sign follows is read as a factor. -/
theorem factor_of_base {places room : Nat} {ts k : List Token} {v : Float}
    (hbase : Evaluator.base places room ts = .ok (v, k)) (hends : Ends .factor k) :
    Evaluator.factor (places + 1) room ts = .ok (v, k) := by
  rw [Evaluator.factor.eq_def]
  refine bind_eq_ok_iff.2 ⟨(v, k), hbase, ?_⟩
  cases k with
  | nil => rfl
  | cons t tail =>
    have hkind : t.kind ≠ .power := by simpa [Rank.goesOn] using hends t tail rfl
    simp only
    rw [if_neg hkind]

/-- A base with a power sign and an exponent one level down is read as a power. -/
theorem factor_of_power {places room : Nat} {ts tail k : List Token} {t : Token} {v w : Float}
    (hkind : t.kind = .power) (hbase : Evaluator.base places (room + 1) ts = .ok (v, t :: tail))
    (hexp : Evaluator.factor places room tail = .ok (w, k)) :
    Evaluator.factor (places + 1) (room + 1) ts = .ok (Binary64.power v w, k) := by
  rw [Evaluator.factor.eq_def]
  refine bind_eq_ok_iff.2 ⟨(v, t :: tail), hbase, ?_⟩
  simp only
  rw [if_pos hkind]
  exact bind_eq_ok_iff.2 ⟨(w, k), hexp, rfl⟩

/-- A sum that is followed by a closing parenthesis is read as a group. -/
theorem close_of_sum {places room : Nat} {ts k : List Token} {t : Token} {v : Float}
    {apply : Float → Float} (hkind : t.kind = .closeGroup)
    (hsum : Evaluator.sum places room ts = .ok (v, t :: k)) :
    (do Evaluator.close apply (← Evaluator.sum places room ts)) = .ok (apply v, k) := by
  refine bind_eq_ok_iff.2 ⟨(v, t :: k), hsum, ?_⟩
  rw [Evaluator.close, if_pos hkind]

/-- Tokens that write a group: a mark that opens it, a sum, and the closing parenthesis. -/
theorem exists_group {ts : List Token} {l : List Terminal} {kind : Token.Kind}
    (h : ts.map .ofToken = .mark kind :: (l ++ [.mark .closeGroup])) :
    ∃ t inside t', ts = t :: (inside ++ [t']) ∧ t.kind = kind ∧ inside.map .ofToken = l ∧
      t'.kind = .closeGroup := by
  obtain ⟨t, rest, rfl, ht, hrest⟩ := List.map_eq_cons_iff.1 h
  obtain ⟨hkind, -⟩ := Terminal.ofToken_eq_mark_iff.1 ht
  obtain ⟨inside, t', after, rfl, hinside, hclose, hafter⟩ := exists_split_at_mark hrest
  obtain rfl := List.map_eq_nil_iff.1 hafter
  exact ⟨t, inside, t', rfl, hkind, hinside, hclose⟩

/-- A group in front of more tokens, with its parenthesis counted among these. -/
theorem group_append (t t' : Token) (inside k : List Token) :
    t :: (inside ++ [t']) ++ k = t :: (inside ++ t' :: k) := by
  rw [List.cons_append, List.append_assoc, List.singleton_append]

/-- Where a call is carried out there is a place for it. -/
theorem exists_place {calls places : Nat} (h : calls + 1 ≤ places) : ∃ n, places = n + 1 :=
  ⟨places - 1, by omega⟩

/-- The sum in a group is read up to the parenthesis that closes it. -/
theorem sum_in_group {places room : Nat} {inside : List Token} {t' : Token} {v : Float}
    (hclose : t'.kind = .closeGroup)
    (h : ∀ k, Ends Rank.sum.inner k → Reaches .sum places room (inside ++ k) v k) (k : List Token) :
    Evaluator.sum places room (inside ++ t' :: k) = .ok (v, t' :: k) := by
  have hend : Ends .sum (t' :: k) := Ends.cons (by rw [hclose]; rfl)
  exact read_of_reaches (h (t' :: k) hend.inner) hend

/-- The reader of its rank follows a tree to its end, whatever stands behind it. Induction on the
tree: in a chain the left part has been followed before the operator is looked at. -/
theorem Tree.reaches {r : Rank} (t : Tree r) (places room : Nat) (pre k : List Token)
    (hyield : pre.map .ofToken = t.yield) (hdepth : t.depth ≤ room) (hcalls : t.calls ≤ places)
    (hdiv : t.DivisorsNonzero) (hends : Ends r.inner k) :
    Reaches r places room (pre ++ k) t.value k := by
  induction t generalizing places room pre k with
  | ofProduct p ih =>
    obtain ⟨room, rfl⟩ : ∃ n, room = n + 1 := ⟨room - 1, by rw [depth] at hdepth; omega⟩
    obtain ⟨places, rfl⟩ := exists_place hcalls
    have hp := ih places room pre k hyield (Nat.le_of_succ_le_succ hdepth)
      (Nat.le_of_succ_le_succ hcalls) hdiv hends.inner
    exact ⟨p.value, k, read_of_reaches hp hends, .refl⟩
  | add s op p ihs ihp =>
    obtain ⟨hs, hp⟩ := Nat.max_le.1 hdepth
    obtain ⟨hs', hp'⟩ := Nat.max_le.1 hcalls
    obtain ⟨room, rfl⟩ : ∃ n, room = n + 1 := ⟨room - 1, by omega⟩
    obtain ⟨places, rfl⟩ := exists_place hp'
    obtain ⟨pre, t, tail, rfl, hpre, hkind, htail⟩ := exists_split_at_mark hyield
    have hfront : Ends .product (t :: (tail ++ k)) :=
      Ends.cons (by rw [hkind]; cases op <;> rfl)
    -- the sum in front has been followed up to the operator, and one more round takes the product
    obtain ⟨w, mid, hfirst, hrounds⟩ :=
      ihs (places + 1) (room + 1) pre (t :: (tail ++ k)) hpre hs hs' hdiv.1 hfront
    have hnext := ihp places room tail k htail (Nat.le_of_succ_le_succ hp)
      (Nat.le_of_succ_le_succ hp') hdiv.2 hends.inner
    have hround : Round (Evaluator.product places room) Evaluator.additive?
        (s.value, t :: (tail ++ k)) (op.apply s.value p.value, k) :=
      ⟨t, tail ++ k, _, p.value, rfl, by rw [hkind]; exact additive?_kind op,
        read_of_reaches hnext hends, rfl⟩
    rw [List.append_assoc, List.cons_append]
    exact ⟨w, mid, hfirst, hrounds.tail hround⟩
  | ofFactor f ih =>
    obtain ⟨places, rfl⟩ := exists_place hcalls
    have hf := ih places room pre k hyield hdepth (Nat.le_of_succ_le_succ hcalls) hdiv hends
    exact ⟨f.value, k, hf, .refl⟩
  | multiply p op f ihp ihf =>
    obtain ⟨hp, hf⟩ := Nat.max_le.1 hdepth
    obtain ⟨hp', hf'⟩ := Nat.max_le.1 hcalls
    obtain ⟨places, rfl⟩ := exists_place hf'
    obtain ⟨pre, t, tail, rfl, hpre, hkind, htail⟩ := exists_split_at_mark hyield
    have hfront : Ends .factor (t :: (tail ++ k)) :=
      Ends.cons (by rw [hkind]; cases op <;> rfl)
    obtain ⟨w, mid, hfirst, hrounds⟩ :=
      ihp (places + 1) room pre (t :: (tail ++ k)) hpre hp hp' hdiv.1 hfront
    have hnext := ihf places room tail k htail hf (Nat.le_of_succ_le_succ hf') hdiv.2.1 hends
    -- a division takes its divisor, which is not zero
    obtain ⟨operation, hop, happly⟩ := multiplicative?_kind op
    have hround : Round (Evaluator.factor places room) Evaluator.multiplicative?
        (p.value, t :: (tail ++ k)) (op.apply p.value f.value, k) :=
      ⟨t, tail ++ k, operation, f.value, rfl, by rw [hkind]; exact hop, hnext,
        happly p.value f.value hdiv.2.2⟩
    rw [List.append_assoc, List.cons_append]
    exact ⟨w, mid, hfirst, hrounds.tail hround⟩
  | ofBase b ih =>
    obtain ⟨places, rfl⟩ := exists_place hcalls
    -- nothing continues a base
    have hb := ih places room pre k hyield hdepth (Nat.le_of_succ_le_succ hcalls) hdiv
      (fun _ _ _ => rfl)
    exact factor_of_base hb hends
  | power b e ihb ihe =>
    obtain ⟨hb, he⟩ := Nat.max_le.1 hdepth
    obtain ⟨places, rfl⟩ := exists_place hcalls
    obtain ⟨hb', he'⟩ := Nat.max_le.1 (Nat.le_of_succ_le_succ hcalls)
    obtain ⟨room, rfl⟩ : ∃ n, room = n + 1 := ⟨room - 1, by omega⟩
    obtain ⟨pre, t, tail, rfl, hpre, hkind, htail⟩ := exists_split_at_mark hyield
    have hbase := ihb places (room + 1) pre (t :: (tail ++ k)) hpre hb hb' hdiv.1 (fun _ _ _ => rfl)
    have hexp := ihe places room tail k htail (Nat.le_of_succ_le_succ he) he' hdiv.2 hends
    rw [List.append_assoc, List.cons_append]
    exact factor_of_power hkind hbase hexp
  | number text =>
    obtain ⟨places, rfl⟩ := exists_place hcalls
    obtain ⟨t, tail, rfl, ht, htail⟩ := List.map_eq_cons_iff.1 hyield
    obtain ⟨hkind, rfl⟩ := Terminal.ofToken_eq_numeral_iff.1 ht
    obtain rfl := List.map_eq_nil_iff.1 htail
    rw [Reaches, List.singleton_append, Evaluator.base.eq_def]
    simp only [hkind]
    rfl
  | group s ih =>
    obtain ⟨places, rfl⟩ := exists_place hcalls
    -- a group is no deeper than what it holds
    obtain ⟨t, pre, t', rfl, hkind, hpre, hclose⟩ := exists_group hyield
    have hs := sum_in_group hclose
      (fun k => ih places room pre k hpre hdepth (Nat.le_of_succ_le_succ hcalls) hdiv) k
    rw [Reaches, group_append, Evaluator.base.eq_def]
    simp only [hkind]
    exact close_of_sum hclose hs
  | root s ih =>
    obtain ⟨places, rfl⟩ := exists_place hcalls
    obtain ⟨t, pre, t', rfl, hkind, hpre, hclose⟩ := exists_group hyield
    have hs := sum_in_group hclose
      (fun k => ih places room pre k hpre hdepth (Nat.le_of_succ_le_succ hcalls) hdiv) k
    rw [Reaches, group_append, Evaluator.base.eq_def]
    simp only [hkind]
    exact close_of_sum hclose hs
  | negate b ih =>
    obtain ⟨places, rfl⟩ := exists_place hcalls
    obtain ⟨room, rfl⟩ : ∃ n, room = n + 1 := ⟨room - 1, by rw [depth] at hdepth; omega⟩
    obtain ⟨t, tail, rfl, ht, htail⟩ := List.map_eq_cons_iff.1 hyield
    obtain ⟨hkind, -⟩ := Terminal.ofToken_eq_mark_iff.1 ht
    have hb := ih places room tail k htail (Nat.le_of_succ_le_succ hdepth)
      (Nat.le_of_succ_le_succ hcalls) hdiv hends
    rw [Reaches, List.cons_append, Evaluator.base.eq_def]
    simp only [hkind]
    exact bind_eq_ok_iff.2 ⟨(b.value, k), hb, rfl⟩

/-- **What has a tree is read.** -/
theorem read_of_tree {r : Rank} (t : Tree r) {places room : Nat} {pre k : List Token}
    (hyield : pre.map .ofToken = t.yield) (hdepth : t.depth ≤ room) (hcalls : t.calls ≤ places)
    (hdiv : t.DivisorsNonzero) (hends : Ends r k) :
    read r places room (pre ++ k) = .ok (t.value, k) :=
  read_of_reaches (t.reaches places room pre k hyield hdepth hcalls hdiv hends.inner) hends

end KeypadCalc.Grammar

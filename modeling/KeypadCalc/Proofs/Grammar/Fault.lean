import KeypadCalc.Calculator
import KeypadCalc.Proofs.Grammar.Evaluation
import KeypadCalc.Proofs.Grammar.Viability
import KeypadCalc.Proofs.Token.Position

/-!
# KeypadCalc — where a fault of grammar is found

A reader that fails on a token fails at the first one that no sentence could have there. Each of the
four readers is followed from place to place (`Located`): one that ends with a value has taken an
operand and stands in front of tokens that do not continue it; one that ends with an unexpected
token has taken what leads to a place that refuses this token. The readers are put together from
parts, and so are the ways they go (`Located.bind`), from rank to rank as for the trees.

* **`unexpected_at_first_impossible`** — in front of the position that a fault reports, the tokens
  begin a sentence, and with the token at that position they do not.
-/

namespace KeypadCalc.Grammar

open Evaluator (Operation Reading Stops chain)

/-- The tokens in front of the rest lead from one place to another. -/
def Advances (p : Place) (ts : List Token) (q : Place) (rest : List Token) : Prop :=
  ∃ taken, ts = taken ++ rest ∧ walk p (taken.map .ofToken) = some q

/-- A token, or the end of them, cannot stand at a place. An expression ends behind an operand, with
no group open. -/
def Place.Refuses (p : Place) : Option Token → Prop
  | some t => p.next (.ofToken t) = none
  | none => p ≠ .behind 0

/-- The tokens lead to a place that refuses what is found there. -/
def Stuck (p : Place) (ts : List Token) (found : Option Token) : Prop :=
  ∃ q rest, Advances p ts q rest ∧ rest.head? = found ∧ q.Refuses found

/-- A reading of tokens from one place to another one, where it leaves tokens with some property; if
it fails on a token, then where that is refused. -/
def Located (p : Place) (ts : List Token) (q : Place) (ends : List Token → Prop) : Reading → Prop
  | .ok (_, rest) => Advances p ts q rest ∧ ends rest
  | .error (.unexpected found) => Stuck p ts found
  | .error (.stray _) => False
  | .error .nestingTooDeep | .error .divisionByZero => True

/-! ## Ways -/

theorem Advances.refl (p : Place) (ts : List Token) : Advances p ts p ts :=
  ⟨[], rfl, rfl⟩

/-- A token that leads to a place, before tokens that lead on from it. -/
theorem Advances.cons {p m q : Place} {t : Token} {ts rest : List Token}
    (ht : p.next (.ofToken t) = some m) (h : Advances m ts q rest) :
    Advances p (t :: ts) q rest := by
  obtain ⟨taken, rfl, hwalk⟩ := h
  exact ⟨t :: taken, rfl, by rw [List.map_cons, walk_cons ht, hwalk]⟩

theorem Advances.trans {p m q : Place} {ts mid rest : List Token} (h : Advances p ts m mid)
    (h' : Advances m mid q rest) : Advances p ts q rest := by
  obtain ⟨front, rfl, hfront⟩ := h
  obtain ⟨taken, rfl, hwalk⟩ := h'
  refine ⟨front ++ taken, (List.append_assoc _ _ _).symm, ?_⟩
  rw [List.map_append, walk_append, hfront, Option.bind_some, hwalk]

theorem Advances.length_le {p q : Place} {ts rest : List Token} (h : Advances p ts q rest) :
    rest.length ≤ ts.length := by
  obtain ⟨taken, rfl, -⟩ := h
  rw [List.length_append]
  omega

/-- What is refused at the end of a way is refused on it. -/
theorem Advances.stuck {p q : Place} {ts rest : List Token} {found : Option Token}
    (h : Advances p ts q rest) (h' : Stuck q rest found) : Stuck p ts found := by
  obtain ⟨m, last, hlast, hfound, hrefuses⟩ := h'
  exact ⟨m, last, h.trans hlast, hfound, hrefuses⟩

namespace Located

variable {p m q : Place} {ts : List Token} {ends : List Token → Prop}

/-- A reading may have come a way to where it starts. -/
theorem prepend {us : List Token} {x : Reading} (h : Located m us q ends x)
    (hway : Advances p ts m us) : Located p ts q ends x := by
  match x, h with
  | .error (.unexpected found), h => exact hway.stuck h
  | .error .nestingTooDeep, _ | .error .divisionByZero, _ => trivial
  | .ok (v, rest), ⟨hway', hends⟩ => exact ⟨hway.trans hway', hends⟩

/-- A reading goes on where another one has ended. -/
theorem bind {x : Reading} {f : Float × List Token → Reading} {ends' : List Token → Prop}
    (h : Located p ts m ends x)
    (hf : ∀ v mid, Advances p ts m mid → ends mid → Located m mid q ends' (f (v, mid))) :
    Located p ts q ends' (x >>= f) := by
  match x, h with
  | .error (.unexpected found), h => exact h
  | .error .nestingTooDeep, _ | .error .divisionByZero, _ => trivial
  | .ok (v, mid), ⟨hway, hends⟩ =>
    have hrest := hf v mid hway hends
    exact hrest.prepend hway

/-- A reading goes on behind a token. -/
theorem cons {t : Token} {x : Reading} (ht : p.next (.ofToken t) = some m)
    (h : Located m ts q ends x) : Located p (t :: ts) q ends x :=
  h.prepend (.cons ht (.refl m ts))

/-- A reading goes on behind a mark. -/
theorem mark {t : Token} {k : Token.Kind} {x : Reading} (hkind : t.kind = k) (hk : k ≠ .number)
    (hnext : p.next (.mark k) = some m) (h : Located m ts q ends x) :
    Located p (t :: ts) q ends x := by
  have hmark : Terminal.ofToken t = .mark k := Terminal.ofToken_of_kind hkind hk
  exact .cons (by rw [hmark, hnext]) h

theorem mono {x : Reading} {ends' : List Token → Prop} (h : Located p ts q ends x)
    (himp : ∀ rest, ends rest → ends' rest) : Located p ts q ends' x := by
  match x, h with
  | .error (.unexpected found), h => exact h
  | .error .nestingTooDeep, _ | .error .divisionByZero, _ => trivial
  | .ok (v, rest), ⟨hway, hends⟩ => exact ⟨hway, himp rest hends⟩

theorem here {v : Float} (hends : ends ts) : Located p ts p ends (.ok (v, ts)) :=
  ⟨.refl p ts, hends⟩

/-- A reading that fails at the end of its tokens, where an expression cannot end. -/
theorem at_end (h : p ≠ .behind 0) : Located p [] q ends (.error (.unexpected none)) :=
  ⟨p, [], .refl p [], rfl, h⟩

/-- A reading that fails on the first of its tokens, which cannot stand there. -/
theorem at_token {t : Token} (h : p.next (.ofToken t) = none) :
    Located p (t :: ts) q ends (.error (.unexpected (some t))) :=
  ⟨p, t :: ts, .refl p (t :: ts), rfl, h⟩

end Located

/-! ## Tokens that cannot stand at a place -/

/-- Before an operand only a numeral, a minus sign or an opening can stand. -/
theorem next_before_eq_none {t : Token} (n : Nat) (hnumber : t.kind ≠ .number)
    (hminus : t.kind ≠ .minus) (hgroup : t.kind ≠ .openGroup) (hroot : t.kind ≠ .openRoot) :
    (Place.before n).next (.ofToken t) = none := by
  rw [Terminal.ofToken_of_kind rfl hnumber]
  cases hkind : t.kind with
  | number => exact absurd hkind hnumber
  | minus => exact absurd hkind hminus
  | openGroup => exact absurd hkind hgroup
  | openRoot => exact absurd hkind hroot
  | plus | times | divide | power | closeGroup | finish => rfl

/-- What neither goes on with a sum nor closes a group cannot stand behind an operand. -/
theorem next_behind_eq_none {t : Token} {n : Nat} (hends : Rank.sum.goesOn t.kind = false)
    (hclose : t.kind = .closeGroup → n = 0) : (Place.behind n).next (.ofToken t) = none := by
  cases hkind : t.kind with
  | number =>
    rw [Terminal.ofToken_eq_numeral_iff.2 ⟨hkind, rfl⟩]
    rfl
  | plus | minus | times | divide | power => simp [Rank.goesOn, hkind] at hends
  | closeGroup =>
    obtain rfl := hclose hkind
    rw [Terminal.ofToken_of_kind hkind (by decide)]
    rfl
  | openGroup | openRoot | finish =>
    rw [Terminal.ofToken_of_kind hkind (by decide)]
    rfl

/-! ## Operators -/

/-- An operation stands between two operands, and fails on nothing but a zero. -/
structure Links (k : Token.Kind) (operation : Operation) : Prop where
  kind_ne : k ≠ .number
  next_eq : ∀ n, (Place.behind n).next (.mark k) = some (.before n)
  error_eq : ∀ x y fault, operation x y = .error fault → fault = .divisionByZero

/-- The operators of a sum stand behind an operand and ask for another. -/
theorem links_of_additive? {k : Token.Kind} {operation : Operation}
    (h : Evaluator.additive? k = some operation) : Links k operation := by
  unfold Evaluator.additive? at h
  split at h
  · cases h
    exact ⟨by decide, fun _ => rfl, fun _ _ _ => nofun⟩
  · cases h
    exact ⟨by decide, fun _ => rfl, fun _ _ _ => nofun⟩
  · cases h

theorem links_of_multiplicative? {k : Token.Kind} {operation : Operation}
    (h : Evaluator.multiplicative? k = some operation) : Links k operation := by
  unfold Evaluator.multiplicative? at h
  split at h
  · cases h
    exact ⟨by decide, fun _ => rfl, fun _ _ _ => nofun⟩
  · cases h
    refine ⟨by decide, fun _ => rfl, fun x y fault h => ?_⟩
    unfold Evaluator.divide at h
    split at h
    · cases h
      rfl
    · cases h
  · cases h

/-- A chain of operators goes from behind an operand to behind the last one, and stops where none of
its operators stands. Induction on the fuel, which stays ahead of the tokens left. -/
theorem located_chain {operand : List Token → Reading}
    {operation? : Token.Kind → Option Operation} {ends : List Token → Prop}
    (hlinks : ∀ k operation, operation? k = some operation → Links k operation)
    (hoperand : ∀ ts n, Located (.before n) ts (.behind n) ends (operand ts))
    {fuel : Nat} {v : Float} {ts : List Token} (n : Nat) (hends : ends ts)
    (hfuel : ts.length ≤ fuel) :
    Located (.behind n) ts (.behind n) (fun rest => ends rest ∧ Stops operation? rest)
      (chain operand operation? fuel v ts) := by
  induction fuel generalizing v ts with
  | zero =>
    obtain rfl := List.eq_nil_of_length_eq_zero (Nat.le_zero.1 hfuel)
    exact .here ⟨hends, nofun⟩
  | succ fuel ih =>
    cases ts with
    | nil => exact .here ⟨hends, nofun⟩
    | cons t tail =>
      rw [chain]
      split
      · next hnone =>
        refine .here ⟨hends, ?_⟩
        rintro _ _ ⟨⟩
        exact hnone
      · next operation hop =>
        have hlink := hlinks t.kind operation hop
        refine .mark rfl hlink.kind_ne (hlink.next_eq n) ?_
        refine .bind (hoperand tail n) fun w mid hway hmid => ?_
        -- the rest of the chain, unless the operation fails
        have hlen := hway.length_le
        rw [List.length_cons] at hfuel
        show Located (.behind n) mid (.behind n) _
          (operation v w >>= fun u => chain operand operation? fuel u mid)
        cases hu : operation v w with
        | ok u => exact ih hmid (by omega)
        | error fault =>
          obtain rfl := hlink.error_eq v w fault hu
          trivial

/-! ## Readers -/

/-- The readings of a rank take an operand, up to where it ends. -/
def Locates (r : Rank) (places room : Nat) : Prop :=
  ∀ ts n, Located (.before n) ts (.behind n) (Ends r) (read r places room ts)

/-- Behind a product stands neither what goes on with its last factor nor an operator of its own. -/
theorem Ends.product {k : List Token} (hfactor : Ends .factor k)
    (hstops : Stops Evaluator.multiplicative? k) : Ends .product k := by
  intro t tail hk
  have hgoes := hfactor t tail hk
  have hnone := hstops t tail hk
  cases hkind : t.kind with
  | times | divide => simp [Evaluator.multiplicative?, hkind] at hnone
  | power => simp [Rank.goesOn, hkind] at hgoes
  | _ => rfl

theorem Ends.sum {k : List Token} (hproduct : Ends .product k)
    (hstops : Stops Evaluator.additive? k) : Ends .sum k := by
  intro t tail hk
  have hgoes := hproduct t tail hk
  have hnone := hstops t tail hk
  cases hkind : t.kind with
  | plus | minus => simp [Evaluator.additive?, hkind] at hnone
  | times | divide | power => simp [Rank.goesOn, hkind] at hgoes
  | _ => rfl

variable {places room : Nat}

/-- Without a place no token is looked at, and none is at fault. -/
theorem Locates.exhausted (r : Rank) (room : Nat) : Locates r 0 room := by
  intro ts n
  rw [read_zero]
  trivial

theorem Locates.sum_zero (places : Nat) : Locates .sum (places + 1) 0 := by
  intro ts n
  rw [read, Evaluator.sum]
  trivial

theorem Locates.sum (hp : Locates .product places room) :
    Locates .sum (places + 1) (room + 1) := by
  intro ts n
  rw [read, Evaluator.sum]
  refine .bind (hp ts n) fun v mid _ hmid => ?_
  have hchain := located_chain (v := v) (fun k _ => links_of_additive? (k := k)) hp n hmid
    (Nat.le_refl mid.length)
  exact hchain.mono fun rest hrest => hrest.1.sum hrest.2

theorem Locates.product (hf : Locates .factor places room) :
    Locates .product (places + 1) room := by
  intro ts n
  rw [read, Evaluator.product]
  refine .bind (hf ts n) fun v mid _ hmid => ?_
  have hchain := located_chain (v := v) (fun k _ => links_of_multiplicative? (k := k)) hf n hmid
    (Nat.le_refl mid.length)
  exact hchain.mono fun rest hrest => hrest.1.product hrest.2

/-- A factor goes the way of its base, and of its exponent behind a power sign. -/
theorem Locates.factor (hb : Locates .base places room)
    (hf : ∀ lower, room = lower + 1 → Locates .factor places lower) :
    Locates .factor (places + 1) room := by
  intro ts n
  rw [read, Evaluator.factor.eq_def]
  refine .bind (hb ts n) fun v mid _ _ => ?_
  cases mid with
  | nil => exact .here (.nil .factor)
  | cons t tail =>
    simp only
    split
    · next hkind =>
      cases room with
      | zero => trivial
      | succ lower =>
        -- the power sign leads from behind the base to before the exponent
        refine .mark hkind (by decide) rfl ?_
        exact .bind (hf lower rfl tail n) fun w rest _ hrest => .here hrest
    · next hkind =>
      -- what stands here is no power sign, so the factor has ended
      refine .here (.cons ?_)
      simpa [Rank.goesOn] using hkind

/-- A group is closed where the sum in it ends. -/
theorem located_close {apply : Float → Float} {v : Float} {ts : List Token} (n : Nat)
    (hends : Ends .sum ts) :
    Located (.behind (n + 1)) ts (.behind n) (Ends .base) (Evaluator.close apply (v, ts)) := by
  cases ts with
  | nil => exact .at_end (by rintro ⟨⟩)
  | cons t tail =>
    rw [Evaluator.close]
    split
    · next hkind => exact .mark hkind (by decide) rfl (.here fun _ _ _ => rfl)
    · next hkind =>
      exact .at_token (next_behind_eq_none (hends t tail rfl) fun hclose => absurd hclose hkind)

/-- A base starts before an operand, and ends behind it: at once with a numeral, behind its operand
with a minus sign, and behind the closing parenthesis with a group. -/
theorem Locates.base (hs : Locates .sum places room)
    (hb : ∀ lower, room = lower + 1 → Locates .base places lower) :
    Locates .base (places + 1) room := by
  intro ts n
  cases ts with
  | nil =>
    rw [read, Evaluator.base]
    exact .at_end (by rintro ⟨⟩)
  | cons t tail =>
    rw [read, Evaluator.base.eq_def]
    simp only
    split
    · next hkind =>
      have hnext : (Place.before n).next (.ofToken t) = some (.behind n) := by
        rw [Terminal.ofToken_eq_numeral_iff.2 ⟨hkind, rfl⟩]
        rfl
      exact .cons hnext (.here fun _ _ _ => rfl)
    · next hkind =>
      cases room with
      | zero => trivial
      | succ lower =>
        refine .mark hkind (by decide) rfl ?_
        exact .bind (hb lower rfl tail n) fun w rest _ hrest => .here hrest
    · next hkind =>
      -- one more group is open for the sum in it
      refine .mark hkind (by decide) rfl ?_
      exact .bind (hs tail (n + 1)) fun v rest _ hrest => located_close n hrest
    · next hkind =>
      refine .mark hkind (by decide) rfl ?_
      exact .bind (hs tail (n + 1)) fun v rest _ hrest => located_close n hrest
    · next hnumber hminus hgroup hroot =>
      exact .at_token (next_before_eq_none n hnumber hminus hgroup hroot)

/-- Every reading is located. -/
theorem located_read (r : Rank) (places room : Nat) : Locates r places room :=
  Rank.places_induction .exhausted .sum_zero (fun _ _ => .sum) (fun _ _ => .product)
    (fun _ _ => .factor) (fun _ _ => .base) r places room

/-! ## Expressions -/

variable {stack : Evaluator.Stack}

/-- An expression with a fault at a position has come to a token that is refused there. -/
theorem exists_stuck_of_whole {ts : List Token} {fault : Fault} {w : String} {n : Nat}
    (h : Evaluator.whole places room ts = .error fault) (hn : fault.position? w = some n) :
    ∃ found, fault = .unexpected found ∧ Stuck (.before 0) ts found := by
  have hsum := located_read .sum places room ts 0
  rcases bind_eq_error_iff.1 h with herror | ⟨⟨v, rest⟩, hok, h⟩
  · rw [read, herror] at hsum
    cases fault with
    | unexpected found => exact ⟨found, rfl, hsum⟩
    | stray _ => exact hsum.elim
    | nestingTooDeep | divisionByZero => cases hn
  · rw [read, hok] at hsum
    obtain ⟨hway, hends⟩ := hsum
    cases rest with
    | nil => cases h
    | cons t tail =>
      -- the sum has ended in front of a token
      cases h
      have hnone := next_behind_eq_none (hends t tail rfl) fun _ => rfl
      exact ⟨some t, rfl, .behind 0, t :: tail, hway, rfl, hnone⟩

/-- What leads to a place is viable; with a token that the place refuses it is not, and it is no
sentence if the place refuses the end. -/
theorem Advances.exists_viable {ts rest : List Token} {q : Place}
    (h : Advances (.before 0) ts q rest) :
    ∃ before, ts = before ++ rest ∧ Viable (before.map .ofToken) ∧
      (∀ t, q.Refuses (some t) → ¬ Viable ((before ++ [t]).map .ofToken)) ∧
      (q.Refuses none → ¬ Sentence (before.map .ofToken)) := by
  obtain ⟨before, rfl, hwalk⟩ := h
  refine ⟨before, rfl, viable_iff.2 ⟨q, hwalk⟩, fun t hrefuses hviable => ?_, fun hrefuses h => ?_⟩
  · obtain ⟨m, hm⟩ := viable_iff.1 hviable
    rw [List.map_append, List.map_singleton, walk_snoc hwalk, hrefuses] at hm
    cases hm
  · rw [sentence_iff, hwalk] at h
    exact hrefuses (Option.some.inj h)

/-- The position that a report carries is that of its fault. -/
theorem position?_of_lookup {fault : Fault} {w : String} {maxDepth : Int} {n : Nat}
    (h : (fault.failure w maxDepth).details.lookup "position" = some (.int n)) :
    fault.position? w = some n := by
  cases fault with
  | stray s =>
    cases h
    rfl
  | unexpected found =>
    cases found with
    | none =>
      cases h
      rfl
    | some t =>
      cases h
      rfl
  | nestingTooDeep | divisionByZero => cases h

/-- At the token that an expression fails on, the sentences end that begin like it. -/
theorem exists_first_impossible {maxDepth : Int} {w : String} {all : List Token} {fault : Fault}
    {n : Nat} (htok : Token.tokenize w = .ok all)
    (h : Evaluator.evaluate stack maxDepth w = .error fault) (hn : fault.position? w = some n) :
    ∃ before t after, all = before ++ t :: after ∧ t.position = n ∧
      Viable (before.map .ofToken) ∧
      if t = Token.finish w then ¬ Sentence (before.map .ofToken)
      else ¬ Viable ((before ++ [t]).map .ofToken) := by
  have hrise := Token.pairwise_of_tokenize htok
  obtain ⟨ts, hts, rfl⟩ := map_eq_ok_iff.1 htok
  rw [Evaluator.evaluate, hts] at h
  obtain ⟨found, rfl, q, rest, hway, rfl, hrefuses⟩ := exists_stuck_of_whole h hn
  obtain ⟨before, rfl, hviable, htoken, hend⟩ := hway.exists_viable
  cases rest with
  | nil =>
    cases hn
    refine ⟨before, Token.finish w, [], by rw [List.append_nil], rfl, hviable, ?_⟩
    rw [if_pos rfl]
    exact hend hrefuses
  | cons t tail =>
    cases hn
    refine ⟨before, t, tail ++ [Token.finish w], by simp, rfl, hviable, ?_⟩
    -- a token in front of the mark of the end is not this mark
    have hlt := (List.pairwise_append.1 hrise).2.2 t (by simp) (Token.finish w) (by simp)
    have hne : t ≠ Token.finish w := by
      rintro rfl
      exact absurd hlt (Nat.lt_irrefl _)
    rw [if_neg hne]
    exact htoken t hrefuses

/-- **A fault of grammar is reported at the first impossible token.** -/
theorem unexpected_at_first_impossible {maxDepth : Int} {w : String} {all : List Token}
    {fault : Fault} {n : Nat} (htok : Token.tokenize w = .ok all)
    (h : Evaluator.evaluate stack maxDepth w = .error fault)
    (hn : (fault.failure w maxDepth).details.lookup "position" = some (.int n)) :
    (∃ t ∈ all, t.position = n) ∧
    ∀ before t after, all = before ++ t :: after → t.position = n →
      Viable (before.map .ofToken) ∧
      if t = Token.finish w then ¬ Sentence (before.map .ofToken)
      else ¬ Viable ((before ++ [t]).map .ofToken) := by
  obtain ⟨before, t, after, rfl, hposition, hfirst⟩ :=
    exists_first_impossible htok h (position?_of_lookup hn)
  refine ⟨⟨t, by simp, hposition⟩, fun before' t' after' hsplit hposition' => ?_⟩
  -- the position tells the token, and what stands in front of it
  obtain ⟨rfl, rfl⟩ := Token.split_eq_of_position_eq (Token.pairwise_of_tokenize htok) hsplit
    (hposition.trans hposition'.symm)
  exact hfirst

/-- In `2+*3` no sentence goes on with the star behind the plus sign. -/
theorem star_behind_plus :
    Evaluator.evaluate .usual 100 "2+*3" = .error (.unexpected (some ⟨.times, "*", 2⟩)) ∧
      Viable [.numeral "2", .mark .plus] ∧
      ¬ Viable [.numeral "2", .mark .plus, .mark .times] := by
  have htok : Token.tokenize "2+*3" = .ok [⟨.number, "2", 0⟩, ⟨.plus, "+", 1⟩, ⟨.times, "*", 2⟩,
      ⟨.number, "3", 3⟩, ⟨.finish, "", 4⟩] := by decide +kernel
  have hfault : Evaluator.evaluate .usual 100 "2+*3" =
      .error (.unexpected (some ⟨.times, "*", 2⟩)) := by
    decide +kernel
  have hfirst := (unexpected_at_first_impossible htok hfault rfl).2
    [⟨.number, "2", 0⟩, ⟨.plus, "+", 1⟩] ⟨.times, "*", 2⟩
    [⟨.number, "3", 3⟩, ⟨.finish, "", 4⟩] rfl rfl
  exact ⟨hfault, hfirst⟩

end KeypadCalc.Grammar

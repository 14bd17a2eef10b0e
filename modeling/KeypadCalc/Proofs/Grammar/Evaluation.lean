import KeypadCalc.Proofs.Grammar.Completeness
import KeypadCalc.Proofs.Grammar.Nesting
import KeypadCalc.Proofs.Grammar.Room

/-!
# KeypadCalc — the value of an expression by its tree

Readings and trees of the grammar correspond. So an expression has a value under a limit on levels
exactly if it can be cut into tokens that a tree of the grammar writes, of no more levels than the
limit and without a division by zero, and if the calls that the tree takes fit on the stack; the value
is that of the tree. Under a limit that a setting can allow the calls always fit. Under a higher one a
tree may be refused for its calls alone, and then as one of too many levels.
-/

namespace KeypadCalc.Grammar

/-- A list of tokens has the value of the trees of sums that write it. -/
theorem whole_eq_ok_iff {places room : Nat} {ts : List Token} {v : Float} :
    Evaluator.whole places room ts = .ok v ↔ ∃ t : Tree .sum, t.yield = ts.map .ofToken ∧
      t.depth ≤ room ∧ t.calls ≤ places ∧ t.DivisorsNonzero ∧ t.value = v := by
  constructor
  · intro h
    obtain ⟨⟨w, rest⟩, hsum, h⟩ := bind_eq_ok_iff.1 h
    cases rest with
    | nil =>
      -- nothing is left, so the tree writes all the tokens
      cases h
      obtain ⟨t, ht⟩ := exists_tree_of_read (r := .sum) hsum
      have hyield : t.yield = ts.map .ofToken := by
        rw [ht.yield_eq, List.map_nil, List.append_nil]
      exact ⟨t, hyield, ht.depth_le, ht.calls_le, ht.divisors, ht.value_eq⟩
    | cons t tail => cases h
  · rintro ⟨t, hyield, hdepth, hcalls, hdiv, rfl⟩
    have hsum : Evaluator.sum places room (ts ++ []) = .ok (t.value, []) :=
      read_of_tree t hyield.symm hdepth hcalls hdiv (Ends.nil .sum)
    rw [List.append_nil] at hsum
    exact bind_eq_ok_iff.2 ⟨(t.value, []), hsum, rfl⟩

/-- The tokens in front of the mark of the end are those that are read. -/
theorem tokenize_eq_ok_iff {w : String} {ts : List Token} :
    Token.tokenize w = .ok (ts ++ [Token.finish w]) ↔ Token.lexemes w = .ok ts := by
  unfold Token.tokenize
  rw [map_eq_ok_iff]
  constructor
  · rintro ⟨us, hus, h⟩
    rw [hus, List.append_cancel_right h]
  · intro h
    exact ⟨ts, h, rfl⟩

/-- A tree fits into the room that a limit leaves exactly if it takes no more levels than the
limit: a sum takes a level, so a limit below one leaves room for none. -/
theorem depth_le_toNat_iff {maxDepth : Int} (t : Tree .sum) :
    t.depth ≤ maxDepth.toNat ↔ (t.depth : Int) ≤ maxDepth := by
  have hpos := t.depth_pos
  omega

/-- A tree of no more levels than a setting can allow takes no more calls than there is room for. -/
theorem calls_le_of_depth (stack : Evaluator.Stack) {t : Tree .sum}
    (h : t.depth ≤ Evaluator.deepestSetting) : t.calls ≤ stack.calls := by
  have hcalls := t.calls_le
  have henough := stack.enough
  simp only [Rank.extraCalls] at hcalls
  omega

/-- What a text writes: a tree of sums, within some limit on levels and without a division by zero,
that comes to a value. -/
structure Tree.Writes (t : Tree .sum) (ts : List Token) (maxDepth : Int) (v : Float) : Prop where
  yield_eq : t.yield = ts.map .ofToken
  depth_le : (t.depth : Int) ≤ maxDepth
  divisors : t.DivisorsNonzero
  value_eq : t.value = v

theorem evaluate_eq_ok_iff {stack : Evaluator.Stack} {maxDepth : Int} {w : String} {v : Float} :
    Evaluator.evaluate stack maxDepth w = .ok v ↔
      ∃ ts, Token.tokenize w = .ok (ts ++ [Token.finish w]) ∧
        ∃ t : Tree .sum, t.Writes ts maxDepth v ∧ t.calls ≤ stack.calls := by
  unfold Evaluator.evaluate
  cases hts : Token.lexemes w with
  | error stray =>
    constructor
    · intro h
      cases h
    · rintro ⟨ts, htok, _⟩
      rw [tokenize_eq_ok_iff, hts] at htok
      cases htok
  | ok us =>
    constructor
    · intro h
      -- a limit below zero is one of no levels, and every tree has one
      obtain ⟨t, hyield, hdepth, hcalls, hdiv, hvalue⟩ := whole_eq_ok_iff.1 h
      exact ⟨us, tokenize_eq_ok_iff.2 hts, t,
        ⟨hyield, (depth_le_toNat_iff t).1 hdepth, hdiv, hvalue⟩, hcalls⟩
    · rintro ⟨ts, htok, t, ht, hcalls⟩
      rw [tokenize_eq_ok_iff, hts] at htok
      cases htok
      exact whole_eq_ok_iff.2
        ⟨t, ht.yield_eq, (depth_le_toNat_iff t).2 ht.depth_le, hcalls, ht.divisors, ht.value_eq⟩

/-- On a stack with room for it a tree is read; on a smaller one it is read alike, or refused as one
of too many levels. -/
theorem evaluate_of_tree {maxDepth : Int} {w : String} {v : Float} {ts : List Token}
    (htok : Token.tokenize w = .ok (ts ++ [Token.finish w])) {t : Tree .sum}
    (ht : t.Writes ts maxDepth v) (stack : Evaluator.Stack) :
    Evaluator.evaluate stack maxDepth w = .ok v ∨
      Evaluator.evaluate stack maxDepth w = .error .nestingTooDeep := by
  have hwide : Evaluator.whole (stack.calls + t.calls) maxDepth.toNat ts = .ok v :=
    whole_eq_ok_iff.2 ⟨t, ht.yield_eq, (depth_le_toNat_iff t).2 ht.depth_le, Nat.le_add_left _ _,
      ht.divisors, ht.value_eq⟩
  rw [Evaluator.evaluate, tokenize_eq_ok_iff.1 htok]
  by_cases hdeep : Evaluator.whole stack.calls maxDepth.toNat ts = .error .nestingTooDeep
  · exact .inr hdeep
  · have hagrees := agrees_whole (Nat.le_add_right stack.calls t.calls) (Nat.le_refl _) ts hdeep
    exact .inl (hagrees.symm.trans hwide)

/-- A one in groups has a tree of one level more than there are groups. -/
theorem exists_tree_nested (groups : Nat) : ∃ ts,
    Token.tokenize (nested groups) = .ok (ts ++ [Token.finish (nested groups)]) ∧
      ∃ t : Tree .sum, t.Writes ts (groups + 1 : Nat) 1.0 := by
  obtain ⟨ts, hts, hyield⟩ := exists_lexemes_nested groups
  have hvalue : (Tree.nested groups).value = 1.0 := by
    rw [Tree.value_nested]
    decide +kernel
  have hdepth : (Tree.nested groups).depth ≤ groups + 1 := Nat.le_of_eq (Tree.depth_nested groups)
  exact ⟨ts, tokenize_eq_ok_iff.2 hts, Tree.nested groups,
    ⟨hyield.symm, Int.ofNat_le.2 hdepth, Tree.divisorsNonzero_nested groups, hvalue⟩⟩

/-- A one in groups is refused by a stack with no more than four places for each group, whatever the
limit on levels is: the tokens that open the groups are enough to exhaust it. -/
theorem evaluate_nested (stack : Evaluator.Stack) {groups : Nat} (h : stack.calls ≤ 4 * groups)
    (maxDepth : Int) :
    Evaluator.evaluate stack maxDepth (nested groups) = .error .nestingTooDeep := by
  obtain ⟨ts, hts, hyield⟩ := exists_lexemes_nested groups
  have hfront := hyield.trans (Tree.yield_nestedBase groups)
  obtain ⟨front, rest, rfl, hopen, -⟩ := List.map_eq_append_iff.1 hfront
  -- what is in front of the number is all openings
  have hkinds : ∀ t ∈ front, t.kind = .openGroup := by
    intro t ht
    have hmark : Terminal.ofToken t ∈ List.replicate groups (Terminal.mark .openGroup) :=
      hopen ▸ List.mem_map_of_mem ht
    exact (Terminal.ofToken_eq_mark_iff.1 (List.eq_of_mem_replicate hmark)).1
  have hlength : front.length = groups := by
    have hmapped := congrArg List.length hopen
    rwa [List.length_map, List.length_replicate] at hmapped
  have hsum : Evaluator.sum stack.calls maxDepth.toNat (front ++ rest) = .error .nestingTooDeep :=
    sum_of_groups hkinds (hlength ▸ h) maxDepth.toNat rest
  rw [Evaluator.evaluate, hts]
  show (Evaluator.sum stack.calls maxDepth.toNat (front ++ rest) >>= _) = _
  rw [hsum]
  rfl

/-- **The value of an expression is that of its tree**, whose calls fit on the stack. Under a limit
that a setting can allow they do; under any other a tree whose calls do not fit is refused as one of
too many levels. -/
theorem evaluate_eq_ok_iff_exists_tree (stack : Evaluator.Stack) (maxDepth : Int) (w : String)
    (v : Float) :
    (Evaluator.evaluate stack maxDepth w = .ok v ↔
      ∃ ts, Token.tokenize w = .ok (ts ++ [Token.finish w]) ∧
        ∃ t : Tree .sum, t.yield = ts.map .ofToken ∧ (t.depth : Int) ≤ maxDepth ∧
          t.DivisorsNonzero ∧ t.value = v ∧ t.calls ≤ stack.calls) ∧
    (maxDepth ≤ 200 → (Evaluator.evaluate stack maxDepth w = .ok v ↔
      ∃ ts, Token.tokenize w = .ok (ts ++ [Token.finish w]) ∧
        ∃ t : Tree .sum, t.yield = ts.map .ofToken ∧ (t.depth : Int) ≤ maxDepth ∧
          t.DivisorsNonzero ∧ t.value = v)) ∧
    ∀ ts, Token.tokenize w = .ok (ts ++ [Token.finish w]) →
      ∀ t : Tree .sum, t.yield = ts.map .ofToken → (t.depth : Int) ≤ maxDepth →
        t.DivisorsNonzero → t.value = v →
          Evaluator.evaluate stack maxDepth w = .ok v ∨
            Evaluator.evaluate stack maxDepth w = .error .nestingTooDeep := by
  refine ⟨?fits, fun hmax => ?allowed, fun ts htok t hyield hdepth hdiv hvalue => ?refused⟩
  case fits =>
    rw [evaluate_eq_ok_iff]
    constructor
    · rintro ⟨ts, htok, t, ht, hcalls⟩
      exact ⟨ts, htok, t, ht.yield_eq, ht.depth_le, ht.divisors, ht.value_eq, hcalls⟩
    · rintro ⟨ts, htok, t, hyield, hdepth, hdiv, hvalue, hcalls⟩
      exact ⟨ts, htok, t, ⟨hyield, hdepth, hdiv, hvalue⟩, hcalls⟩
  case allowed =>
    rw [evaluate_eq_ok_iff]
    constructor
    · rintro ⟨ts, htok, t, ht, -⟩
      exact ⟨ts, htok, t, ht.yield_eq, ht.depth_le, ht.divisors, ht.value_eq⟩
    · rintro ⟨ts, htok, t, hyield, hdepth, hdiv, hvalue⟩
      -- a level takes four calls, and a stack has at least those of the deepest setting
      have hfits : t.calls ≤ stack.calls := by
        refine calls_le_of_depth stack ?_
        rw [Evaluator.deepestSetting]
        omega
      exact ⟨ts, htok, t, ⟨hyield, hdepth, hdiv, hvalue⟩, hfits⟩
  case refused => exact evaluate_of_tree htok ⟨hyield, hdepth, hdiv, hvalue⟩ stack

/-- A one in five hundred groups has a tree of five hundred and one levels, and the stack is exhausted
on the way to it: a limit of a thousand levels is not met, and yet it is refused. -/
theorem evaluate_of_five_hundred_groups :
    (∃ ts, Token.tokenize (nested 500) = .ok (ts ++ [Token.finish (nested 500)]) ∧
      ∃ t : Tree .sum, t.yield = ts.map .ofToken ∧ (t.depth : Int) ≤ 1000 ∧
        t.DivisorsNonzero ∧ t.value = 1.0) ∧
      Evaluator.evaluate .usual 1000 (nested 500) = .error .nestingTooDeep := by
  obtain ⟨ts, htok, t, ht⟩ := exists_tree_nested 500
  exact ⟨⟨ts, htok, t, ht.yield_eq, Int.le_trans ht.depth_le (by decide), ht.divisors, ht.value_eq⟩,
    evaluate_nested .usual (by decide) 1000⟩

/-- Two levels are enough for `-2*(8-2)/sqrt(9)`: its tree divides twelve below zero by three. -/
theorem evaluate_two_levels :
    (2 : Int) ≤ 200 ∧ Evaluator.evaluate .usual 2 "-2*(8-2)/sqrt(9)" = .ok (-4.0) := by
  let two : Tree .base := .negate (.number "2")
  let difference : Tree .sum :=
    .add (.ofProduct (.ofFactor (.ofBase (.number "8")))) .minus (.ofFactor (.ofBase (.number "2")))
  let three : Tree .base := .root (.ofProduct (.ofFactor (.ofBase (.number "9"))))
  let quotient : Tree .sum := .ofProduct (.multiply
    (.multiply (.ofFactor (.ofBase two)) .times (.ofBase (.group difference))) .divide
    (.ofBase three))
  obtain ⟨-, hallowed, -⟩ :=
    evaluate_eq_ok_iff_exists_tree .usual 2 "-2*(8-2)/sqrt(9)" (-4.0)
  refine ⟨by decide, (hallowed (by decide)).2 ?_⟩
  refine ⟨[⟨.minus, "-", 0⟩, ⟨.number, "2", 1⟩, ⟨.times, "*", 2⟩, ⟨.openGroup, "(", 3⟩,
    ⟨.number, "8", 4⟩, ⟨.minus, "-", 5⟩, ⟨.number, "2", 6⟩, ⟨.closeGroup, ")", 7⟩,
    ⟨.divide, "/", 8⟩, ⟨.openRoot, "sqrt(", 9⟩, ⟨.number, "9", 14⟩, ⟨.closeGroup, ")", 15⟩],
    by decide +kernel, quotient, by decide, by decide, ?_, by decide +kernel⟩
  exact ⟨⟨trivial, ⟨trivial, trivial⟩, trivial⟩, trivial, by decide +kernel⟩

end KeypadCalc.Grammar

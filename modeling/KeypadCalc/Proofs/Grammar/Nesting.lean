import KeypadCalc.Proofs.Grammar.Soundness
import KeypadCalc.Proofs.Token.Scan

/-!
# KeypadCalc — groups in groups

A number in any number of groups, one in the other, is what takes the most calls for its levels: each
group is entered by all four readers. Its tokens are those that its tree writes
(`exists_lexemes_nested`), and a stack with no more than four places for each of its groups is
exhausted before the number is reached (`sum_of_groups`).
-/

namespace KeypadCalc.Grammar

/-- A one in some number of groups. -/
def nested (groups : Nat) : String :=
  String.ofList (List.replicate groups '(' ++ '1' :: List.replicate groups ')')

/-- The base that it is: the number, or a group with one group less in it. -/
def Tree.nestedBase : Nat → Tree .base
  | 0 => .number "1"
  | groups + 1 => .group (.ofProduct (.ofFactor (.ofBase (nestedBase groups))))

/-- The tree that a one in some number of groups has. -/
def Tree.nested (groups : Nat) : Tree .sum :=
  .ofProduct (.ofFactor (.ofBase (nestedBase groups)))

/-! ## Its tree -/

/-- It writes all openings, the number, and all closings. -/
theorem Tree.yield_nestedBase (groups : Nat) : (nestedBase groups).yield =
    List.replicate groups (.mark .openGroup) ++
      .numeral "1" :: List.replicate groups (.mark .closeGroup) := by
  induction groups with
  | zero => rfl
  | succ n ih =>
    have hyield : (nestedBase (n + 1)).yield =
        .mark .openGroup :: ((nestedBase n).yield ++ [.mark .closeGroup]) := rfl
    rw [hyield, ih, List.append_assoc, List.cons_append, ← List.replicate_succ']
    rfl

/-- Each group adds a level to the one of the number. -/
theorem Tree.depth_nested (groups : Nat) : (nested groups).depth = groups + 1 := by
  induction groups with
  | zero => rfl
  | succ n ih => exact congrArg Nat.succ ih

theorem Tree.divisorsNonzero_nested (groups : Nat) : (nested groups).DivisorsNonzero := by
  induction groups with
  | zero => trivial
  | succ n ih => exact ih

theorem Tree.value_nested (groups : Nat) :
    (nested groups).value = Token.numeralValue "1".toList := by
  induction groups with
  | zero => rfl
  | succ n ih => exact ih

/-! ## Its tokens -/

/-- A mark of one character, written some number of times, is cut into as many tokens. -/
theorem exists_scan_replicate {c : Char} {k : Token.Kind} (hk : k ≠ .number)
    (hc : ∀ rest, Token.Piece.ofChars? (c :: rest) = some ⟨some k, [c], rest⟩) (n position : Nat)
    (cs : List Char) : ∃ front : List Token, front.map Terminal.ofToken = List.replicate n (.mark k) ∧
      Token.scan position (List.replicate n c ++ cs) =
        (Token.scan (position + n) cs).map (front ++ ·) := by
  induction n generalizing position with
  | zero =>
    refine ⟨[], rfl, ?_⟩
    show Token.scan position cs = _
    cases Token.scan position cs <;> rfl
  | succ n ih =>
    -- the first of the marks is a token, and the scan goes on one place further back
    obtain ⟨front, hfront, hscan⟩ := ih (position + 1)
    refine ⟨⟨k, String.ofList [c], position⟩ :: front, ?_, ?_⟩
    · rw [List.map_cons, hfront, Terminal.ofToken_of_kind rfl hk, List.replicate_succ]
    · rw [List.replicate_succ, List.cons_append,
        Token.scan_of_ofChars? position (hc (List.replicate n c ++ cs))]
      show (Token.scan (position + 1) (List.replicate n c ++ cs)).map _ = _
      rw [hscan, Nat.add_assoc, Nat.add_comm 1 n]
      cases Token.scan (position + (n + 1)) cs <;> rfl

/-- A number in groups is cut into the tokens that its tree writes. -/
theorem exists_lexemes_nested (groups : Nat) :
    ∃ ts, Token.lexemes (nested groups) = .ok ts ∧
      ts.map Terminal.ofToken = (Tree.nested groups).yield := by
  obtain ⟨front, hfront, hopen⟩ := exists_scan_replicate (c := '(') (k := .openGroup)
    (by decide) (fun rest => rfl) groups 0 ('1' :: List.replicate groups ')')
  obtain ⟨behind, hbehind, hclose⟩ := exists_scan_replicate (c := ')') (k := .closeGroup)
    (by decide) (fun rest => rfl) groups (0 + groups + 1) []
  have hnumber : Token.Piece.ofChars? ('1' :: List.replicate groups ')') =
      some ⟨some .number, ['1'], List.replicate groups ')'⟩ := by
    cases groups <;> rfl
  -- behind the openings stands the number, and behind it nothing but closings
  have hend : Token.scan (0 + groups) ('1' :: List.replicate groups ')') =
      .ok (⟨.number, "1", 0 + groups⟩ :: behind) := by
    rw [Token.scan_of_ofChars? _ hnumber]
    show (Token.scan (0 + groups + 1) (List.replicate groups ')')).map _ = _
    rw [List.append_nil] at hclose
    rw [hclose, Token.scan]
    simp [Except.map, Token.Piece.tokens]
  refine ⟨front ++ ⟨.number, "1", 0 + groups⟩ :: behind, ?_, ?_⟩
  · rw [Token.lexemes, nested, String.toList_ofList, hopen, hend]
    rfl
  · rw [List.map_append, hfront, List.map_cons, hbehind]
    exact (Tree.yield_nestedBase groups).symm

/-! ## Its calls -/

/-- Groups that are opened one in the other exhaust a stack with four places for each. Induction on
the groups; all four readers have been called when the next one is opened. -/
theorem sum_of_groups {front : List Token} (hfront : ∀ t ∈ front, t.kind = .openGroup)
    {places : Nat} (hplaces : places ≤ 4 * front.length) (room : Nat) (rest : List Token) :
    Evaluator.sum places room (front ++ rest) = .error .nestingTooDeep := by
  induction front generalizing places room with
  | nil =>
    obtain rfl := Nat.le_zero.1 hplaces
    rw [Evaluator.sum]
  | cons t front ih =>
    have hkind : t.kind = .openGroup := hfront t List.mem_cons_self
    rw [List.length_cons] at hplaces
    cases room with
    | zero => cases places <;> rw [Evaluator.sum]
    | succ room =>
      -- with fewer than four places one of the readers is not called at all
      obtain _ | _ | _ | _ | places := places
      · rw [Evaluator.sum]
      · rw [Evaluator.sum, Evaluator.product]
        rfl
      · rw [Evaluator.sum, Evaluator.product, Evaluator.factor]
        rfl
      · rw [Evaluator.sum, Evaluator.product, Evaluator.factor, Evaluator.base]
        rfl
      · have hinside : Evaluator.sum places room (front ++ rest) = .error .nestingTooDeep :=
          ih (fun t ht => hfront t (List.mem_cons_of_mem _ ht)) (by omega) room
        rw [Evaluator.sum, Evaluator.product, Evaluator.factor, List.cons_append,
          Evaluator.base.eq_def]
        simp only [hkind, hinside]
        rfl

end KeypadCalc.Grammar

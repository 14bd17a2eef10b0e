import KeypadCalc.Proofs.Grammar.Evaluation
import KeypadCalc.Proofs.Token.Scan

/-!
# KeypadCalc — groups that are open

Going through an expression from left to right, groups are opened and closed; `openGroups` counts
those that are open, and fails at a closing parenthesis where none is. A tree of the grammar leaves
as many groups open as it finds (`Tree.openGroups_yield`), so where as many are open as at the
beginning, no tree goes on with a closing parenthesis (`not_wantsClose`); and where one does, the
expression is refused (`evaluate_ne_ok_of_wantsClose`). The count can be taken of the characters
just as well (`openGroups_of_scan`).
-/

namespace KeypadCalc.Grammar

/-- How many groups are open behind a terminal in front of which some are. -/
def Terminal.groupsBehind (count : Nat) : Terminal → Option Nat
  | .mark .openGroup | .mark .openRoot => some (count + 1)
  | .mark .closeGroup => if count = 0 then none else some (count - 1)
  | _ => some count

/-- How many groups are open behind terminals; there is no telling behind a parenthesis that closes
none. -/
def openGroups (count : Nat) (ts : List Terminal) : Option Nat :=
  ts.foldlM Terminal.groupsBehind count

/-- An expression that a tree goes on from with a closing parenthesis: all that is wrong with it up
to its end is a group that is still open. -/
def WantsClose (w : String) : Prop :=
  ∃ ts, Token.lexemes w = .ok ts ∧
    ∃ (t : Tree .sum) (behind : List Terminal),
      t.yield = ts.map .ofToken ++ .mark .closeGroup :: behind

/-! ## Trees -/

/-- Groups are counted on from one list to the next. -/
theorem openGroups_append (n : Nat) (ts us : List Terminal) :
    openGroups n (ts ++ us) = (openGroups n ts).bind fun m => openGroups m us := by
  exact List.foldlM_append

theorem openGroups_cons {n m : Nat} {t : Terminal} (h : t.groupsBehind n = some m)
    (ts : List Terminal) : openGroups n (t :: ts) = openGroups m ts := by
  rw [openGroups, List.foldlM_cons, h]
  rfl

/-- An operator between two parts opens and closes nothing. -/
theorem openGroups_between {ts us : List Terminal} {k : Token.Kind} {n : Nat}
    (hk : Terminal.groupsBehind n (.mark k) = some n) (hts : openGroups n ts = some n)
    (hus : openGroups n us = some n) : openGroups n (ts ++ .mark k :: us) = some n := by
  rw [openGroups_append, hts, Option.bind_some, openGroups_cons hk]
  exact hus

/-- A group in which all that is opened is closed leaves the count as it was. -/
theorem openGroups_group {ts : List Terminal} {k : Token.Kind} {n : Nat}
    (hk : Terminal.groupsBehind n (.mark k) = some (n + 1))
    (hts : openGroups (n + 1) ts = some (n + 1)) :
    openGroups n (.mark k :: (ts ++ [.mark .closeGroup])) = some n := by
  rw [openGroups_cons hk, openGroups_append, hts, Option.bind_some]
  rfl

/-- A tree leaves as many groups open as it finds. -/
theorem Tree.openGroups_yield {r : Rank} (t : Tree r) (n : Nat) :
    openGroups n t.yield = some n := by
  induction t generalizing n with
  | ofProduct p ih => exact ih n
  | add s op p ihs ihp => exact openGroups_between (by cases op <;> rfl) (ihs n) (ihp n)
  | ofFactor f ih => exact ih n
  | multiply p op f ihp ihf => exact openGroups_between (by cases op <;> rfl) (ihp n) (ihf n)
  | ofBase b ih => exact ih n
  | power b e ihb ihe => exact openGroups_between rfl (ihb n) (ihe n)
  | number text => rfl
  | group s ih => exact openGroups_group rfl (ih (n + 1))
  | root s ih => exact openGroups_group rfl (ih (n + 1))
  | negate b ih =>
    rw [Tree.yield, openGroups_cons rfl]
    exact ih n

/-! ## Characters -/

/-- How many groups are open behind a character in front of which some are. -/
def groupsBehind (count : Nat) (c : Char) : Option Nat :=
  if c = '(' then some (count + 1)
  else if c = ')' then (if count = 0 then none else some (count - 1))
  else some count

/-- The same count by characters. -/
def openParens (count : Nat) (cs : List Char) : Option Nat :=
  cs.foldlM groupsBehind count

/-- Parentheses are counted on from one text to the next. -/
theorem openParens_append (n : Nat) (cs ds : List Char) :
    openParens n (cs ++ ds) = (openParens n cs).bind fun m => openParens m ds := by
  exact List.foldlM_append

/-- A text without parentheses leaves the count as it is. -/
theorem openParens_eq_some {cs : List Char} (h : ∀ c ∈ cs, c ≠ '(' ∧ c ≠ ')') (n : Nat) :
    openParens n cs = some n := by
  induction cs with
  | nil => rfl
  | cons c cs ih =>
    have hc : groupsBehind n c = some n := by
      obtain ⟨ho, hc⟩ := h c List.mem_cons_self
      rw [groupsBehind, if_neg ho, if_neg hc]
    rw [openParens, List.foldlM_cons, hc]
    exact ih fun c' hc' => h c' (List.mem_cons_of_mem c hc')

/-- A token told by its spelling opens and closes what its characters do. -/
theorem openParens_spelling (k : Token.Kind) (hk : k ≠ .number) (n : Nat) :
    openParens n k.spelling = Terminal.groupsBehind n (.mark k) := by
  cases k with
  | number => exact absurd rfl hk
  | closeGroup =>
    show (groupsBehind n ')').bind (openParens · []) = _
    cases n <;> rfl
  | plus | minus | times | divide | power | openGroup | openRoot | finish => rfl

/-- The first piece of a text opens and closes what its characters do. -/
theorem openGroups_tokens {cs : List Char} {p : Token.Piece} (h : Token.Piece.ofChars? cs = some p)
    (position n : Nat) :
    openGroups n ((p.tokens position).map .ofToken) = openParens n p.text := by
  -- only the spellings hold parentheses
  have hplain : ∀ c, Text.isDigit c = true ∨ c = '.' ∨ Text.isBlank c = true →
      c ≠ '(' ∧ c ≠ ')' := by
    intro c hc
    constructor
    · rintro rfl
      exact absurd hc (by decide)
    · rintro rfl
      exact absurd hc (by decide)
  cases Token.Piece.shape h with
  | numeral hkind htext =>
    have hneutral : openParens n p.text = some n :=
      openParens_eq_some (fun c hc => hplain c ((htext c hc).imp_right .inl)) n
    rw [hneutral, Token.Piece.tokens, hkind]
    rfl
  | spelled k hkind htext hstar =>
    rw [htext, Token.Piece.tokens, hkind]
    by_cases hk : k = .number
    · subst hk
      rfl
    · rw [openParens_spelling k hk]
      have hmark : Terminal.ofToken ⟨k, String.ofList p.text, position⟩ = .mark k :=
        Terminal.ofToken_of_kind rfl hk
      show openGroups n [_] = _
      rw [hmark]
      cases hgroups : Terminal.groupsBehind n (.mark k) <;> simp [openGroups, hgroups]
  | blanks hkind htext =>
    have hneutral : openParens n p.text = some n :=
      openParens_eq_some (fun c hc => hplain c (.inr (.inr (htext c hc)))) n
    rw [hneutral, Token.Piece.tokens, hkind]
    rfl

/-- **The groups that tokens leave open are those that the characters do.** -/
theorem openGroups_of_scan {position : Nat} {cs : List Char} {ts : List Token}
    (h : Token.scan position cs = .ok ts) (n : Nat) :
    openGroups n (ts.map .ofToken) = openParens n cs := by
  refine Token.scan_ok_induction
    (P := fun _ cs ts => ∀ n, openGroups n (ts.map .ofToken) = openParens n cs) ?_ ?_ h n
  · intro _ _
    rfl
  · intro position cs p ts hp ih n
    rw [List.map_append, openGroups_append, openGroups_tokens hp,
      ← Token.Piece.append_of_ofChars? hp, openParens_append]
    simp only [ih]

/-- An expression that leaves no group open does not lack a closing parenthesis. -/
theorem not_wantsClose {w : String} (h : openParens 0 w.toList = some 0) : ¬ WantsClose w := by
  rintro ⟨ts, hts, t, behind, hyield⟩
  have hbalanced := t.openGroups_yield 0
  rw [hyield, openGroups_append, openGroups_of_scan hts, h, Option.bind_some] at hbalanced
  cases hbalanced

/-- An expression that lacks a closing parenthesis is refused. -/
theorem evaluate_ne_ok_of_wantsClose {stack : Evaluator.Stack} {w : String} (h : WantsClose w)
    (maxDepth : Int) (v : Float) :
    Evaluator.evaluate stack maxDepth w ≠ .ok v := by
  obtain ⟨ts, hts, t, behind, hyield⟩ := h
  intro hvalue
  rw [Evaluator.evaluate, hts] at hvalue
  -- a tree of all the tokens would leave nothing open for the parenthesis to close
  obtain ⟨all, hall, -⟩ := whole_eq_ok_iff.1 hvalue
  have hbalanced := t.openGroups_yield 0
  rw [hyield, ← hall, openGroups_append, all.openGroups_yield, Option.bind_some] at hbalanced
  cases hbalanced

end KeypadCalc.Grammar

import KeypadCalc.Proofs.Token.Scan

/-!
# KeypadCalc — the operators that a text is read as

The operators of a text do not depend on its numerals and blanks: `operatorsOf` reads them off the
characters, two stars in a row as one power sign, and skips everything else. Where a text is cut
into tokens at all, the operators among these are the ones read off (`operators_of_scan`).
-/

namespace KeypadCalc.Token

open Text (isBlank isDigit)

/-- The kinds that neither hold a numeral nor close a group nor end an expression. -/
def Kind.isOperator (k : Kind) : Bool :=
  k ≠ .number && k ≠ .closeGroup && k ≠ .finish

/-- The operators among tokens, in order. -/
def operators (ts : List Token) : List Kind :=
  (ts.map Token.kind).filter Kind.isOperator

/-- The operators that a text is read as, in order. -/
def operatorsOf : List Char → List Kind
  | 's' :: 'q' :: 'r' :: 't' :: '(' :: rest => .openRoot :: operatorsOf rest
  | '*' :: '*' :: rest => .power :: operatorsOf rest
  | '+' :: rest => .plus :: operatorsOf rest
  | '-' :: rest => .minus :: operatorsOf rest
  | '*' :: rest => .times :: operatorsOf rest
  | '/' :: rest => .divide :: operatorsOf rest
  | '(' :: rest => .openGroup :: operatorsOf rest
  | _ :: rest => operatorsOf rest
  | [] => []

/-- The characters with which an operator may start. -/
def operatorStarts : List Char :=
  "s*+-/(".toList

theorem operatorsOf_cons {c : Char} (h : c ∉ operatorStarts) (rest : List Char) :
    operatorsOf (c :: rest) = operatorsOf rest := by
  have hne : ∀ c' ∈ operatorStarts, c ≠ c' := fun c' hc' heq => h (heq ▸ hc')
  rw [operatorsOf]
  · exact fun _ heq => absurd heq (hne 's' (by decide))
  · exact fun _ heq => absurd heq (hne '*' (by decide))
  · exact hne '+' (by decide)
  · exact hne '-' (by decide)
  · exact hne '*' (by decide)
  · exact hne '/' (by decide)
  · exact hne '(' (by decide)

theorem operatorsOf_append {text : List Char} (h : ∀ c ∈ text, c ∉ operatorStarts)
    (rest : List Char) : operatorsOf (text ++ rest) = operatorsOf rest := by
  induction text with
  | nil => rfl
  | cons c text ih =>
    rw [List.cons_append, operatorsOf_cons (h c List.mem_cons_self)]
    exact ih fun c' hc' => h c' (List.mem_cons_of_mem c hc')

theorem not_mem_operatorStarts_of_isDigit {c : Char} (h : isDigit c = true) :
    c ∉ operatorStarts := by
  have hnone : (operatorStarts.all fun c => !isDigit c) = true := by decide
  intro hc
  have hplain := List.all_eq_true.1 hnone c hc
  rw [h] at hplain
  cases hplain

theorem not_mem_operatorStarts_of_isBlank {c : Char} (h : isBlank c = true) :
    c ∉ operatorStarts := by
  have hnone : (operatorStarts.all fun c => !isBlank c) = true := by decide
  intro hc
  have hplain := List.all_eq_true.1 hnone c hc
  rw [h] at hplain
  cases hplain

/-- A single star is read as an operator of its own. -/
theorem operatorsOf_star {rest : List Char} (h : ∀ tail, rest ≠ '*' :: tail) :
    operatorsOf ('*' :: rest) = .times :: operatorsOf rest := by
  rw [operatorsOf]
  exact fun tail => h tail

/-- A token that is told by its spelling is read off the text. -/
theorem operatorsOf_spelling (k : Kind) {rest : List Char}
    (hstar : k = .times → ∀ tail, rest ≠ '*' :: tail) :
    operatorsOf (k.spelling ++ rest) =
      (if k.isOperator then [k] else []) ++ operatorsOf rest := by
  cases k with
  | times => exact operatorsOf_star (hstar rfl)
  | closeGroup => exact operatorsOf_cons (by decide) rest
  | number | finish | plus | minus | divide | power | openGroup | openRoot => rfl

theorem operators_append (ts us : List Token) :
    operators (ts ++ us) = operators ts ++ operators us := by
  rw [operators, List.map_append, List.filter_append]
  rfl

/-- The first piece of a text holds the operators that the text has before the others. -/
theorem operatorsOf_piece {cs : List Char} {p : Piece} (h : Piece.ofChars? cs = some p)
    (position : Nat) : operatorsOf cs = operators (p.tokens position) ++ operatorsOf p.rest := by
  rw [← Piece.append_of_ofChars? h]
  -- digits and blanks hold no operator, and a spelling holds the one that it is
  cases Piece.shape h with
  | numeral hkind htext =>
    have hplain : ∀ c ∈ p.text, c ∉ operatorStarts := by
      intro c hc
      rcases htext c hc with hd | rfl
      · exact not_mem_operatorStarts_of_isDigit hd
      · decide
    rw [operatorsOf_append hplain, Piece.tokens, hkind]
    rfl
  | spelled k hkind htext hstar =>
    rw [htext, operatorsOf_spelling k hstar, Piece.tokens, hkind]
    cases k <;> rfl
  | blanks hkind htext =>
    have hplain : ∀ c ∈ p.text, c ∉ operatorStarts := fun c hc =>
      not_mem_operatorStarts_of_isBlank (htext c hc)
    rw [operatorsOf_append hplain, Piece.tokens, hkind]
    rfl

/-- **The operators of a text that is cut into tokens are those read off it.** -/
theorem operators_of_scan {position : Nat} {cs : List Char} {ts : List Token}
    (h : scan position cs = .ok ts) : operators ts = operatorsOf cs := by
  refine scan_ok_induction (P := fun _ cs ts => operators ts = operatorsOf cs) ?_ ?_ h
  · intro _
    rfl
  · intro position cs p ts hp ih
    rw [operators_append, ih, operatorsOf_piece hp position]

end KeypadCalc.Token

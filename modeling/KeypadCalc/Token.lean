import KeypadCalc.Binary64.Rounding
import KeypadCalc.Text.Blank
import KeypadCalc.Text.Digit

/-!
# KeypadCalc — tokens of an expression

An expression is cut from left to right into numerals, operators, parentheses and the opening of a
root; blanks between them are dropped. At each place the longest piece is taken: `**` is one power
sign, and a numeral goes on as long as digits or its first point do. The first character at which no
piece starts is the fault of the whole text, whatever stands before it.

* `Piece.ofChars?` takes the first piece of a text; `Piece.append_of_ofChars?` says that its text
  and what is left of it make up the whole, and `Piece.text_ne_nil` that it is never empty.
* `scan` repeats this to the end of the text.
-/

namespace KeypadCalc

/-- The kinds of tokens, among them the mark of the end. -/
inductive Token.Kind where
  | number
  | plus
  | minus
  | times
  | divide
  | power
  | openGroup
  | openRoot
  | closeGroup
  | finish
  deriving DecidableEq, Repr

/-- A piece of an expression with the place of its first character, counted in characters. -/
structure Token where
  kind : Token.Kind
  text : String
  position : Nat
  deriving DecidableEq, Repr

namespace Token

open Text (isBlank isDigit)

/-- The first piece of a text: a token of some kind, or a run of blanks, which has none. -/
structure Piece where
  kind : Option Kind
  text : List Char
  rest : List Char
  deriving DecidableEq, Repr

/-- The numeral at the front of a text: digits with at most one point among or behind them, or a
point with digits behind it. -/
def numeral? (cs : List Char) : Option Piece :=
  match cs.takeWhile isDigit, cs.dropWhile isDigit with
  | [], '.' :: rest =>
    match rest.takeWhile isDigit with
    | [] => none
    | d :: ds => some ⟨some .number, '.' :: d :: ds, rest.dropWhile isDigit⟩
  | [], _ => none
  | d :: ds, '.' :: rest =>
    some ⟨some .number, d :: ds ++ '.' :: rest.takeWhile isDigit, rest.dropWhile isDigit⟩
  | d :: ds, rest => some ⟨some .number, d :: ds, rest⟩

/-- The sign, parenthesis or root at the front of a text. -/
def symbol? : List Char → Option Piece
  | 's' :: 'q' :: 'r' :: 't' :: '(' :: rest => some ⟨some .openRoot, "sqrt(".toList, rest⟩
  | '*' :: '*' :: rest => some ⟨some .power, ['*', '*'], rest⟩
  | '+' :: rest => some ⟨some .plus, ['+'], rest⟩
  | '-' :: rest => some ⟨some .minus, ['-'], rest⟩
  | '*' :: rest => some ⟨some .times, ['*'], rest⟩
  | '/' :: rest => some ⟨some .divide, ['/'], rest⟩
  | '(' :: rest => some ⟨some .openGroup, ['('], rest⟩
  | ')' :: rest => some ⟨some .closeGroup, [')'], rest⟩
  | _ => none

/-- A run of blanks, which is no token. -/
def blanks? (cs : List Char) : Option Piece :=
  match cs.takeWhile isBlank with
  | [] => none
  | c :: run => some ⟨none, c :: run, cs.dropWhile isBlank⟩

/-- The first piece of a text, if it starts with one. -/
def Piece.ofChars? (cs : List Char) : Option Piece :=
  (numeral? cs).orElse fun _ => (symbol? cs).orElse fun _ => blanks? cs

theorem numeral?_append {cs : List Char} {p : Piece} (h : numeral? cs = some p) :
    p.text ++ p.rest = cs ∧ p.text ≠ [] := by
  have hsplit : cs.takeWhile isDigit ++ cs.dropWhile isDigit = cs := List.takeWhile_append_dropWhile
  unfold numeral? at h
  -- digits with a point, where some stand behind it or in front; or digits alone
  split at h
  · next rest hd hr =>
    have hrest : rest.takeWhile isDigit ++ rest.dropWhile isDigit = rest :=
      List.takeWhile_append_dropWhile
    rw [hd, hr] at hsplit
    split at h
    · simp at h
    · next d ds hds =>
      cases h
      rw [hds] at hrest
      simp_all
  · simp at h
  · next d ds rest hd hr =>
    have hrest : rest.takeWhile isDigit ++ rest.dropWhile isDigit = rest :=
      List.takeWhile_append_dropWhile
    rw [hd, hr] at hsplit
    cases h
    simp_all
  · next hd _ =>
    cases h
    rw [hd] at hsplit
    exact ⟨hsplit, by simp⟩

theorem symbol?_append {cs : List Char} {p : Piece} (h : symbol? cs = some p) :
    p.text ++ p.rest = cs ∧ p.text ≠ [] := by
  unfold symbol? at h
  split at h <;> simp_all <;> cases h <;> simp_all

theorem blanks?_append {cs : List Char} {p : Piece} (h : blanks? cs = some p) :
    p.text ++ p.rest = cs ∧ p.text ≠ [] := by
  have hsplit : cs.takeWhile isBlank ++ cs.dropWhile isBlank = cs := List.takeWhile_append_dropWhile
  unfold blanks? at h
  split at h
  · simp at h
  · next c run hrun =>
    cases h
    rw [hrun] at hsplit
    exact ⟨hsplit, by simp⟩

theorem Piece.ofChars?_append {cs : List Char} {p : Piece} (h : Piece.ofChars? cs = some p) :
    p.text ++ p.rest = cs ∧ p.text ≠ [] := by
  unfold Piece.ofChars? at h
  cases hn : numeral? cs with
  | some q => rw [hn] at h; cases h; exact numeral?_append hn
  | none =>
    cases hs : symbol? cs with
    | some q => rw [hn, hs] at h; cases h; exact symbol?_append hs
    | none => rw [hn, hs] at h; exact blanks?_append h

/-- The text and the rest of a piece make up the text it was taken from. -/
theorem Piece.append_of_ofChars? {cs : List Char} {p : Piece} (h : Piece.ofChars? cs = some p) :
    p.text ++ p.rest = cs :=
  (Piece.ofChars?_append h).1

/-- A piece has a character, so scanning comes to an end. -/
theorem Piece.text_ne_nil {cs : List Char} {p : Piece} (h : Piece.ofChars? cs = some p) :
    p.text ≠ [] :=
  (Piece.ofChars?_append h).2

/-- What is left of a text after its first piece is shorter than the text. -/
theorem Piece.length_rest_lt {cs : List Char} {p : Piece} (h : Piece.ofChars? cs = some p) :
    p.rest.length < cs.length := by
  have hlen := congrArg List.length (Piece.append_of_ofChars? h)
  have hpos := List.length_pos_iff.2 (Piece.text_ne_nil h)
  simp only [List.length_append] at hlen
  omega

/-- A piece as tokens: none for blanks. -/
def Piece.tokens (p : Piece) (position : Nat) : List Token :=
  match p.kind with
  | none => []
  | some kind => [⟨kind, String.ofList p.text, position⟩]

/-- A character that starts no piece, with its place. -/
structure Stray where
  char : Char
  position : Nat
  deriving DecidableEq, Repr

-- `h` bounds the rest in `decreasing_by`, which the linter does not see.
set_option linter.unusedVariables false in
/-- The tokens of a text whose first character has the given place, or the first character at which
no piece starts. -/
def scan (position : Nat) (cs : List Char) : Except Stray (List Token) :=
  match cs with
  | [] => .ok []
  | c :: tail =>
    match h : Piece.ofChars? (c :: tail) with
    | none => .error ⟨c, position⟩
    | some p => (scan (position + p.text.length) p.rest).map (p.tokens position ++ ·)
termination_by cs.length
decreasing_by exact Piece.length_rest_lt h

/-- The value of a numeral: that of its digits, scaled by the number of digits behind the point and
rounded to the nearest double. -/
def numeralValue (cs : List Char) : Float :=
  let whole := cs.takeWhile (· != '.')
  let part := (cs.dropWhile (· != '.')).drop 1
  Binary64.ofDecimal false (Text.numberOfDigits (whole ++ part)) (-(part.length : Int))

/-- The number that the text of a token writes. -/
def value (t : Token) : Float :=
  numeralValue t.text.toList

/-- The tokens of an expression without the mark of the end. -/
def lexemes (expression : String) : Except Stray (List Token) :=
  scan 0 expression.toList

/-- The mark of the end, which stands behind the last character. -/
def finish (expression : String) : Token :=
  ⟨.finish, "", expression.length⟩

/-- The tokens of an expression, closed by the mark of its end. -/
def tokenize (expression : String) : Except Stray (List Token) :=
  (lexemes expression).map (· ++ [finish expression])

end Token

end KeypadCalc

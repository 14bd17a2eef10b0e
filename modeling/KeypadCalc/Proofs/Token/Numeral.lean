import KeypadCalc.Proofs.Decimal.Numeral
import KeypadCalc.Proofs.Token.Scan

/-!
# KeypadCalc — the tokens of a decimal

A decimal in writing is cut into a minus sign, where it has one, and one numeral; the mark of a
power of ten belongs to no token, so it is the fault of a text that has one (`lexemes_text`). The
numeral has the digits of the decimal (`numeralValue_unsigned`).
-/

namespace KeypadCalc.Token

open Decimal (Numeral)
open Decimal.Numeral (ends_pointed ends_powerText pointed powerText)
open Text (dropWhile_of_ends takeWhile_of_ends)

variable {n : Numeral}

/-- The digits of a decimal with its point are the first numeral of a text. -/
theorem numeral?_unsigned (h : n.WellFormed) (e : Option Int) :
    numeral? (n.whole ++ (pointed n.part ++ powerText e)) =
      some ⟨some .number, n.whole ++ pointed n.part, powerText e⟩ := by
  have hends := ends_pointed (p := Text.isDigit) (by decide) (by decide) n.part e
  have hwhole : ∀ c ∈ n.whole, Text.isDigit c = true := fun c hc =>
    Text.isDigit_of_ascii (h.isDigit_whole c hc)
  unfold numeral?
  rw [takeWhile_of_ends hwhole hends, dropWhile_of_ends hwhole hends]
  obtain ⟨d, ds, hfirst⟩ := List.exists_cons_of_ne_nil h.whole_ne_nil
  rw [hfirst]
  -- without a part there is no point, and the power ends the digits
  cases hpart : n.part with
  | nil =>
    rw [pointed, List.append_nil]
    cases e <;> rfl
  | cons p ps =>
    have hends := ends_powerText (p := Text.isDigit) (by decide) e
    have hdigits : ∀ c ∈ p :: ps, Text.isDigit c = true := fun c hc =>
      Text.isDigit_of_ascii (h.isDigit_part c (hpart ▸ hc))
    show some (Piece.mk (some .number)
      (d :: ds ++ '.' :: ((p :: ps) ++ powerText e).takeWhile Text.isDigit)
      (((p :: ps) ++ powerText e).dropWhile Text.isDigit)) = _
    rw [takeWhile_of_ends hdigits hends, dropWhile_of_ends hdigits hends]
    rfl

theorem ofChars?_unsigned (h : n.WellFormed) (e : Option Int) :
    Piece.ofChars? (n.whole ++ (pointed n.part ++ powerText e)) =
      some ⟨some .number, n.whole ++ pointed n.part, powerText e⟩ := by
  rw [Piece.ofChars?, numeral?_unsigned h]
  rfl

/-- The mark of a power of ten starts no piece. -/
theorem scan_powerText (position : Nat) (e : Int) :
    scan position (powerText (some e)) = .error ⟨'e', position⟩ := by
  have hnone : Piece.ofChars? ('e' :: (powerText (some e)).tail) = none := rfl
  exact scan_of_ofChars?_eq_none position hnone

/-- A decimal up to the power of ten. -/
def front (n : Numeral) : List Char :=
  (if n.negative then ['-'] else []) ++ (n.whole ++ pointed n.part)

/-- The tokens of a decimal up to the power of ten. -/
def frontTokens (n : Numeral) : List Token :=
  (if n.negative then [⟨.minus, "-", 0⟩] else []) ++
    [⟨.number, String.ofList (n.whole ++ pointed n.part), if n.negative then 1 else 0⟩]

theorem text_eq_front (n : Numeral) : n.text = front n ++ powerText n.exponent := by
  rw [Numeral.text, front, List.append_assoc, List.append_assoc]

/-- The scanner takes the digits of a numeral as its first token and goes on with the power. -/
theorem scan_front (h : n.WellFormed) (e : Option Int) :
    scan 0 (front n ++ powerText e) =
      (scan (front n).length (powerText e)).map (frontTokens n ++ ·) := by
  have hnumeral : ∀ position, scan position (n.whole ++ (pointed n.part ++ powerText e)) = _ :=
    fun position => scan_of_ofChars? position (ofChars?_unsigned h e)
  rw [front, frontTokens, List.append_assoc, List.append_assoc]
  cases n.negative with
  | false =>
    rw [if_neg (by decide), List.nil_append, hnumeral]
    simp [Piece.tokens]
  | true =>
    have hminus : Piece.ofChars? ('-' :: (n.whole ++ (pointed n.part ++ powerText e))) =
        some ⟨some .minus, ['-'], n.whole ++ (pointed n.part ++ powerText e)⟩ := rfl
    rw [if_pos rfl, List.singleton_append, scan_of_ofChars? 0 hminus, hnumeral]
    -- the place behind the sign and the digits, counted in one go
    have hlen : 0 + 1 + (n.whole ++ pointed n.part).length =
        (['-'] ++ (n.whole ++ pointed n.part)).length := by
      rw [Nat.zero_add, List.singleton_append, List.length_cons, Nat.add_comm]
    show ((scan (0 + 1 + (n.whole ++ pointed n.part).length) (powerText e)).map _).map _ = _
    rw [hlen]
    generalize scan (['-'] ++ (n.whole ++ pointed n.part)).length (powerText e) = outcome
    cases outcome <;> rfl

theorem not_mem_front (h : n.WellFormed) : 'e' ∉ front n := by
  have hdigit : ∀ ds : List Char, (∀ c ∈ ds, c.isDigit = true) → 'e' ∉ ds := fun ds hds hmem =>
    absurd (hds 'e' hmem) (by decide)
  have hpart : 'e' ∉ pointed n.part := by
    have hdigits := hdigit n.part h.isDigit_part
    cases hp : n.part with
    | nil => exact List.not_mem_nil
    | cons d ds =>
      rw [hp] at hdigits
      rw [pointed, List.mem_cons]
      exact not_or.2 ⟨by decide, hdigits⟩
  have hsign : 'e' ∉ (if n.negative then ['-'] else []) := by
    cases n.negative <;> decide
  -- no mark in the sign, none among the digits, and none behind the point
  rw [front, List.mem_append, List.mem_append]
  rintro (hmem | hmem | hmem)
  · exact hsign hmem
  · exact hdigit n.whole h.isDigit_whole hmem
  · exact hpart hmem

/-- The mark of a power of ten stands in a decimal that has one. -/
theorem mem_text_iff (h : n.WellFormed) : 'e' ∈ n.text ↔ n.exponent ≠ none := by
  rw [text_eq_front, List.mem_append, or_iff_right (not_mem_front h)]
  cases n.exponent with
  | none => simp [powerText]
  | some e => simp [powerText, Decimal.exponentText]

/-- **A decimal is one numeral**, with a minus sign in front of it where it has one; with a power of
ten it is refused at the mark of that. -/
theorem lexemes_text (h : n.WellFormed) :
    lexemes (String.ofList n.text) = match n.exponent with
      | none => .ok (frontTokens n)
      | some _ => .error ⟨'e', n.text.idxOf 'e'⟩ := by
  rw [lexemes, String.toList_ofList, text_eq_front, scan_front h]
  cases n.exponent with
  | none =>
    rw [powerText, scan]
    exact congrArg Except.ok (List.append_nil _)
  | some e =>
    rw [scan_powerText]
    -- the scan stops at the mark of the power, which is the first of its kind
    have hplace : (front n ++ powerText (some e)).idxOf 'e' = (front n).length := by
      rw [List.idxOf_append_of_notMem (not_mem_front h)]
      rfl
    simp only [hplace]
    rfl

/-! ## Its value -/

theorem takeWhile_of_not_mem_point {ds : List Char} (h : '.' ∉ ds) (part : List Char) :
    (ds ++ '.' :: part).takeWhile (· != '.') = ds ∧
      (ds ++ '.' :: part).dropWhile (· != '.') = '.' :: part :=
  ⟨takeWhile_of_ends (Text.bne_of_not_mem h) (Text.ends_bne_cons '.' part),
    dropWhile_of_ends (Text.bne_of_not_mem h) (Text.ends_bne_cons '.' part)⟩

theorem numeralValue_pointed {whole : List Char} (h : '.' ∉ whole) (part : List Char) :
    numeralValue (whole ++ '.' :: part) =
      Binary64.ofDecimal false (Text.numberOfDigits (whole ++ part)) (-(part.length : Int)) := by
  obtain ⟨htake, hdrop⟩ := takeWhile_of_not_mem_point h part
  rw [numeralValue, htake, hdrop]
  rfl

theorem numeralValue_of_not_mem_point {ds : List Char} (h : '.' ∉ ds) :
    numeralValue ds = Binary64.ofDecimal false (Text.numberOfDigits ds) 0 := by
  have hdigits : ∀ c ∈ ds, (c != '.') = true := by
    intro c hc
    rw [bne_iff_ne]
    rintro rfl
    exact h hc
  rw [numeralValue, List.takeWhile_eq_self_iff.2 hdigits, List.dropWhile_eq_nil_iff.2 hdigits]
  simp

/-- The numeral of a decimal has its digits. -/
theorem numeralValue_unsigned (h : n.WellFormed) :
    numeralValue (n.whole ++ pointed n.part) =
      Binary64.ofDecimal false (Text.numberOfDigits (n.whole ++ n.part)) (-(n.part.length : Int)) := by
  have hwhole : '.' ∉ n.whole := fun hmem => absurd (h.isDigit_whole '.' hmem) (by decide)
  cases n.part with
  | nil =>
    rw [pointed, List.append_nil]
    exact numeralValue_of_not_mem_point hwhole
  | cons d ds => exact numeralValue_pointed hwhole (d :: ds)

end KeypadCalc.Token

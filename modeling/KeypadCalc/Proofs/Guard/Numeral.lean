import KeypadCalc.Proofs.Calculator
import KeypadCalc.Proofs.Guard.Primitive
import KeypadCalc.Proofs.Token.Lexeme
import KeypadCalc.Proofs.Token.Numeral

/-!
# KeypadCalc — numerals that can be read

Numbers are read from text with the digits of any script taken for those of base ten (`readNumeral`);
a text that is no number is a trap. Whatever is cut from an expression as a numeral is digits, with
at most one point among them, and every such text is read as the value that the token has
(`readNumeral_of_written`). So the tokens of an expression can all be read (`proper_of_lexemes`).
-/

namespace KeypadCalc.Guard

open Text (digitRun digitValue digitValue? isDigit numberOfDigits)
open Token (Piece Written not_mem_point_of_isDigit numeralValue)

/-- A decimal digit of any script as a digit of base ten; every other character as it is. -/
def toAscii (c : Char) : Char :=
  match digitValue? c with
  | some d => Char.ofNat (0x30 + d)
  | none => c

/-- The number that a text writes, in digits of any script. -/
def readNumeral (s : String) : Except Trap Float :=
  match Text.float? (String.ofList (s.toList.map toAscii)) with
  | some x => .ok x
  | none => .error .invalidValue

/-! ## Digits of any script -/

theorem toAscii_of_isDigit {c : Char} (h : isDigit c = true) :
    (toAscii c).isDigit = true ∧ digitValue (toAscii c) = digitValue c := by
  obtain ⟨d, hd⟩ := Option.isSome_iff_exists.1 h
  have hlt := Text.digitValue?_lt hd
  have hall : ∀ d < 10, (Char.ofNat (0x30 + d)).isDigit = true ∧
      digitValue (Char.ofNat (0x30 + d)) = d := by decide
  rw [toAscii, hd, digitValue, digitValue, hd]
  exact hall d hlt

theorem numberOfDigits_map_toAscii {ds : List Char} (h : ∀ c ∈ ds, isDigit c = true) :
    numberOfDigits (ds.map toAscii) = numberOfDigits ds := by
  rw [numberOfDigits, numberOfDigits, List.foldl_map]
  exact List.foldl_ext _ _ _ fun n c hc => by rw [(toAscii_of_isDigit (h c hc)).2]

theorem isDigit_of_mem_map_toAscii {ds : List Char} (h : ∀ c ∈ ds, isDigit c = true) :
    ∀ c ∈ ds.map toAscii, c.isDigit = true := by
  intro c hc
  obtain ⟨d, hd, rfl⟩ := List.mem_map.1 hc
  exact (toAscii_of_isDigit (h d hd)).1

/-! ## Every numeral is read -/

/-- Digits in front of a point or of the end are read as a run, with no underscore among them. -/
theorem digitRun_digits {ds rest : List Char} (h : ∀ c ∈ ds, c.isDigit = true)
    (hrest : rest = [] ∨ ∃ behind, rest = '.' :: behind) :
    digitRun Char.isDigit (ds ++ rest) = (ds, rest) := by
  induction ds with
  | nil =>
    obtain rfl | ⟨behind, rfl⟩ := hrest
    · rfl
    · cases behind <;> rfl
  | cons d ds ih =>
    have hd := h d List.mem_cons_self
    have hds := ih fun c hc => h c (List.mem_cons_of_mem d hc)
    cases hnext : ds ++ rest with
    | nil =>
      obtain ⟨rfl, rfl⟩ := List.append_eq_nil_iff.1 hnext
      simp [digitRun, hd]
    | cons c tail =>
      -- the run goes on over an underscore between digits, which is none of these characters
      have hunderscore : c ≠ '_' := by
        rintro rfl
        cases ds with
        | nil =>
          obtain rfl | ⟨behind, rfl⟩ := hrest
          · cases hnext
          · exact absurd (List.cons.inj hnext).1 (by decide)
        | cons e es =>
          have he := h e (List.mem_cons_of_mem d List.mem_cons_self)
          rw [(List.cons.inj hnext).1] at he
          exact absurd he (by decide)
      rw [hnext] at hds
      rw [List.cons_append, hnext, digitRun, if_pos hd, if_neg hunderscore, hds]

theorem isWhiteSpace_eq_false {c : Char} (h : c.isDigit = true ∨ c = '.') :
    Text.isWhiteSpace c = false := by
  rcases h with hdigit | rfl
  · obtain ⟨hlow, hhigh⟩ := Text.isAscii_digit hdigit
    rw [Bool.eq_false_iff]
    intro hspace
    simp only [Text.isWhiteSpace, Bool.or_eq_true, Bool.and_eq_true, decide_eq_true_eq,
      beq_iff_eq] at hspace
    omega
  · rfl

theorem toLower_eq_self {c : Char} (h : c.isDigit = true ∨ c = '.') : c.toLower = c := by
  rcases h with hdigit | rfl
  · obtain ⟨-, hhigh⟩ := Text.isAscii_digit hdigit
    refine dif_neg fun hupper => ?_
    have hlow : 65 ≤ c.toNat := UInt32.le_iff_toNat_le.1 hupper.1
    omega
  · rfl

/-- A text of digits and points has no space around it, no sign and no name for a number, so it is
read as an unsigned decimal. -/
theorem float?_of_digits {cs : List Char} (h : ∀ c ∈ cs, c.isDigit = true ∨ c = '.')
    (hne : cs ≠ []) : Text.float? (String.ofList cs) = Text.unsignedDecimal? false cs := by
  have htrim : Text.trimBy Text.isWhiteSpace cs = cs :=
    Text.trimBy_eq_self fun c hc => isWhiteSpace_eq_false (h c hc)
  obtain ⟨c, tail, rfl⟩ := List.exists_cons_of_ne_nil hne
  have hfirst := h c List.mem_cons_self
  have hsigned : Text.signed (c :: tail) = (false, c :: tail) := by
    rcases hfirst with hdigit | rfl
    · exact Decimal.Numeral.signed_of_digit hdigit tail
    · rfl
  -- a name starts with a letter
  have hname : ∀ d ds, d.isDigit = false ∧ d ≠ '.' →
      String.ofList ((c :: tail).map Char.toLower) ≠ String.ofList (d :: ds) := by
    intro d ds hd heq
    have hhead := (List.cons.inj (String.ofList_injective heq)).1
    rw [toLower_eq_self hfirst] at hhead
    rw [hhead] at hfirst
    rcases hfirst with hdigit | hpoint
    · rw [hd.1] at hdigit
      cases hdigit
    · exact hd.2 hpoint
  rw [Text.float?, String.toList_ofList, htrim, hsigned]
  simp only
  rw [if_neg, if_neg]
  · exact hname 'n' ['a', 'n'] ⟨rfl, by decide⟩
  · rintro (hinf | hinfinity)
    · exact hname 'i' ['n', 'f'] ⟨rfl, by decide⟩ hinf
    · exact hname 'i' "nfinity".toList ⟨rfl, by decide⟩ hinfinity

theorem unsignedDecimal?_digits {ds : List Char} (h : ∀ c ∈ ds, c.isDigit = true) (hne : ds ≠ []) :
    Text.unsignedDecimal? false ds = some (Binary64.ofDecimal false (numberOfDigits ds) 0) := by
  have hrun := digitRun_digits h (.inl rfl)
  rw [List.append_nil] at hrun
  rw [Text.unsignedDecimal?, hrun]
  obtain ⟨d, tail, rfl⟩ := List.exists_cons_of_ne_nil hne
  simp [Text.powerOfTen?]

theorem unsignedDecimal?_pointed {whole part : List Char} (hwhole : ∀ c ∈ whole, c.isDigit = true)
    (hpart : ∀ c ∈ part, c.isDigit = true) (hne : whole ++ part ≠ []) :
    Text.unsignedDecimal? false (whole ++ '.' :: part) =
      some (Binary64.ofDecimal false (numberOfDigits (whole ++ part)) (-(part.length : Int))) := by
  have hrun := digitRun_digits hwhole (.inr ⟨part, rfl⟩)
  have hbehind := digitRun_digits hpart (.inl rfl)
  rw [List.append_nil] at hbehind
  have hempty : ¬ (whole.isEmpty && part.isEmpty) = true := by
    rw [Bool.and_eq_true, List.isEmpty_iff, List.isEmpty_iff]
    rintro ⟨rfl, rfl⟩
    exact hne rfl
  rw [Text.unsignedDecimal?, hrun]
  simp only [hbehind]
  rw [if_neg hempty, Text.powerOfTen?, Option.map_some, zero_sub]

/-- **Every numeral is read**, as the value of its token. -/
theorem readNumeral_of_written {s : String} (h : Written s.toList) :
    readNumeral s = .ok (numeralValue s.toList) := by
  have hread : Text.float? (String.ofList (s.toList.map toAscii)) = some (numeralValue s.toList) := by
    -- the two ways to write a numeral: digits alone, or digits on some side of a point
    generalize s.toList = cs at h ⊢
    cases h with
    | digits _ hdigits hne =>
      have hascii := isDigit_of_mem_map_toAscii hdigits
      have hne : cs.map toAscii ≠ [] := by simpa using hne
      rw [float?_of_digits (fun c hc => .inl (hascii c hc)) hne, unsignedDecimal?_digits hascii hne,
        numberOfDigits_map_toAscii hdigits,
        Token.numeralValue_of_not_mem_point (not_mem_point_of_isDigit hdigits)]
    | pointed whole part hwhole hpart hne =>
      have hascii := isDigit_of_mem_map_toAscii hwhole
      have hbehind := isDigit_of_mem_map_toAscii hpart
      have hmap : (whole ++ '.' :: part).map toAscii =
          whole.map toAscii ++ '.' :: part.map toAscii := by
        rw [List.map_append, List.map_cons]
        rfl
      have hboth : whole.map toAscii ++ part.map toAscii = (whole ++ part).map toAscii :=
        List.map_append.symm
      -- only digits and a point reach the reader, so no sign, blank or exponent is looked for
      have hchars : ∀ c ∈ whole.map toAscii ++ '.' :: part.map toAscii,
          c.isDigit = true ∨ c = '.' := by
        intro c hc
        rcases List.mem_append.1 hc with hc | hc
        · exact .inl (hascii c hc)
        · rcases List.mem_cons.1 hc with rfl | hc
          · exact .inr rfl
          · exact .inl (hbehind c hc)
      have hdigits : ∀ c ∈ whole ++ part, isDigit c = true := fun c hc =>
        (List.mem_append.1 hc).elim (hwhole c) (hpart c)
      rw [hmap, float?_of_digits hchars (by simp),
        unsignedDecimal?_pointed hascii hbehind (by rw [hboth]; simpa using hne), hboth,
        numberOfDigits_map_toAscii hdigits, List.length_map,
        Token.numeralValue_pointed (not_mem_point_of_isDigit hwhole)]
  rw [readNumeral, hread]

/-! ## The tokens of an expression -/

/-- A token that a text is cut into: it is not the mark of the end, and if it is a numeral, it can be
read. -/
structure Proper (t : Token) : Prop where
  kind_ne : t.kind ≠ .finish
  readNumeral_eq : t.kind = .number → readNumeral t.text = .ok t.value

theorem proper_of_piece {cs : List Char} {p : Piece} (h : Piece.ofChars? cs = some p)
    (position : Nat) : ∀ t ∈ p.tokens position, Proper t := by
  intro t ht
  unfold Piece.tokens at ht
  split at ht
  · cases ht
  · next k hk =>
    rw [List.mem_singleton.1 ht]
    have hlexeme := (Token.front_of_ofChars? h hk).lexeme
    generalize p.text = text at hlexeme
    cases hlexeme with
    | numeral hwritten =>
      have hfinish : Token.Kind.number ≠ .finish := by decide
      have hread : Written (String.ofList text).toList := by rwa [String.toList_ofList]
      exact ⟨hfinish, fun _ => readNumeral_of_written hread⟩
    | spelled hne =>
      -- a numeral and the mark of the end have no spelling
      refine ⟨?_, ?_⟩
      · rintro rfl
        exact hne rfl
      · rintro rfl
        exact absurd rfl hne

theorem proper_of_lexemes {w : String} {ts : List Token} (h : Token.lexemes w = .ok ts) :
    ∀ t ∈ ts, Proper t := by
  refine Token.scan_ok_induction (P := fun _ _ ts => ∀ t ∈ ts, Proper t) ?_ ?_ h
  · intro _ t ht
    exact absurd ht List.not_mem_nil
  · intro position cs p us hp ih t ht
    rcases List.mem_append.1 ht with ht | ht
    · exact proper_of_piece hp position t ht
    · exact ih t ht

end KeypadCalc.Guard

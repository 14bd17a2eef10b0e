import KeypadCalc.Token
import KeypadCalc.Proofs.Outcome

/-!
# KeypadCalc — the pieces that a text is cut into

What the scanner takes from the front of a text, by kind of piece (`Piece.shape`), how a numeral is
written (`written_of_numeral?`), and the induction over the pieces of a text that is cut to its end
(`scan_ok_induction`).
-/

namespace KeypadCalc.Token

open Text (isBlank isDigit)

/-- How a token is written whose kind tells its text. -/
def Kind.spelling : Kind → List Char
  | number => []
  | plus => ['+']
  | minus => ['-']
  | times => ['*']
  | divide => ['/']
  | power => ['*', '*']
  | openGroup => ['(']
  | openRoot => "sqrt(".toList
  | closeGroup => [')']
  | finish => []

/-- What a piece at the front of a text can be: a numeral, a token told by its spelling, or blanks.
A single star is not followed by another one. -/
inductive Piece.Shape (p : Piece) : Prop where
  | numeral (hkind : p.kind = some .number) (htext : ∀ c ∈ p.text, isDigit c = true ∨ c = '.')
  | spelled (k : Kind) (hkind : p.kind = some k) (htext : p.text = k.spelling)
      (hstar : k = .times → ∀ rest, p.rest ≠ '*' :: rest)
  | blanks (hkind : p.kind = none) (htext : ∀ c ∈ p.text, isBlank c = true)

theorem isDigit_of_takeWhile {cs ds : List Char} {d : Char} (h : cs.takeWhile isDigit = d :: ds) :
    ∀ c ∈ d :: ds, isDigit c = true := by
  intro c hc
  rw [← h] at hc
  exact List.all_eq_true.1 List.all_takeWhile _ hc

theorem not_mem_point_of_isDigit {ds : List Char} (h : ∀ c ∈ ds, isDigit c = true) : '.' ∉ ds :=
  fun hmem => absurd (h '.' hmem) (by decide)

/-- A numeral as it is written: digits, or digits on one side of a point or on both. -/
inductive Written : List Char → Prop where
  | digits (ds : List Char) (hdigits : ∀ c ∈ ds, isDigit c = true) (hne : ds ≠ []) : Written ds
  | pointed (whole part : List Char) (hwhole : ∀ c ∈ whole, isDigit c = true)
      (hpart : ∀ c ∈ part, isDigit c = true) (hne : whole ++ part ≠ []) :
      Written (whole ++ '.' :: part)

theorem Written.isDigit_or_eq {cs : List Char} (h : Written cs) :
    ∀ c ∈ cs, isDigit c = true ∨ c = '.' := by
  intro c hc
  cases h with
  | digits _ hdigits _ => exact .inl (hdigits c hc)
  | pointed whole part hwhole hpart _ =>
    rcases List.mem_append.1 hc with hc | hc
    · exact .inl (hwhole c hc)
    · rcases List.mem_cons.1 hc with rfl | hc
      · exact .inr rfl
      · exact .inl (hpart c hc)

theorem written_of_numeral? {cs : List Char} {p : Piece} (h : numeral? cs = some p) :
    p.kind = some .number ∧ Written p.text := by
  unfold numeral? at h
  split at h
  · next rest _ _ =>
    -- a point, which needs digits behind it
    split at h
    · cases h
    · next d ds hds =>
      cases h
      have hnil : ∀ c ∈ ([] : List Char), isDigit c = true := fun c hc =>
        absurd hc List.not_mem_nil
      exact ⟨rfl, .pointed [] (d :: ds) hnil (isDigit_of_takeWhile hds) (List.cons_ne_nil d ds)⟩
  · cases h
  · next d ds rest hd _ =>
    -- digits, a point, and perhaps more digits
    cases h
    have hpart : ∀ c ∈ rest.takeWhile isDigit, isDigit c = true := fun c hc =>
      List.all_eq_true.1 List.all_takeWhile c hc
    exact ⟨rfl, .pointed (d :: ds) _ (isDigit_of_takeWhile hd) hpart (List.cons_ne_nil d _)⟩
  · next _ d ds hd _ =>
    cases h
    exact ⟨rfl, .digits (d :: ds) (isDigit_of_takeWhile hd) (List.cons_ne_nil d ds)⟩

theorem shape_of_numeral? {cs : List Char} {p : Piece} (h : numeral? cs = some p) : p.Shape := by
  obtain ⟨hkind, hwritten⟩ := written_of_numeral? h
  exact .numeral hkind hwritten.isDigit_or_eq

/-- A sign, a parenthesis or a root is what its kind is spelled. -/
theorem spelled_of_symbol? {cs : List Char} {p : Piece} (h : symbol? cs = some p) :
    ∃ k : Kind, p.kind = some k ∧ k.spelling ≠ [] ∧ p.text = k.spelling ∧
      (k = .times → ∀ rest, p.rest ≠ '*' :: rest) := by
  unfold symbol? at h
  split at h
  · cases h
    exact ⟨.openRoot, rfl, by decide, rfl, nofun⟩
  · cases h
    exact ⟨.power, rfl, by decide, rfl, nofun⟩
  · cases h
    exact ⟨.plus, rfl, by decide, rfl, nofun⟩
  · cases h
    exact ⟨.minus, rfl, by decide, rfl, nofun⟩
  · -- a lone star is a product only where no second star follows
    next rest hstar =>
    cases h
    exact ⟨.times, rfl, by decide, rfl, fun _ tail => hstar tail⟩
  · cases h
    exact ⟨.divide, rfl, by decide, rfl, nofun⟩
  · cases h
    exact ⟨.openGroup, rfl, by decide, rfl, nofun⟩
  · cases h
    exact ⟨.closeGroup, rfl, by decide, rfl, nofun⟩
  · cases h

theorem shape_of_symbol? {cs : List Char} {p : Piece} (h : symbol? cs = some p) : p.Shape := by
  obtain ⟨k, hkind, -, htext, hstar⟩ := spelled_of_symbol? h
  exact .spelled k hkind htext hstar

theorem shape_of_blanks? {cs : List Char} {p : Piece} (h : blanks? cs = some p) : p.Shape := by
  unfold blanks? at h
  split at h
  · cases h
  · next c run hrun =>
    cases h
    refine .blanks rfl fun c' hc => ?_
    rw [← hrun] at hc
    exact List.all_eq_true.1 List.all_takeWhile _ hc

/-- The first piece of a text is of one of the three shapes. -/
theorem Piece.shape {cs : List Char} {p : Piece} (h : Piece.ofChars? cs = some p) : p.Shape := by
  unfold Piece.ofChars? at h
  -- a numeral is tried first, then a symbol, and blanks last
  cases hn : numeral? cs with
  | some q =>
    rw [hn] at h
    cases h
    exact shape_of_numeral? hn
  | none =>
    cases hs : symbol? cs with
    | some q =>
      rw [hn, hs] at h
      cases h
      exact shape_of_symbol? hs
    | none =>
      rw [hn, hs] at h
      exact shape_of_blanks? h

/-- A text that starts with a piece is cut behind it. -/
theorem scan_of_ofChars? (position : Nat) {cs : List Char} {p : Piece}
    (h : Piece.ofChars? cs = some p) :
    scan position cs =
      (scan (position + p.text.length) p.rest).map (p.tokens position ++ ·) := by
  cases cs with
  | nil => cases h
  | cons c tail =>
    rw [scan]
    split
    · next hnone => rw [hnone] at h; cases h
    · next q hq => rw [hq] at h; cases h; rfl

/-- A text that starts with no piece is not cut. -/
theorem scan_of_ofChars?_eq_none (position : Nat) {c : Char} {tail : List Char}
    (h : Piece.ofChars? (c :: tail) = none) :
    scan position (c :: tail) = .error ⟨c, position⟩ := by
  rw [scan]
  split
  · rfl
  · next p hp => rw [h] at hp; cases hp

/-- What holds of the end of a text, and of a text where it holds behind its first piece, holds of
every text that is cut to its end. -/
theorem scan_ok_induction {P : Nat → List Char → List Token → Prop}
    (nil : ∀ position, P position [] [])
    (piece : ∀ position cs p ts, Piece.ofChars? cs = some p →
      P (position + p.text.length) p.rest ts → P position cs (p.tokens position ++ ts))
    {position : Nat} {cs : List Char} {ts : List Token} (h : scan position cs = .ok ts) :
    P position cs ts := by
  -- strong induction on the length: a piece may take any number of characters
  induction hn : cs.length using Nat.strongRecOn generalizing position cs ts with
  | ind n ih =>
    cases cs with
    | nil =>
      rw [scan] at h
      cases h
      exact nil position
    | cons c tail =>
      rw [scan] at h
      split at h
      · cases h
      · next p hp =>
        obtain ⟨us, hus, rfl⟩ := map_eq_ok_iff.1 h
        have hlt := Piece.length_rest_lt hp
        exact piece position (c :: tail) p us hp (ih p.rest.length (by omega) hus rfl)

end KeypadCalc.Token

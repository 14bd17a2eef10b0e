import KeypadCalc.Proofs.Decimal.Numeral
import KeypadCalc.Proofs.Token.Scan

/-!
# KeypadCalc — tokens by longest match

What a token is, told without the scanner: a `Lexeme` is a numeral as it is written, or one of the
spellings. Some lexemes begin others. `Continues` says of a character that it goes on with the lexeme
in front of it, and a lexeme stands at the `Front` of a text if no such character follows it.

* **`Front.longest`** — a lexeme at the front of a text is the longest one that begins the text.
* `ofChars?_of_front`, `front_of_ofChars?` — the tokens that the scanner takes are those at the
  front.
* `scan_induction` — a text is scanned blank by blank and token by token, up to its end or to a
  character at which nothing starts (`Starts`).
-/

namespace KeypadCalc.Token

open Text (dropWhile_of_ends isBlank isDigit takeWhile_of_ends)

/-- A text that is a token of a kind. -/
inductive Lexeme : Kind → List Char → Prop where
  | numeral {text : List Char} (h : Written text) : Lexeme .number text
  | spelled {k : Kind} (h : k.spelling ≠ []) : Lexeme k k.spelling

/-- A character that goes on with a lexeme: a digit or the first point behind a numeral, a star
behind a star. -/
def Continues : Kind → List Char → Char → Prop
  | .number, text, c => isDigit c = true ∨ (c = '.' ∧ '.' ∉ text)
  | .times, _, c => c = '*'
  | _, _, _ => False

/-- A text begins with a lexeme that does not go on behind it. -/
structure Front (k : Kind) (text rest : List Char) : Prop where
  lexeme : Lexeme k text
  uncut : ∀ c tail, rest = c :: tail → ¬ Continues k text c

/-- What a token or a blank starts with: a blank, a sign or a parenthesis, a digit, a point with a
digit behind it, or a root with its parenthesis. -/
inductive Starts : List Char → Prop where
  | blank {c : Char} (h : isBlank c = true) (rest : List Char) : Starts (c :: rest)
  | sign {c : Char} (h : c ∈ "+-*/()".toList) (rest : List Char) : Starts (c :: rest)
  | digit {c : Char} (h : isDigit c = true) (rest : List Char) : Starts (c :: rest)
  | point {d : Char} (h : isDigit d = true) (rest : List Char) : Starts ('.' :: d :: rest)
  | root (rest : List Char) : Starts ("sqrt(".toList ++ rest)

/-! ## Blanks are apart from tokens -/

/-- No blank is a digit. -/
theorem isDigit_of_isBlank {c : Char} (h : isBlank c = true) : isDigit c = false := by
  have hall : ∀ z ∈ Text.scriptZeros, ∀ i < 10, isBlank (Char.ofNat (z + i)) = false := by
    decide +kernel
  rw [Bool.eq_false_iff]
  intro hdigit
  obtain ⟨d, hd⟩ := Option.isSome_iff_exists.1 hdigit
  obtain ⟨z, hfind, -⟩ := Option.map_eq_some_iff.1 hd
  have hrange := List.find?_some hfind
  simp only [Bool.and_eq_true, decide_eq_true_eq] at hrange
  have hnot := hall z (List.mem_of_find?_eq_some hfind) (c.toNat - z) (by omega)
  rw [show z + (c.toNat - z) = c.toNat by omega, Char.ofNat_toNat, h] at hnot
  cases hnot

theorem ne_of_isBlank {c d : Char} (h : isBlank c = true) (hd : isBlank d = false) : c ≠ d := by
  rintro rfl
  rw [h] at hd
  cases hd

/-- No blank goes on with a lexeme. -/
theorem not_continues_of_isBlank {c : Char} (h : isBlank c = true) (k : Kind) (text : List Char) :
    ¬ Continues k text c := by
  cases k with
  | number =>
    rintro (hdigit | ⟨hpoint, -⟩)
    · rw [isDigit_of_isBlank h] at hdigit
      cases hdigit
    · exact ne_of_isBlank h (by decide) hpoint
  | times => exact ne_of_isBlank h (by decide)
  | plus | minus | divide | power | openGroup | openRoot | closeGroup | finish => exact id

/-! ## Numerals -/

/-- A numeral has one point at most. -/
theorem Written.count_point_le {text : List Char} (h : Written text) : text.count '.' ≤ 1 := by
  have hnone : ∀ ds : List Char, (∀ c ∈ ds, isDigit c = true) → ds.count '.' = 0 := fun ds hds =>
    List.count_eq_zero.2 (not_mem_point_of_isDigit hds)
  cases h with
  | digits _ hdigits _ => simp [hnone _ hdigits]
  | pointed whole part hwhole hpart _ =>
    simp [List.count_append, hnone whole hwhole, hnone part hpart]

/-- A numeral is not empty. -/
theorem Written.ne_nil {text : List Char} (h : Written text) : text ≠ [] := by
  cases h with
  | digits _ _ hne => exact hne
  | pointed whole part _ _ _ => simp

/-- What has neither a digit nor a point in front does not begin with a numeral. -/
theorem numeral?_eq_none {c : Char} (hdigit : isDigit c = false) (hpoint : c ≠ '.')
    (rest : List Char) : numeral? (c :: rest) = none := by
  unfold numeral?
  rw [List.takeWhile_cons_of_neg (by simp [hdigit]), List.dropWhile_cons_of_neg (by simp [hdigit])]
  split
  · next _ _ hcs => exact absurd (List.cons.inj hcs).1 hpoint
  · rfl
  · next hd _ => cases hd
  · next hd _ => cases hd

/-- A numeral that nothing goes on with is what the scanner takes. -/
theorem numeral?_of_front {text rest : List Char} (h : Written text)
    (huncut : ∀ c tail, rest = c :: tail → ¬ Continues .number text c) :
    numeral? (text ++ rest) = some ⟨some .number, text, rest⟩ := by
  have hends : Text.Ends isDigit rest := by
    intro c tail hrest
    have hnot := huncut c tail hrest
    exact Bool.eq_false_iff.2 fun hdigit => hnot (.inl hdigit)
  unfold numeral?
  cases h with
  | digits _ hdigits hne =>
    rw [takeWhile_of_ends hdigits hends, dropWhile_of_ends hdigits hends]
    obtain ⟨d, ds, rfl⟩ := List.exists_cons_of_ne_nil hne
    split
    · next hd => cases hd
    · next hd _ => cases hd
    · -- a point would go on with the digits
      exact absurd (.inr ⟨rfl, not_mem_point_of_isDigit hdigits⟩) (huncut '.' _ rfl)
    · next hd _ =>
      cases hd
      rfl
  | pointed whole part hwhole hpart hne =>
    -- the point ends the digits in front of it; without any, digits have to stand behind it
    have hpoint : Text.Ends isDigit ('.' :: (part ++ rest)) := Text.ends_cons (by decide) _
    rw [List.append_assoc, List.cons_append, takeWhile_of_ends hwhole hpoint,
      dropWhile_of_ends hwhole hpoint]
    cases whole with
    | nil =>
      obtain ⟨d, ds, rfl⟩ := List.exists_cons_of_ne_nil hne
      simp only [List.nil_append, takeWhile_of_ends hpart hends, dropWhile_of_ends hpart hends]
    | cons d ds =>
      simp only [takeWhile_of_ends hpart hends, dropWhile_of_ends hpart hends]

/-- Where the digits of a text have been dropped, no digit follows. -/
theorem isDigit_of_dropWhile {cs tail : List Char} {c : Char}
    (h : cs.dropWhile isDigit = c :: tail) : isDigit c = false := by
  have hhead := List.head?_dropWhile_not isDigit cs
  rw [h] at hhead
  simpa using hhead

/-- What the scanner takes for a numeral is cut where nothing goes on with it. -/
theorem not_continues_of_numeral? {cs : List Char} {p : Piece} (h : numeral? cs = some p) :
    ∀ c tail, p.rest = c :: tail → ¬ Continues .number p.text c := by
  unfold numeral? at h
  split at h
  · split at h
    · cases h
    · cases h
      rintro c tail hrest (hdigit | ⟨-, hpoint⟩)
      · rw [isDigit_of_dropWhile hrest] at hdigit
        cases hdigit
      · exact hpoint List.mem_cons_self
  · cases h
  · cases h
    rintro c tail hrest (hdigit | ⟨-, hpoint⟩)
    · rw [isDigit_of_dropWhile hrest] at hdigit
      cases hdigit
    · exact hpoint (by simp)
  · next hother =>
    -- digits alone, with no point behind them
    cases h
    rintro c tail hrest (hdigit | ⟨rfl, -⟩)
    · rw [isDigit_of_dropWhile hrest] at hdigit
      cases hdigit
    · exact hother tail hrest

/-! ## Spellings -/

/-- No spelling begins like a numeral. -/
theorem spelling_head {k : Kind} {c : Char} {rest : List Char} (h : k.spelling = c :: rest) :
    isDigit c = false ∧ c ≠ '.' := by
  cases k <;> cases h <;> decide

/-- No spelling begins like a numeral. -/
theorem numeral?_spelling {k : Kind} (hk : k.spelling ≠ []) (rest : List Char) :
    numeral? (k.spelling ++ rest) = none := by
  obtain ⟨c, tail, hspelling⟩ := List.exists_cons_of_ne_nil hk
  obtain ⟨hdigit, hpoint⟩ := spelling_head hspelling
  rw [hspelling, List.cons_append]
  exact numeral?_eq_none hdigit hpoint (tail ++ rest)

/-- A star is taken on its own where no other one follows. -/
theorem symbol?_star {rest : List Char} (h : ∀ tail, rest ≠ '*' :: tail) :
    symbol? ('*' :: rest) = some ⟨some .times, ['*'], rest⟩ := by
  rw [symbol?]
  exact fun tail => h tail

/-- A spelling is recognized, unless a second star makes a power of a times sign. -/
theorem symbol?_spelling {k : Kind} (hk : k.spelling ≠ []) {rest : List Char}
    (hstar : k = .times → ∀ tail, rest ≠ '*' :: tail) :
    symbol? (k.spelling ++ rest) = some ⟨some k, k.spelling, rest⟩ := by
  cases k with
  | number | finish => exact absurd rfl hk
  | times => exact symbol?_star (hstar rfl)
  | plus | minus | divide | power | openGroup | openRoot | closeGroup => rfl

/-- So it stands at the front under the same condition: of all spellings only the times sign begins
another one. -/
theorem front_of_spelling {k : Kind} {rest : List Char} (hk : k.spelling ≠ [])
    (hstar : k = .times → ∀ tail, rest ≠ '*' :: tail) : Front k k.spelling rest := by
  refine ⟨.spelled hk, ?_⟩
  rintro c tail rfl
  cases k with
  | number => exact absurd rfl hk
  | times =>
    rintro rfl
    exact hstar rfl tail rfl
  | plus | minus | divide | power | openGroup | openRoot | closeGroup | finish => exact id

/-- No blank is the first character of a sign, a parenthesis or a root. -/
theorem symbol?_eq_none_of_isBlank {c : Char} (h : isBlank c = true) (rest : List Char) :
    symbol? (c :: rest) = none := by
  have hall : "s+-*/()".toList.all (fun d => !isBlank d) = true := by decide
  cases hs : symbol? (c :: rest) with
  | none => rfl
  | some p =>
    have hhead : c ∈ "s+-*/()".toList := by
      unfold symbol? at hs
      split at hs <;> simp_all
    have hnot := List.all_eq_true.1 hall c hhead
    rw [h] at hnot
    cases hnot

/-! ## Tokens at the front -/

/-- The scanner takes the lexeme at the front of a text. -/
theorem ofChars?_of_front {k : Kind} {text rest : List Char} (h : Front k text rest) :
    Piece.ofChars? (text ++ rest) = some ⟨some k, text, rest⟩ := by
  obtain ⟨hlexeme, huncut⟩ := h
  unfold Piece.ofChars?
  cases hlexeme with
  | numeral hwritten =>
    rw [numeral?_of_front hwritten huncut]
    rfl
  | spelled hk =>
    have hstar : k = .times → ∀ tail, rest ≠ '*' :: tail := by
      rintro rfl tail rfl
      exact huncut '*' tail rfl rfl
    rw [numeral?_spelling hk, symbol?_spelling hk hstar]
    rfl

/-- What the scanner takes for a symbol is the longest one that is there. -/
theorem front_of_symbol? {cs : List Char} {p : Piece} (h : symbol? cs = some p) :
    ∃ k, p.kind = some k ∧ Front k p.text p.rest := by
  obtain ⟨k, hkind, hne, htext, hstar⟩ := spelled_of_symbol? h
  rw [htext]
  exact ⟨k, hkind, front_of_spelling hne hstar⟩

theorem kind_of_blanks? {cs : List Char} {p : Piece} (h : blanks? cs = some p) :
    p.kind = none := by
  unfold blanks? at h
  split at h
  · cases h
  · cases h
    rfl

/-- What the scanner takes as a token is the lexeme at the front. -/
theorem front_of_ofChars? {cs : List Char} {p : Piece} {k : Kind}
    (h : Piece.ofChars? cs = some p) (hk : p.kind = some k) : Front k p.text p.rest := by
  unfold Piece.ofChars? at h
  cases hn : numeral? cs with
  | some q =>
    rw [hn] at h
    cases h
    obtain ⟨hkind, hwritten⟩ := written_of_numeral? hn
    obtain rfl : Kind.number = k := Option.some.inj (hkind.symm.trans hk)
    exact ⟨.numeral hwritten, not_continues_of_numeral? hn⟩
  | none =>
    cases hs : symbol? cs with
    | some q =>
      rw [hn, hs] at h
      cases h
      obtain ⟨k', hkind, hfront⟩ := front_of_symbol? hs
      obtain rfl : k' = k := Option.some.inj (hkind.symm.trans hk)
      exact hfront
    -- a blank piece has no kind, so the token is one of the two
    | none =>
      rw [hn, hs] at h
      rw [kind_of_blanks? h] at hk
      cases hk

/-! ## The longest lexeme -/

theorem Lexeme.ne_nil {k : Kind} {text : List Char} (h : Lexeme k text) : text ≠ [] := by
  cases h with
  | numeral hwritten => exact hwritten.ne_nil
  | spelled hk => exact hk

/-- A numeral and a spelling have different heads. -/
theorem Written.spelling_ne {c : Char} {text : List Char} (h : Written (c :: text)) (k : Kind)
    (more : List Char) : k.spelling ≠ c :: more := by
  intro hspelling
  obtain ⟨hdigit, hpoint⟩ := spelling_head hspelling
  rcases h.isDigit_or_eq c List.mem_cons_self with hc | hc
  · rw [hdigit] at hc
    cases hc
  · exact hpoint hc

/-- The one spelling that begins another one is the star. -/
theorem spelling_append {k k' : Kind} {c : Char} {more : List Char} (hk : k.spelling ≠ [])
    (h : k'.spelling = k.spelling ++ c :: more) : k = .times ∧ c = '*' := by
  cases k with
  | number | finish => exact absurd rfl hk
  | times =>
    cases k' <;> cases h
    exact ⟨rfl, rfl⟩
  | plus | minus | divide | power | openGroup | openRoot | closeGroup => cases k' <;> cases h

/-- A lexeme that begins another one goes on with the character behind it. -/
theorem Lexeme.continues_of_append {k k' : Kind} {text more : List Char} {c : Char}
    (h : Lexeme k text) (h' : Lexeme k' (text ++ c :: more)) : Continues k text c := by
  obtain ⟨d, ds, htext⟩ := List.exists_cons_of_ne_nil h.ne_nil
  generalize hlong : text ++ c :: more = long at h'
  cases h with
  | numeral hwritten =>
    cases h' with
    | numeral hlonger =>
      subst hlong
      rcases hlonger.isDigit_or_eq c (by simp) with hdigit | rfl
      · exact .inl hdigit
      · -- one point at most, and this is it
        refine .inr ⟨rfl, fun hmem => ?_⟩
        have hcount := hlonger.count_point_le
        have hpos : 0 < text.count '.' := List.count_pos_iff.2 hmem
        rw [List.count_append, List.count_cons_self] at hcount
        omega
    | spelled _ =>
      subst htext
      exact absurd hlong.symm (hwritten.spelling_ne _ _)
  | spelled hk =>
    cases h' with
    | numeral hlonger =>
      rw [← hlong, htext, List.cons_append] at hlonger
      exact absurd htext (hlonger.spelling_ne _ _)
    | spelled _ =>
      obtain ⟨rfl, rfl⟩ := spelling_append hk hlong.symm
      rfl

/-- A lexeme at the front of a text is the longest one that begins the text. -/
theorem Front.longest {k k' : Kind} {text text' rest : List Char} (h : Front k text rest)
    (h' : Lexeme k' text') (hbegins : text' <+: text ++ rest) : text'.length ≤ text.length := by
  rcases Nat.le_total text'.length text.length with hle | hle
  · exact hle
  · obtain ⟨more, rfl⟩ := List.prefix_of_prefix_length_le (List.prefix_append text rest) hbegins hle
    rw [List.prefix_append_right_inj] at hbegins
    cases more with
    | nil => simp
    | cons c more =>
      -- a longer lexeme would go on with the character behind the text
      obtain ⟨tail, rfl⟩ := hbegins
      exact absurd (h.lexeme.continues_of_append h') (h.uncut c (more ++ tail) rfl)

/-- A lexeme stays at the front of a text that is cut off behind it. -/
theorem Front.of_isPrefix {k : Kind} {text rest rest' : List Char} (h : Front k text rest)
    (hbegins : rest' <+: rest) : Front k text rest' := by
  refine ⟨h.lexeme, ?_⟩
  rintro c tail rfl
  obtain ⟨more, rfl⟩ := hbegins
  exact h.uncut c (tail ++ more) rfl

theorem numeral?_of_isBlank {c : Char} (h : isBlank c = true) (cs : List Char) :
    numeral? (c :: cs) = none :=
  numeral?_eq_none (isDigit_of_isBlank h) (ne_of_isBlank h (by decide)) cs

/-- A blank is taken with all blanks behind it. -/
theorem ofChars?_of_isBlank {c : Char} (h : isBlank c = true) (cs : List Char) :
    Piece.ofChars? (c :: cs) = some ⟨none, c :: cs.takeWhile isBlank, cs.dropWhile isBlank⟩ := by
  unfold Piece.ofChars? blanks?
  rw [numeral?_of_isBlank h, symbol?_eq_none_of_isBlank h, List.takeWhile_cons_of_pos h,
    List.dropWhile_cons_of_pos h]
  rfl

/-- Blanks in front of tokens are passed, and counted in the positions. -/
theorem scan_dropWhile_isBlank (position : Nat) (cs : List Char) :
    scan (position + (cs.takeWhile isBlank).length) (cs.dropWhile isBlank) = scan position cs := by
  cases cs with
  | nil => rfl
  | cons c cs =>
    by_cases hc : isBlank c = true
    · rw [scan_of_ofChars? position (ofChars?_of_isBlank hc cs), List.takeWhile_cons_of_pos hc,
        List.dropWhile_cons_of_pos hc]
      cases scan (position + (c :: cs.takeWhile isBlank).length) (cs.dropWhile isBlank) <;> rfl
    · rw [List.takeWhile_cons_of_neg hc, List.dropWhile_cons_of_neg hc]
      rfl

/-- A blank in front of a text only moves its tokens. -/
theorem scan_cons_of_isBlank (position : Nat) {c : Char} (h : isBlank c = true) (cs : List Char) :
    scan position (c :: cs) = scan (position + 1) cs := by
  rw [← scan_dropWhile_isBlank (position + 1) cs, ← scan_dropWhile_isBlank position (c :: cs),
    List.takeWhile_cons_of_pos h, List.dropWhile_cons_of_pos h, List.length_cons]
  congr 1
  omega

/-- A lexeme at the front of a text is its first token. -/
theorem scan_of_front (position : Nat) {k : Kind} {text rest : List Char} (h : Front k text rest) :
    scan position (text ++ rest) =
      (scan (position + text.length) rest).map (⟨k, String.ofList text, position⟩ :: ·) :=
  scan_of_ofChars? position (ofChars?_of_front h)

/-! ## Where nothing starts -/

/-- Nothing is taken where neither a numeral nor a symbol nor a blank stands. -/
theorem ofChars?_eq_none_iff {cs : List Char} :
    Piece.ofChars? cs = none ↔ numeral? cs = none ∧ symbol? cs = none ∧ blanks? cs = none := by
  unfold Piece.ofChars?
  cases numeral? cs <;> cases symbol? cs <;> simp

theorem numeral?_ne_none_of_isDigit {c : Char} (h : isDigit c = true) (rest : List Char) :
    numeral? (c :: rest) ≠ none := by
  unfold numeral?
  rw [List.takeWhile_cons_of_pos h]
  split <;> simp_all

theorem numeral?_ne_none_of_point {d : Char} (h : isDigit d = true) (rest : List Char) :
    numeral? ('.' :: d :: rest) ≠ none := by
  have hpoint : ¬ isDigit '.' = true := by decide
  unfold numeral?
  rw [List.takeWhile_cons_of_neg hpoint, List.dropWhile_cons_of_neg hpoint]
  simp only [List.takeWhile_cons_of_pos h]
  nofun

theorem symbol?_ne_none_of_mem {c : Char} (h : c ∈ "+-*/()".toList) (rest : List Char) :
    symbol? (c :: rest) ≠ none := by
  unfold symbol?
  split <;> simp_all

/-- The scanner takes a piece wherever one starts. -/
theorem Starts.ofChars?_ne_none {cs : List Char} (h : Starts cs) : Piece.ofChars? cs ≠ none := by
  intro hnone
  obtain ⟨hnumeral, hsymbol, -⟩ := ofChars?_eq_none_iff.1 hnone
  cases h with
  | blank hc rest =>
    rw [ofChars?_of_isBlank hc] at hnone
    cases hnone
  | sign hc rest => exact symbol?_ne_none_of_mem hc rest hsymbol
  | digit hc rest => exact numeral?_ne_none_of_isDigit hc rest hnumeral
  | point hd rest => exact numeral?_ne_none_of_point hd rest hnumeral
  | root rest => cases hsymbol

/-- A piece that is no token starts with a blank. -/
theorem isBlank_of_kind_eq_none {c : Char} {tail : List Char} {p : Piece}
    (h : Piece.ofChars? (c :: tail) = some p) (hk : p.kind = none) : isBlank c = true := by
  obtain ⟨d, ds, htext⟩ := List.exists_cons_of_ne_nil (Piece.text_ne_nil h)
  have happend := Piece.append_of_ofChars? h
  rw [htext, List.cons_append] at happend
  obtain rfl : d = c := (List.cons.inj happend).1
  cases Piece.shape h with
  | numeral hkind _ =>
    rw [hk] at hkind
    cases hkind
  | spelled k hkind _ _ =>
    rw [hk] at hkind
    cases hkind
  | blanks _ hblanks => exact hblanks d (htext ▸ List.mem_cons_self)

/-- What holds of the end of a text, of a text at which nothing starts, and of a text where it holds
behind a blank or a token in front, holds of what every text is scanned into. -/
theorem scan_induction {P : Nat → List Char → Except Stray (List Token) → Prop}
    (nil : ∀ position, P position [] (.ok []))
    (blank : ∀ position c cs outcome, isBlank c = true → P (position + 1) cs outcome →
      P position (c :: cs) outcome)
    (token : ∀ position k text rest outcome, Front k text rest →
      P (position + text.length) rest outcome →
      P position (text ++ rest) (outcome.map (⟨k, String.ofList text, position⟩ :: ·)))
    (stray : ∀ position c tail, ¬ Starts (c :: tail) → P position (c :: tail) (.error ⟨c, position⟩))
    (position : Nat) (cs : List Char) : P position cs (scan position cs) := by
  induction hn : cs.length using Nat.strongRecOn generalizing position cs with
  | ind n ih =>
    cases cs with
    | nil =>
      rw [scan]
      exact nil position
    | cons c tail =>
      rw [List.length_cons] at hn
      cases hp : Piece.ofChars? (c :: tail) with
      | none =>
        rw [scan_of_ofChars?_eq_none position hp]
        exact stray position c tail fun h => h.ofChars?_ne_none hp
      | some p =>
        cases hk : p.kind with
        | none =>
          -- one blank at a time, though the scanner takes a run of them
          have hc := isBlank_of_kind_eq_none hp hk
          rw [scan_cons_of_isBlank position hc]
          exact blank position c tail _ hc (ih tail.length (by omega) _ tail rfl)
        | some k =>
          have hfront := front_of_ofChars? hp hk
          have hlt : p.rest.length < tail.length + 1 := Piece.length_rest_lt hp
          rw [← Piece.append_of_ofChars? hp, scan_of_front position hfront]
          exact token position k p.text p.rest _ hfront (ih p.rest.length (by omega) _ p.rest rfl)

end KeypadCalc.Token

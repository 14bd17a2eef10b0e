import KeypadCalc.Proofs.Token.Lexeme
import KeypadCalc.Proofs.Token.Position

/-!
# KeypadCalc — the tokens of an expression tile it

The tokens of an expression stand in it one behind the other, each the longest that starts at its
place, with nothing but blanks around them; where an expression has no tokens, everything in front of
the character at fault has.

* `Tiles` — how tokens lie in a text, blank by blank and token by token; `scan_eq_ok_iff` says that
  the scanner returns the tokens that tile its text.
* **`tokenize_tiles`** — the tokens of an expression are a `Tiling` of it, and an expression without
  tokens is `Blocked` at a character where nothing starts.
* `lexemes_append_blank` — the tokens of two expressions with a blank between them are those of the
  first one and, further back, those of the second.
-/

namespace KeypadCalc.Token

open Text (isBlank)

/-- Tokens that make up a text whose first character has the given place, with blanks between
them. -/
inductive Tiles : Nat → List Char → List Token → Prop where
  | nil (position : Nat) : Tiles position [] []
  | blank {position : Nat} {c : Char} {cs : List Char} {ts : List Token} (hblank : isBlank c = true)
      (htail : Tiles (position + 1) cs ts) : Tiles position (c :: cs) ts
  | token {position : Nat} {k : Kind} {text rest : List Char} {ts : List Token}
      (hfront : Front k text rest) (hrest : Tiles (position + text.length) rest ts) :
      Tiles position (text ++ rest) (⟨k, String.ofList text, position⟩ :: ts)

/-- Tokens that lie in an expression one behind the other, from its first character to the mark of
its end: each spells what stands at its place, and is the longest that does; what is in none of them
is blank. -/
structure Tiling (w : String) (all : List Token) : Prop where
  rising : all.Pairwise fun t u => t.position < u.position
  apart : all.Pairwise fun t u => t.position + t.text.length ≤ u.position
  last : all.getLast? = some ⟨.finish, "", w.length⟩
  slice : ∀ t ∈ all, (w.toList.drop t.position).take t.text.length = t.text.toList
  blank : ∀ i c, w.toList[i]? = some c →
    (∀ t ∈ all, ¬ (t.position ≤ i ∧ i < t.position + t.text.length)) → isBlank c = true
  lexeme : ∀ t ∈ all.dropLast, Lexeme t.kind t.text.toList
  longest : ∀ t ∈ all, ∀ k text, Lexeme k text → text <+: w.toList.drop t.position →
    text.length ≤ t.text.length
  uncut : ∀ t ∈ all, ∀ c tail, w.toList.drop (t.position + t.text.length) = c :: tail →
    ¬ Continues t.kind t.text.toList c

/-- An expression that has tokens up to a character at which nothing starts. -/
structure Blocked (w : String) (s : Stray) : Prop where
  char : w.toList[s.position]? = some s.char
  front : ∃ all, tokenize (String.ofList (w.toList.take s.position)) = .ok all
  nothing : ¬ Starts (w.toList.drop s.position)

/-! ## The tiles of a text -/

theorem tiles_of_scan {position : Nat} {cs : List Char} {ts : List Token}
    (h : scan position cs = .ok ts) : Tiles position cs ts := by
  refine scan_induction (P := fun position cs outcome => ∀ ts, outcome = .ok ts →
    Tiles position cs ts) ?nil ?blank ?token ?stray position cs ts h
  case nil =>
    rintro position _ ⟨⟩
    exact .nil position
  case blank => exact fun position c cs outcome hblank ih ts hts => .blank hblank (ih ts hts)
  case token =>
    intro position k text rest outcome hfront ih ts hts
    obtain ⟨us, hus, rfl⟩ := map_eq_ok_iff.1 hts
    exact .token hfront (ih us hus)
  case stray => nofun

/-- The scanner returns the tokens that tile its text. -/
theorem scan_eq_ok_iff {position : Nat} {cs : List Char} {ts : List Token} :
    scan position cs = .ok ts ↔ Tiles position cs ts := by
  refine ⟨tiles_of_scan, fun h => ?_⟩
  induction h with
  | nil position => rw [scan]
  | blank hblank _ ih => rw [scan_cons_of_isBlank _ hblank, ih]
  | token hfront _ ih =>
    rw [scan_of_front _ hfront, ih]
    rfl

namespace Tiles

variable {position : Nat} {cs : List Char} {ts : List Token} {t : Token}

/-- Each token stands at its place, with what follows it behind it. -/
theorem exists_front (h : Tiles position cs ts) (ht : t ∈ ts) :
    ∃ before rest, cs = before ++ (t.text.toList ++ rest) ∧
      t.position = position + before.length ∧ Front t.kind t.text.toList rest := by
  induction h with
  | nil _ => cases ht
  | @blank position c cs ts _ _ ih =>
    obtain ⟨before, rest, rfl, hposition, hfront⟩ := ih ht
    refine ⟨c :: before, rest, rfl, ?_, hfront⟩
    rw [hposition, List.length_cons]
    omega
  | @token position k text rest ts hfront _ ih =>
    -- the token is the first one, or it stands behind that
    rcases List.mem_cons.1 ht with rfl | ht
    · exact ⟨[], rest, by simp, rfl, by simpa using hfront⟩
    · obtain ⟨before, rest, rfl, hposition, hfront⟩ := ih ht
      refine ⟨text ++ before, rest, (List.append_assoc ..).symm, ?_, hfront⟩
      rw [hposition, List.length_append]
      omega

theorem position_le (h : Tiles position cs ts) (ht : t ∈ ts) : position ≤ t.position := by
  obtain ⟨before, rest, -, hposition, -⟩ := h.exists_front ht
  omega

theorem end_le (h : Tiles position cs ts) (ht : t ∈ ts) :
    t.position + t.text.length ≤ position + cs.length := by
  obtain ⟨before, rest, rfl, hposition, -⟩ := h.exists_front ht
  simp only [List.length_append, String.length_toList]
  omega

/-- Each token of a text is the lexeme at its front once what stands before it is dropped. -/
theorem exists_drop_eq (h : Tiles 0 cs ts) (ht : t ∈ ts) :
    ∃ rest, cs.drop t.position = t.text.toList ++ rest ∧ Front t.kind t.text.toList rest := by
  obtain ⟨before, rest, rfl, hposition, hfront⟩ := h.exists_front ht
  rw [Nat.zero_add] at hposition
  exact ⟨rest, by rw [hposition, List.drop_left], hfront⟩

/-- Tokens do not overlap. -/
theorem apart (h : Tiles position cs ts) :
    ts.Pairwise fun t u => t.position + t.text.length ≤ u.position := by
  induction h with
  | nil _ => exact .nil
  | blank _ _ ih => exact ih
  | token _ hrest ih =>
    refine List.pairwise_cons.2 ⟨fun u hu => ?_, ih⟩
    have hle := hrest.position_le hu
    simpa using hle

/-- A character that is in none of the tokens is a blank. -/
theorem isBlank_of_outside (h : Tiles position cs ts) {i : Nat} {c : Char} (hc : cs[i]? = some c)
    (houtside : ∀ t ∈ ts,
      ¬ (t.position ≤ position + i ∧ position + i < t.position + t.text.length)) :
    isBlank c = true := by
  induction h generalizing i with
  | nil _ => cases hc
  | blank hblank _ ih =>
    cases i with
    | zero =>
      cases hc
      exact hblank
    | succ i =>
      refine ih hc fun t ht hinside => houtside t ht ?_
      omega
  | @token position k text rest ts _ _ ih =>
    -- not in the first token, so behind it
    have hfirst :
        ¬ (position ≤ position + i ∧ position + i < position + (String.ofList text).length) :=
      houtside _ List.mem_cons_self
    rw [String.length_ofList] at hfirst
    obtain ⟨j, rfl⟩ : ∃ j, i = text.length + j := Nat.exists_eq_add_of_le (by omega)
    rw [List.getElem?_append_right (by omega), Nat.add_sub_cancel_left] at hc
    refine ih hc fun t ht hinside => houtside t (List.mem_cons_of_mem _ ht) ?_
    omega

end Tiles

/-! ## Where a text has no tiles -/

/-- A text that is not scanned is scanned up to a character at which nothing starts. -/
theorem exists_stray {position : Nat} {cs : List Char} {s : Stray}
    (h : scan position cs = .error s) :
    ∃ before tail, cs = before ++ s.char :: tail ∧ s.position = position + before.length ∧
      (∃ ts, Tiles position before ts) ∧ ¬ Starts (s.char :: tail) := by
  refine scan_induction (P := fun position cs outcome => ∀ s, outcome = .error s →
    ∃ before tail, cs = before ++ s.char :: tail ∧ s.position = position + before.length ∧
      (∃ ts, Tiles position before ts) ∧ ¬ Starts (s.char :: tail))
    ?nil ?blank ?token ?stray position cs s h
  case nil => nofun
  case blank =>
    intro position c cs outcome hblank ih s hs
    obtain ⟨before, tail, rfl, hposition, ⟨ts, hts⟩, hnot⟩ := ih s hs
    refine ⟨c :: before, tail, rfl, ?_, ⟨ts, .blank hblank hts⟩, hnot⟩
    rw [hposition, List.length_cons]
    omega
  case token =>
    intro position k text rest outcome hfront ih s hs
    cases outcome with
    | ok us => cases hs
    | error s' =>
      cases hs
      obtain ⟨before, tail, rfl, hposition, ⟨ts, hts⟩, hnot⟩ := ih s rfl
      -- what stands behind the token is cut off at the character at fault
      have hcut := hfront.of_isPrefix (List.prefix_append before _)
      refine ⟨text ++ before, tail, (List.append_assoc ..).symm, ?_, ⟨_, .token hcut hts⟩, hnot⟩
      rw [hposition, List.length_append]
      omega
  case stray =>
    rintro position c tail hnot _ ⟨⟩
    exact ⟨[], tail, rfl, rfl, ⟨[], .nil position⟩, hnot⟩

/-! ## Whole expressions -/

/-- Nothing of the text is left at the mark of its end. -/
theorem drop_finish (w : String) : w.toList.drop (finish w).position = [] :=
  List.drop_eq_nil_of_le (Nat.le_of_eq String.length_toList)

/-- The tokens of an expression are a `Tiling`: the scanned ones are `Tiles`, and the mark of the
end stands behind the last character, where nothing is left to spell. -/
theorem tiling_of_tokenize {w : String} {all : List Token} (h : tokenize w = .ok all) :
    Tiling w all := by
  have hrising := pairwise_of_tokenize h
  obtain ⟨ts, hts, rfl⟩ := map_eq_ok_iff.1 h
  have htiles : Tiles 0 w.toList ts := tiles_of_scan hts
  refine ⟨hrising, ?apart, List.getLast?_concat, ?slice, ?blank, ?lexeme, ?longest, ?uncut⟩
  case apart =>
    -- the mark of the end begins where the text stops, so behind every scanned token
    refine List.pairwise_append.2 ⟨htiles.apart, List.pairwise_singleton _ _, fun t ht u hu => ?_⟩
    have hle := htiles.end_le ht
    rw [Nat.zero_add, String.length_toList] at hle
    rw [List.mem_singleton.1 hu]
    exact hle
  case slice =>
    intro t ht
    rcases List.mem_append.1 ht with ht | ht
    · obtain ⟨rest, hdrop, -⟩ := htiles.exists_drop_eq ht
      rw [hdrop, ← String.length_toList, List.take_left]
    · rw [List.mem_singleton.1 ht]
      rfl
  case blank =>
    intro i c hc houtside
    -- a character outside all tokens is outside the scanned ones, which are the tiles
    refine htiles.isBlank_of_outside hc fun t ht => ?_
    rw [Nat.zero_add]
    exact houtside t (List.mem_append_left _ ht)
  case lexeme =>
    intro t ht
    rw [List.dropLast_concat] at ht
    obtain ⟨rest, -, hfront⟩ := htiles.exists_drop_eq ht
    exact hfront.lexeme
  case longest =>
    intro t ht k text hlexeme hbegins
    -- the longest lexeme is a fact of each front; at the mark of the end only an empty text begins
    rcases List.mem_append.1 ht with ht | ht
    · obtain ⟨rest, hdrop, hfront⟩ := htiles.exists_drop_eq ht
      rw [hdrop] at hbegins
      rw [← String.length_toList]
      exact hfront.longest hlexeme hbegins
    · rw [List.mem_singleton.1 ht, drop_finish, List.prefix_nil] at hbegins
      exact absurd hbegins hlexeme.ne_nil
  case uncut =>
    intro t ht c tail hdrop
    rw [← List.drop_drop] at hdrop
    rcases List.mem_append.1 ht with ht | ht
    · obtain ⟨rest, hfront, huncut⟩ := htiles.exists_drop_eq ht
      rw [hfront, ← String.length_toList, List.drop_left] at hdrop
      exact huncut.uncut c tail hdrop
    · rw [List.mem_singleton.1 ht, drop_finish, List.drop_nil] at hdrop
      cases hdrop

/-- The character at fault is the first one behind the tiles, and what stands before it is scanned
by itself. -/
theorem blocked_of_tokenize {w : String} {s : Stray} (h : tokenize w = .error s) : Blocked w s := by
  have hscan : scan 0 w.toList = .error s := by
    unfold tokenize lexemes at h
    cases hs : scan 0 w.toList with
    | ok ts =>
      rw [hs] at h
      cases h
    | error s' =>
      rw [hs] at h
      cases h
      rfl
  -- the text in front has tiles of its own, so it is scanned as it stands
  obtain ⟨before, tail, hw, hposition, ⟨ts, hts⟩, hnot⟩ := exists_stray hscan
  rw [Nat.zero_add] at hposition
  refine ⟨?_, ⟨ts ++ [finish (String.ofList before)], ?_⟩, ?_⟩
  · rw [hw, hposition]
    simp
  · rw [hw, hposition, List.take_left, tokenize, lexemes, String.toList_ofList,
      scan_eq_ok_iff.2 hts]
    rfl
  · rw [hw, hposition, List.drop_left]
    exact hnot

/-- **The tokens of an expression tile it by longest match, and an expression without tokens has
them up to a character at which nothing starts.** -/
theorem tokenize_tiles (w : String) :
    match tokenize w with
    | .ok all => Tiling w all
    | .error s => Blocked w s := by
  split
  · next all h => exact tiling_of_tokenize h
  · next s h => exact blocked_of_tokenize h

/-! ## Two expressions with a blank between them -/

/-- A token at a place that is further back in a text. -/
def moved (n : Nat) (t : Token) : Token :=
  { t with position := n + t.position }

theorem Tiles.moved {position : Nat} {cs : List Char} {ts : List Token} (h : Tiles position cs ts)
    (n : Nat) : Tiles (n + position) cs (ts.map (moved n)) := by
  induction h with
  | nil position => exact .nil (n + position)
  | blank hblank _ ih => exact .blank hblank ih
  | token hfront _ ih =>
    rw [← Nat.add_assoc] at ih
    exact .token hfront ih

end KeypadCalc.Token

import Mathlib.Data.List.Forall2
import KeypadCalc.Proofs.Token.Tiling

/-!
# KeypadCalc — tokens and the gaps between them

Written again with other gaps around them, tokens are the same tokens at other places. A token is
cut off by a blank behind it, whatever it was cut off by before: so two tokens may move together up
to a gap of one blank, and the gaps at the two ends may close.

* **`exists_lexemes_spaced`** — the tokens of an expression, spaced anew, are the tokens of what is
  then written.
-/

namespace KeypadCalc.Token

open Text (isBlank)

/-- Tokens that are written alike, wherever they stand. -/
structure Alike (t u : Token) : Prop where
  kind : t.kind = u.kind
  text : t.text = u.text

theorem map_eq_of_alike {α : Type} {f : Token → α} (hf : ∀ t u, Alike t u → f t = f u)
    {ts us : List Token} (h : ts.Forall₂ Alike us) : ts.map f = us.map f := by
  induction h with
  | nil => rfl
  | cons htu _ ih => rw [List.map_cons, List.map_cons, hf _ _ htu, ih]

/-- Texts in a row, with a gap in front of each of them and one behind the last. -/
def spaced : (gaps texts : List String) → String
  | [], _ => ""
  | gap :: _, [] => gap
  | gap :: gaps, text :: texts => gap ++ text ++ spaced gaps texts

/-- Gaps around so many texts. They are blank, and between two texts there is no empty one. -/
structure Gaps (n : Nat) (gaps : List String) : Prop where
  length : gaps.length = n + 1
  blank : ∀ gap ∈ gaps, gap.toList.all isBlank = true
  parted : ∀ i, i < n → 0 < i → gaps[i]? ≠ some ""

theorem Gaps.tail {n : Nat} {gap : String} {gaps : List String} (h : Gaps (n + 1) (gap :: gaps)) :
    Gaps n gaps where
  length := Nat.succ.inj h.length
  blank := fun g hg => h.blank g (List.mem_cons_of_mem gap hg)
  parted := fun i hi _ => h.parted (i + 1) (Nat.succ_lt_succ hi) (Nat.succ_pos i)

/-- What stands behind a text starts with a blank, if there is any of it. -/
theorem Gaps.isBlank_behind {gap : String} {gaps texts : List String} {c : Char} {tail : List Char}
    (h : Gaps (texts.length + 1) (gap :: gaps)) (hbehind : (spaced gaps texts).toList = c :: tail) :
    isBlank c = true := by
  cases gaps with
  | nil => cases hbehind
  | cons next gaps =>
    have hblank := List.all_eq_true.1 (h.blank next (by simp))
    cases texts with
    | nil =>
      rw [spaced] at hbehind
      exact hblank c (by simp [hbehind])
    | cons text texts =>
      -- the gap in front of another text is not empty
      have hnext : next ≠ "" := by
        have hparted := h.parted 1 (by simp) Nat.one_pos
        simpa using hparted
      rw [spaced, String.append_assoc, String.toList_append] at hbehind
      cases hchars : next.toList with
      | nil => exact absurd (String.toList_eq_nil_iff.1 hchars) hnext
      | cons d ds =>
        rw [hchars] at hbehind
        obtain rfl : d = c := (List.cons.inj hbehind).1
        exact hblank d (by simp [hchars])

/-- Blanks in front of a text are in none of its tokens. -/
theorem Tiles.blanks {position : Nat} {gap cs : List Char} {ts : List Token}
    (hgap : gap.all isBlank = true) (h : Tiles (position + gap.length) cs ts) :
    Tiles position (gap ++ cs) ts := by
  induction gap generalizing position with
  | nil => exact h
  | cons c gap ih =>
    have hbehind : position + (c :: gap).length = position + 1 + gap.length := by
      rw [List.length_cons]
      omega
    rw [hbehind] at h
    obtain ⟨hc, hgap⟩ : isBlank c = true ∧ gap.all isBlank = true := by
      rwa [List.all_cons, Bool.and_eq_true] at hgap
    exact .blank hc (ih hgap h)

/-- Lexemes in a row are tokens of it. Induction on the lexemes. -/
theorem exists_tiles_spaced {ts : List Token} {gaps : List String}
    (hts : ∀ t ∈ ts, Lexeme t.kind t.text.toList) (h : Gaps ts.length gaps) (position : Nat) :
    ∃ us, Tiles position (spaced gaps (ts.map Token.text)).toList us ∧ ts.Forall₂ Alike us := by
  induction ts generalizing gaps position with
  | nil =>
    obtain ⟨gap, rfl⟩ := List.length_eq_one_iff.1 h.length
    have hgap := Tiles.blanks (h.blank gap (by simp)) (.nil (position + gap.toList.length))
    rw [List.append_nil] at hgap
    exact ⟨[], hgap, .nil⟩
  | cons t ts ih =>
    obtain ⟨gap, gaps, rfl⟩ : ∃ g gs, gaps = g :: gs :=
      List.exists_cons_of_length_eq_add_one h.length
    obtain ⟨us, hus, halike⟩ := ih (fun u hu => hts u (.tail t hu)) h.tail
      (position + gap.toList.length + t.text.toList.length)
    -- behind a token stands a blank or the end, and neither goes on with it
    have hfront : Front t.kind t.text.toList (spaced gaps (ts.map Token.text)).toList := by
      refine ⟨hts t List.mem_cons_self, fun c tail hbehind => ?_⟩
      have hgaps : Gaps ((ts.map Token.text).length + 1) (gap :: gaps) := by
        rwa [List.length_map]
      exact not_continues_of_isBlank (hgaps.isBlank_behind hbehind) t.kind _
    have hall := Tiles.blanks (h.blank gap (by simp)) (.token hfront hus)
    rw [List.map_cons, spaced, String.append_assoc, String.toList_append, String.toList_append]
    exact ⟨_, hall, .cons ⟨rfl, String.ofList_toList.symm⟩ halike⟩

/-- **Tokens with other gaps between them are the same tokens.** -/
theorem exists_lexemes_spaced {w : String} {ts : List Token} {gaps : List String}
    (hw : lexemes w = .ok ts) (h : Gaps ts.length gaps) :
    ∃ us, lexemes (spaced gaps (ts.map Token.text)) = .ok us ∧ ts.Forall₂ Alike us := by
  have htiles : Tiles 0 w.toList ts := tiles_of_scan hw
  have hlexeme : ∀ t ∈ ts, Lexeme t.kind t.text.toList := by
    intro t ht
    obtain ⟨_, _, -, -, hfront⟩ := htiles.exists_front ht
    exact hfront.lexeme
  obtain ⟨us, hus, halike⟩ := exists_tiles_spaced hlexeme h 0
  exact ⟨us, scan_eq_ok_iff.2 hus, halike⟩

end KeypadCalc.Token

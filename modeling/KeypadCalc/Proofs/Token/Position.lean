import KeypadCalc.Proofs.Token.Scan

/-!
# KeypadCalc — the positions of tokens

The tokens of a text stand one behind the other: their positions rise, and none is at or behind the
end of the text, where the mark of the end stands (`pairwise_of_tokenize`). So a position tells a
token, and what stands in front of it (`split_eq_of_position_eq`).
-/

namespace KeypadCalc.Token

/-- The tokens cut from a text that starts at a position stand in it, one behind the other. -/
structure Rising (position size : Nat) (ts : List Token) : Prop where
  ge : ∀ t ∈ ts, position ≤ t.position
  lt : ∀ t ∈ ts, t.position < position + size
  pairwise : ts.Pairwise fun t u => t.position < u.position

/-- The places of the tokens rise, within the length of the text. -/
theorem rising_of_scan {position : Nat} {cs : List Char} {ts : List Token}
    (h : scan position cs = .ok ts) : Rising position cs.length ts := by
  refine scan_ok_induction (P := fun position cs ts => Rising position cs.length ts) ?_ ?_ h
  · intro position
    exact ⟨nofun, nofun, .nil⟩
  · intro position cs p ts hp ih
    have hlen := congrArg List.length (Piece.append_of_ofChars? hp)
    rw [List.length_append] at hlen
    have hpos := List.length_pos_iff.2 (Piece.text_ne_nil hp)
    -- a piece makes one token at its own place, or none
    have hfirst : ∀ t ∈ p.tokens position, t.position = position := by
      intro t ht
      unfold Piece.tokens at ht
      split at ht
      · cases ht
      · rw [List.mem_singleton.1 ht]
    have hsingle : (p.tokens position).Pairwise fun t u => t.position < u.position := by
      unfold Piece.tokens
      split
      · exact .nil
      · exact List.pairwise_singleton _ _
    refine ⟨fun t ht => ?_, fun t ht => ?_, List.pairwise_append.2 ⟨hsingle, ih.pairwise, ?_⟩⟩
    · rcases List.mem_append.1 ht with ht | ht
      · exact Nat.le_of_eq (hfirst t ht).symm
      · have hge := ih.ge t ht
        omega
    · rcases List.mem_append.1 ht with ht | ht
      · have heq := hfirst t ht
        omega
      · have hlt := ih.lt t ht
        omega
    · intro t ht u hu
      have heq := hfirst t ht
      have hge := ih.ge u hu
      omega

/-- **The positions of the tokens of an expression rise, up to the mark of its end.** -/
theorem pairwise_of_tokenize {w : String} {all : List Token} (h : tokenize w = .ok all) :
    all.Pairwise fun t u => t.position < u.position := by
  obtain ⟨ts, hts, rfl⟩ := map_eq_ok_iff.1 h
  have hrising := rising_of_scan hts
  refine List.pairwise_append.2 ⟨hrising.pairwise, List.pairwise_singleton _ _, ?_⟩
  intro t ht u hu
  have hlt := hrising.lt t ht
  rw [String.length_toList] at hlt
  rw [List.mem_singleton.1 hu]
  show t.position < w.length
  omega

variable {before before' after after' : List Token} {t t' : Token}

/-- Where positions rise, the tokens in front of one are those at smaller positions. -/
theorem filter_eq_before
    (h : (before ++ t :: after).Pairwise fun t u => t.position < u.position) :
    (before ++ t :: after).filter (fun u => u.position < t.position) = before := by
  obtain ⟨-, hafter, hbefore⟩ := List.pairwise_append.1 h
  have hfront : before.filter (fun u => u.position < t.position) = before := by
    refine List.filter_eq_self.2 fun u hu => ?_
    simpa using hbefore u hu t List.mem_cons_self
  have hback : (t :: after).filter (fun u => u.position < t.position) = [] := by
    refine List.filter_eq_nil_iff.2 fun u hu => ?_
    rcases List.mem_cons.1 hu with rfl | hu
    · simp
    · have hlt := (List.pairwise_cons.1 hafter).1 u hu
      simpa using Nat.le_of_lt hlt
  rw [List.filter_append, hfront, hback, List.append_nil]

/-- Where positions rise, a position tells a token and what stands in front of it. -/
theorem split_eq_of_position_eq
    (hrise : (before ++ t :: after).Pairwise fun t u => t.position < u.position)
    (hsplit : before ++ t :: after = before' ++ t' :: after')
    (hposition : t.position = t'.position) : before = before' ∧ t = t' := by
  have hbefore := filter_eq_before hrise
  rw [hsplit] at hrise hbefore
  rw [hposition, filter_eq_before hrise] at hbefore
  subst hbefore
  have hrest := List.append_cancel_left hsplit
  exact ⟨rfl, (List.cons.inj hrest).1⟩

end KeypadCalc.Token

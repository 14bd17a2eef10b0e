import Mathlib.Data.List.DropRight
import Mathlib.Data.List.TakeWhile

/-!
# KeypadCalc — where a text ends, and where a run of characters does

Dropping a character from the end of a text, as often as it stands there, takes nothing else away
(`exists_rdropWhile_append`) and leaves a text that does not end in it (`getLast?_rdropWhile_ne`).
Such a text is what is left of itself with the character behind it any number of times
(`rdropWhile_append_replicate`).

A run of characters of a class ends where the text does not go on with one of them (`Ends`): there it
is cut off whole (`takeWhile_of_ends`, `dropWhile_of_ends`).
-/

namespace KeypadCalc.Text

/-! ## A character at the end of a text -/

section Ending

variable (c : Char)

theorem exists_rdropWhile_append (cs : List Char) :
    ∃ count, cs.rdropWhile (· == c) ++ List.replicate count c = cs := by
  have hsame : ∀ d ∈ cs.rtakeWhile (· == c), d = c := by
    intro d hd
    have heq : (d == c) = true := List.mem_rtakeWhile_imp (p := (· == c)) hd
    exact beq_iff_eq.1 heq
  refine ⟨(cs.rtakeWhile (· == c)).length, ?_⟩
  rw [← List.eq_replicate_of_mem hsame]
  exact List.rdropWhile_append_rtakeWhile

theorem getLast?_rdropWhile_ne (cs : List Char) :
    (cs.rdropWhile (· == c)).getLast? ≠ some c := by
  intro hlast
  have hne : cs.rdropWhile (· == c) ≠ [] := by
    intro hnil
    rw [hnil] at hlast
    cases hlast
  have hnot := List.rdropWhile_last_not (· == c) cs hne
  rw [List.getLast?_eq_some_getLast hne, Option.some.injEq] at hlast
  exact hnot (beq_iff_eq.2 hlast)

variable {c}

theorem rdropWhile_append_replicate {cs : List Char} (h : cs.getLast? ≠ some c) (count : Nat) :
    (cs ++ List.replicate count c).rdropWhile (· == c) = cs := by
  induction count with
  | zero =>
    rw [List.replicate_zero, List.append_nil, List.rdropWhile_eq_self_iff]
    intro hne hc
    rw [List.getLast?_eq_some_getLast hne, beq_iff_eq.1 hc] at h
    exact h rfl
  | succ count ih =>
    rw [List.replicate_succ', ← List.append_assoc,
      List.rdropWhile_concat_pos (· == c) _ c (beq_self_eq_true c), ih]

end Ending

/-! ## A run of characters -/

/-- A text that does not go on with a character of a class. -/
def Ends (p : Char → Bool) (cs : List Char) : Prop :=
  ∀ c rest, cs = c :: rest → p c = false

section Runs

variable {p : Char → Bool} {c : Char} {ds rest : List Char}

theorem ends_nil (p : Char → Bool) : Ends p [] :=
  nofun

theorem ends_cons (h : p c = false) (cs : List Char) : Ends p (c :: cs) := by
  rintro _ _ ⟨⟩
  exact h

theorem takeWhile_of_ends (h : ∀ c ∈ ds, p c = true) (hrest : Ends p rest) :
    (ds ++ rest).takeWhile p = ds := by
  rw [List.takeWhile_append_of_pos h]
  cases rest with
  | nil => simp
  | cons c rest => simp [hrest c rest rfl]

theorem dropWhile_of_ends (h : ∀ c ∈ ds, p c = true) (hrest : Ends p rest) :
    (ds ++ rest).dropWhile p = rest := by
  rw [List.dropWhile_append_of_pos h]
  cases rest with
  | nil => simp
  | cons c rest => simp [hrest c rest rfl]

/-- A text without a character is a run of all others. -/
theorem bne_of_not_mem (h : c ∉ ds) : ∀ d ∈ ds, (d != c) = true := by
  intro d hd
  rw [bne_iff_ne]
  rintro rfl
  exact h hd

/-- A run of all characters but one ends where that one stands. -/
theorem ends_bne_cons (c : Char) (cs : List Char) : Ends (· != c) (c :: cs) :=
  ends_cons (p := (· != c)) (bne_self_eq_false c) cs

end Runs

end KeypadCalc.Text

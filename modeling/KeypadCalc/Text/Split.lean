/-!
# KeypadCalc — cutting text at a separator

A text with `n` separators has `n + 1` parts, some of which may be empty; written with the separator
between them the parts are the text again. Parts without a separator in them, written so, are the
parts of the text that is made.
-/

namespace KeypadCalc.Text

def split (separator : Char) : List Char → List (List Char)
  | [] => [[]]
  | c :: rest =>
    if c = separator then [] :: split separator rest
    else match split separator rest with
      | [] => [[c]]
      | part :: parts => (c :: part) :: parts

theorem split_ne_nil (separator : Char) (cs : List Char) : split separator cs ≠ [] := by
  cases cs with
  | nil => simp [split]
  | cons c rest =>
    unfold split
    split
    · simp
    · split <;> simp

/-- The parts, with the separator between them, make up the text. -/
theorem intercalate_split (separator : Char) (cs : List Char) :
    [separator].intercalate (split separator cs) = cs := by
  induction cs with
  | nil => rfl
  | cons c rest ih =>
    cases hs : split separator rest with
    | nil => exact absurd hs (split_ne_nil separator rest)
    | cons part parts =>
      rw [hs] at ih
      by_cases h : c = separator
      · subst h
        cases parts <;> simp_all [split, List.intercalate, List.intersperse]
      · cases parts <;> simp_all [split, List.intercalate, List.intersperse]

variable {separator : Char}

theorem split_of_not_mem {cs : List Char} (h : separator ∉ cs) : split separator cs = [cs] := by
  induction cs with
  | nil => rfl
  | cons c rest ih =>
    rw [split, if_neg (Ne.symm (List.ne_of_not_mem_cons h)), ih (List.not_mem_of_not_mem_cons h)]

theorem split_append_cons {cs : List Char} (h : separator ∉ cs) (rest : List Char) :
    split separator (cs ++ separator :: rest) = cs :: split separator rest := by
  induction cs with
  | nil => rw [List.nil_append, split, if_pos rfl]
  | cons c cs ih =>
    rw [List.cons_append, split, if_neg (Ne.symm (List.ne_of_not_mem_cons h)),
      ih (List.not_mem_of_not_mem_cons h)]

/-- What stands behind the last part is split on its own. -/
theorem split_intercalate_append {parts : List (List Char)} (hne : parts ≠ [])
    (h : ∀ part ∈ parts, separator ∉ part) (rest : List Char) :
    split separator ([separator].intercalate parts ++ separator :: rest) =
      parts ++ split separator rest := by
  induction parts with
  | nil => exact absurd rfl hne
  | cons part parts ih =>
    obtain ⟨hpart, hparts⟩ := List.forall_mem_cons.1 h
    rcases parts with _ | ⟨next, parts⟩
    · rw [List.intercalate_singleton, split_append_cons hpart]
      rfl
    · rw [List.intercalate_cons_cons, List.append_assoc, List.append_assoc, List.singleton_append,
        split_append_cons hpart, ih (List.cons_ne_nil _ _) hparts]
      rfl

theorem split_intercalate {parts : List (List Char)} (hne : parts ≠ [])
    (h : ∀ part ∈ parts, separator ∉ part) :
    split separator ([separator].intercalate parts) = parts := by
  induction parts with
  | nil => exact absurd rfl hne
  | cons part parts ih =>
    obtain ⟨hpart, hparts⟩ := List.forall_mem_cons.1 h
    rcases parts with _ | ⟨next, parts⟩
    · rw [List.intercalate_singleton, split_of_not_mem hpart]
    · rw [List.intercalate_cons_cons, List.append_assoc, List.singleton_append,
        split_append_cons hpart, ih (List.cons_ne_nil _ _) hparts]

end KeypadCalc.Text

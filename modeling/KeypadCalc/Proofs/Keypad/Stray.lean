import KeypadCalc.Proofs.Keypad.Stroke
import KeypadCalc.Proofs.Token.Tiling

/-!
# KeypadCalc — strokes that are no token

The scanner reads the expression of a keypad with no regard to the strokes that write it: a token
may take several strokes, and of two stars typed at once it may take one. What cannot be read is
told by the character alone. Digits, signs and parentheses are tokens or begin one, and so does an
`s`, which is only typed as the start of a root; the scanner never comes to the other letters of a
root, as no token ends with the letter in front of one (`Tiles.not_letter`).

* **`stray_is_lone_point`** — the expression of a keypad has tokens, unless a point is pressed with
  no digit behind it; then such a point is the first thing that is no token.
-/

namespace KeypadCalc.Token

open Text (isBlank isDigit)

/-- The letters that a root is typed with. -/
def rootLetters : List Char :=
  "sqrt".toList

theorem not_mem_rootLetters_of_isDigit {c : Char} (h : isDigit c = true) : c ∉ rootLetters := by
  have hnone : (rootLetters.all fun c => !isDigit c) = true := by decide
  intro hc
  have hletter := List.all_eq_true.1 hnone c hc
  simp [h] at hletter

theorem not_mem_rootLetters_of_isBlank {c : Char} (h : isBlank c = true) : c ∉ rootLetters := by
  have hnone : (rootLetters.all fun c => !isBlank c) = true := by decide
  intro hc
  have hletter := List.all_eq_true.1 hnone c hc
  simp [h] at hletter

/-- A token does not end with a letter: a root ends with its parenthesis. -/
theorem Lexeme.not_letter {k : Kind} {front : List Char} {c : Char}
    (h : Lexeme k (front ++ [c])) : c ∉ rootLetters := by
  generalize htext : front ++ [c] = text at h
  cases h with
  | numeral hwritten =>
    have hc : c ∈ text := by
      rw [← htext]
      simp
    rcases hwritten.isDigit_or_eq c hc with hdigit | rfl
    · exact not_mem_rootLetters_of_isDigit hdigit
    · decide
  | spelled hk =>
    -- the spelling of a root ends in its parenthesis, and no other has letters
    have hlast : k.spelling.getLast? = some c := by
      rw [← htext]
      simp
    cases k with
    | number | finish => exact absurd rfl hk
    | plus | minus | times | divide | power | openGroup | openRoot | closeGroup =>
      cases hlast
      decide

/-- A text made of tokens and blanks does not end with a letter. -/
theorem Tiles.not_letter {position : Nat} {front : List Char} {c : Char} {ts : List Token}
    (h : Tiles position (front ++ [c]) ts) : c ∉ rootLetters := by
  generalize htext : front ++ [c] = cs at h
  induction h generalizing front with
  | nil _ => simp at htext
  | @blank _ b cs _ hblank _ ih =>
    cases front with
    | nil =>
      obtain ⟨rfl, -⟩ := List.cons.inj htext
      exact not_mem_rootLetters_of_isBlank hblank
    | cons _ front => exact ih (List.cons.inj htext).2
  | @token _ k text rest _ hfront _ ih =>
    rcases List.eq_nil_or_concat rest with rfl | ⟨rest, d, rfl⟩
    · rw [List.append_nil] at htext
      subst htext
      exact hfront.lexeme.not_letter
    · -- the last character is behind the first token
      rw [List.concat_eq_append, ← List.append_assoc] at htext
      obtain ⟨-, hlast⟩ := List.append_inj' htext rfl
      obtain rfl : c = d := List.singleton_inj.1 hlast
      exact ih (List.concat_eq_append ..).symm

end KeypadCalc.Token

namespace KeypadCalc.Keypad

open Text (isDigit)
open Token (Starts Tiles rootLetters)

/-- A character that strokes type is typed by one of them. -/
theorem exists_stroke_of_append {σ : List Stroke} {before tail : List Char} {c : Char}
    (h : σ.flatMap Stroke.typed = before ++ c :: tail) :
    ∃ σ₁ x σ₂ u v, σ = σ₁ ++ x :: σ₂ ∧ x.typed = u ++ c :: v ∧
      before = σ₁.flatMap Stroke.typed ++ u ∧ tail = v ++ σ₂.flatMap Stroke.typed := by
  induction σ generalizing before with
  | nil => simp at h
  | cons x σ ih =>
    rw [List.flatMap_cons] at h
    rcases List.append_eq_append_iff.1 h with ⟨more, rfl, hmore⟩ | ⟨more, hx, hmore⟩
    · -- behind the first stroke
      obtain ⟨σ₁, y, σ₂, u, v, rfl, hy, rfl, rfl⟩ := ih hmore
      exact ⟨x :: σ₁, y, σ₂, u, v, rfl, hy, by simp, rfl⟩
    · cases more with
      | nil =>
        -- at the end of the first stroke
        have hback : σ.flatMap Stroke.typed = [] ++ c :: tail := hmore.symm
        obtain ⟨σ₁, y, σ₂, u, v, rfl, hy, hu, rfl⟩ := ih hback
        refine ⟨x :: σ₁, y, σ₂, u, v, rfl, hy, ?_, rfl⟩
        rw [List.flatMap_cons, List.append_assoc, ← hu, hx]
        simp
      | cons d more =>
        obtain ⟨rfl, rfl⟩ := List.cons.inj hmore
        exact ⟨[], x, σ, before, more, rfl, hx, rfl, rfl⟩

/-- A token starts with every character that is typed other than by a point or a root. -/
theorem Stroke.starts_of_mem {x : Stroke} {c : Char} (hpoint : x ≠ .point) (hroot : x ≠ .root)
    (hc : c ∈ x.typed) (rest : List Char) : Starts (c :: rest) := by
  have hsign : ∀ o : Operator, (o.typed.toList.all fun c => "+-*/()".toList.contains c) = true := by
    intro o
    cases o <;> decide
  have hdigit : ∀ d : Fin 10, isDigit (digitChar d) = true := by decide
  -- each character of a sign is itself a token, as a digit and a parenthesis are
  cases x with
  | point => exact absurd rfl hpoint
  | root => exact absurd rfl hroot
  | digit d =>
    obtain rfl := List.mem_singleton.1 hc
    exact .digit (hdigit d) rest
  | close =>
    obtain rfl := List.mem_singleton.1 hc
    exact .sign (by decide) rest
  | operator o => exact .sign (List.contains_iff_mem.1 (List.all_eq_true.1 (hsign o) c hc)) rest

/-- In front of a character of a root there is nothing of it, or a letter. -/
theorem root_eq_append {u v : List Char} {c : Char} (h : Stroke.root.typed = u ++ c :: v) :
    (u = [] ∧ c :: v = Stroke.root.typed) ∨ ∃ u' l, u = u' ++ [l] ∧ l ∈ rootLetters := by
  rcases List.eq_nil_or_concat u with rfl | ⟨u', l, rfl⟩
  · exact .inl ⟨rfl, h.symm⟩
  · right
    refine ⟨u', l, List.concat_eq_append .., ?_⟩
    have hfront : rootLetters = (u'.concat l ++ c :: v).dropLast := by
      rw [← h]
      rfl
    rw [hfront, List.dropLast_append_of_ne_nil (List.cons_ne_nil c v)]
    simp

/-- Where typed strokes are no tokens, a point stands with no digit behind it. -/
theorem stray_of_strokes {σ : List Stroke} {position : Nat} {s : Token.Stray}
    (h : Token.scan position (σ.flatMap Stroke.typed) = .error s) :
    ∃ σ₁ σ₂, σ = σ₁ ++ .point :: σ₂ ∧ s.char = '.' ∧
      s.position = position + (σ₁.flatMap Stroke.typed).length ∧
      ∀ d tail, σ₂.flatMap Stroke.typed = d :: tail → isDigit d = false := by
  obtain ⟨before, tail, htext, hposition, ⟨ts, htiles⟩, hnot⟩ := Token.exists_stray h
  -- the character at fault belongs to one stroke; each but a lone point starts a token there
  obtain ⟨σ₁, x, σ₂, u, v, rfl, hx, rfl, rfl⟩ := exists_stroke_of_append htext
  by_cases hpoint : x = .point
  · subst hpoint
    obtain ⟨rfl, hchar, rfl⟩ : u = [] ∧ s.char = '.' ∧ v = [] := by
      cases u with
      | nil => simpa [Stroke.typed, eq_comm] using hx
      | cons d u => simp [Stroke.typed] at hx
    rw [List.append_nil] at hposition
    refine ⟨σ₁, σ₂, rfl, hchar, hposition, fun d tail htail => ?_⟩
    rw [Bool.eq_false_iff]
    intro hdigit
    rw [hchar, htail] at hnot
    exact hnot (.point hdigit tail)
  · exfalso
    by_cases hroot : x = .root
    · subst hroot
      -- in a root, either its first letter stands there or the text in front ends in a letter
      rcases root_eq_append hx with ⟨-, hstart⟩ | ⟨u', l, rfl, hl⟩
      · rw [← List.cons_append, hstart] at hnot
        exact hnot (.root _)
      · rw [← List.append_assoc] at htiles
        exact htiles.not_letter hl
    · have hmem : s.char ∈ x.typed := by
        rw [hx]
        simp
      exact hnot (Stroke.starts_of_mem hpoint hroot hmem _)

/-- At a place of a text a point stands with no digit behind it. -/
def LonePoint (cs : List Char) (position : Nat) : Prop :=
  cs[position]? = some '.' ∧ ∀ d, cs[position + 1]? = some d → isDigit d = false

/-- The point of a stroke is a lone one where no digit is typed behind it. -/
theorem lonePoint_of_strokes {σ₁ σ₂ : List Stroke}
    (hdigit : ∀ d tail, σ₂.flatMap Stroke.typed = d :: tail → isDigit d = false) :
    LonePoint ((σ₁ ++ .point :: σ₂).flatMap Stroke.typed) (σ₁.flatMap Stroke.typed).length := by
  have htext : (σ₁ ++ .point :: σ₂).flatMap Stroke.typed =
      σ₁.flatMap Stroke.typed ++ '.' :: σ₂.flatMap Stroke.typed := by
    simp [Stroke.typed]
  rw [htext]
  refine ⟨by simp, fun d hd => ?_⟩
  rw [List.getElem?_append_right (by omega), Nat.add_sub_cancel_left,
    List.getElem?_cons_succ] at hd
  -- the character behind the point is the first of the strokes that follow
  cases hback : σ₂.flatMap Stroke.typed with
  | nil => simp [hback] at hd
  | cons e tail =>
    rw [hback] at hd
    obtain rfl : e = d := by simpa using hd
    exact hdigit e tail hback

/-- **What is typed on a keypad is tokens, but for a point with no digit behind it.** Any keys lead
to a state, where the calculator answers or refuses. Where the expression of a state has no tokens,
the place at fault is one where the point key was pressed; so it is neither in front of a digit, an
operator, a parenthesis or a root, nor inside one. -/
theorem stray_is_lone_point (service : Calculator.Service) (maxDigits : Int) (id : String)
    (keys : List Key) (w : Surroundings) :
    (AnswersOrRefuses service →
      ∃ s, ((pressAll service maxDigits (.blank id) keys).run w).1 = .ok s) ∧
    ∀ s, ((pressAll service maxDigits (.blank id) keys).run w).1 = .ok s →
      (∃ ts, Token.tokenize s.expression = .ok ts) ∨
      ∃ stray, Token.tokenize s.expression = .error stray ∧ stray.char = '.' ∧
        LonePoint s.expression.toList stray.position ∧
        ∃ σ₁ σ₂, s.WrittenBy (σ₁ ++ .point :: σ₂) ∧
          Typed keys (σ₁ ++ .point :: σ₂) s.waitingForRoot ∧
          stray.position = (σ₁.flatMap Stroke.typed).length := by
  refine ⟨fun hservice => exists_pressAll_eq_ok hservice keys, fun s hrun => ?_⟩
  obtain ⟨σ, hσ, htyped⟩ := exists_typed hrun
  cases hscan : Token.scan 0 s.expression.toList with
  | ok ts =>
    left
    exact ⟨ts ++ [Token.finish s.expression], by rw [Token.tokenize, Token.lexemes, hscan]; rfl⟩
  | error stray =>
    right
    have herror : Token.tokenize s.expression = .error stray := by
      rw [Token.tokenize, Token.lexemes, hscan]
      rfl
    -- the scanner stops inside the text of the strokes, at one that is a lone point
    rw [hσ.expression_eq] at hscan
    obtain ⟨σ₁, σ₂, rfl, hchar, hposition, hdigit⟩ := stray_of_strokes hscan
    rw [Nat.zero_add] at hposition
    refine ⟨stray, herror, hchar, ?_, σ₁, σ₂, hσ, htyped, hposition⟩
    rw [hσ.expression_eq, hposition]
    exact lonePoint_of_strokes hdigit

/-- Of `sqrt(.)***` only the point is no token; the stars behind it are, however they were typed. -/
theorem stray_of_point_in_root :
    ∃ s, ((pressAll (Calculator.localService { stack := .usual }) 15 (.blank "s")
        [.root, .point, .multiply, .power]).run {}).1 = .ok s ∧ s.expression = "sqrt(.)***" ∧
      Token.tokenize s.expression = .error ⟨'.', 5⟩ ∧ LonePoint s.expression.toList 5 := by
  have hrun : ((pressAll (Calculator.localService { stack := .usual }) 15 (.blank "s")
      [.root, .point, .multiply, .power]).run {}).1 =
        .ok ⟨"s", "sqrt(.)***", "√.×^", "", false⟩ := eq_ok_of_toOption (by decide +kernel)
  have herror : Token.tokenize "sqrt(.)***" = .error ⟨'.', 5⟩ := by decide +kernel
  obtain ⟨hruns, htells⟩ := stray_is_lone_point (Calculator.localService { stack := .usual }) 15 "s"
    [.root, .point, .multiply, .power] {}
  obtain ⟨s, hs⟩ := hruns (answersOrRefuses_localService { stack := .usual })
  obtain rfl := Except.ok.inj (hrun.symm.trans hs)
  refine ⟨_, hs, rfl, herror, ?_⟩
  rcases htells _ hs with ⟨ts, hts⟩ | ⟨stray, hstray, -, hpoint, -⟩
  · rw [herror] at hts
    cases hts
  · rw [herror] at hstray
    cases hstray
    exact hpoint

end KeypadCalc.Keypad

import KeypadCalc.Proofs.Keypad.Roots

/-!
# KeypadCalc — the expression and its twin

The equation is the expression as it is displayed. Spelled out sign by sign (`spelledOut`), it is the
expression without the parentheses that close roots, for these are not shown. And those parentheses
never close more than is open: at no place of the expression have more been closed than opened, and
while a root is pending fewer have (`expression_spells_equation`). The count is `openParens`, which
fails where a parenthesis closes nothing; that it succeeds is what `Script.openParens_eq` says of
typed strokes.
-/

namespace KeypadCalc.Keypad

open Grammar (groupsBehind openParens openParens_append)

/-- How a character of the equation stands in the expression. -/
def spelledOut : Char → List Char
  | '√' => "sqrt(".toList
  | '^' => ['*', '*']
  | '÷' => ['/']
  | '×' => ['*']
  | c => [c]

/-- What a stroke types is what it shows, spelled out, but for a parenthesis that closes a root. -/
theorem Stroke.filter_typed (x : Stroke) :
    x.typed.filter (· ≠ ')') = x.shown.flatMap spelledOut := by
  have hdigit : ∀ d : Fin 10, [digitChar d].filter (· ≠ ')') =
      [digitChar d].flatMap spelledOut := by decide
  cases x with
  | digit d => exact hdigit d
  | point | root | close => decide
  | operator o => cases o <;> decide

/-! ## Parentheses, counted -/

/-- A count that succeeds is the number of parentheses opened, less those closed. -/
theorem count_of_openParens {cs : List Char} {n m : Nat} (h : openParens n cs = some m) :
    n + cs.count '(' = m + cs.count ')' := by
  induction cs generalizing n with
  | nil =>
    have hnm : n = m := Option.some.inj h
    simp [hnm]
  | cons c cs ih =>
    rw [openParens, List.foldlM_cons] at h
    obtain ⟨k, hk, hrest⟩ := Option.bind_eq_some_iff.1 h
    have hcount : k + cs.count '(' = m + cs.count ')' := ih hrest
    unfold groupsBehind at hk
    split at hk
    · next hopen =>
      have hkn : n + 1 = k := Option.some.inj hk
      subst hopen
      rw [List.count_cons_self, List.count_cons_of_ne (by decide)]
      omega
    · split at hk
      · next hclose =>
        -- one of the open groups is closed, so there is one
        have hpos : n ≠ 0 := fun hzero => by simp [hzero] at hk
        have hkn : n - 1 = k := by simpa [hpos] using hk
        subst hclose
        rw [List.count_cons_self, List.count_cons_of_ne (by decide)]
        omega
      · next hopen hclose =>
        have hkn : n = k := Option.some.inj hk
        rw [List.count_cons_of_ne hopen, List.count_cons_of_ne hclose]
        omega

/-- Where the count succeeds, no prefix closes more than it opens. -/
theorem count_le_of_isPrefix {cs p : List Char} {m : Nat} (h : openParens 0 cs = some m)
    (hp : p <+: cs) : p.count ')' ≤ p.count '(' := by
  obtain ⟨rest, rfl⟩ := hp
  rw [openParens_append] at h
  obtain ⟨k, hk, -⟩ := Option.bind_eq_some_iff.1 h
  have hcount := count_of_openParens hk
  omega

/-! ## Runs -/

/-- **The expression spells the equation out**, and its parentheses never close more than is open,
and less while a root is pending. -/
theorem expression_spells_equation {service : Calculator.Service}
    (hservice : AnswersOrRefuses service) (maxDigits : Int) (id : String) (keys : List Key)
    (w : Surroundings) :
    ∃ s, ((pressAll service maxDigits (.blank id) keys).run w).1 = .ok s ∧
      s.expression.toList.filter (· ≠ ')') = s.equation.toList.flatMap spelledOut ∧
      (∀ p, p <+: s.expression.toList → p.count ')' ≤ p.count '(') ∧
      (s.waitingForRoot = true →
        s.expression.toList.count ')' < s.expression.toList.count '(') := by
  obtain ⟨s, hs⟩ : ∃ s, ((pressAll service maxDigits (.blank id) keys).run w).1 = .ok s :=
    exists_pressAll_eq_ok hservice keys
  obtain ⟨σ, hσ, htyped⟩ := exists_typed hs
  obtain ⟨hparens, hpending⟩ := htyped.script.openParens_eq
  refine ⟨s, hs, ?_, ?_, ?_⟩
  · -- stroke by stroke
    rw [hσ.expression_eq, hσ.equation_eq, List.filter_flatMap, List.flatMap_assoc]
    exact List.flatMap_congr fun x _ => x.filter_typed
  · rw [hσ.expression_eq]
    exact fun p => count_le_of_isPrefix hparens
  · intro hwaiting
    have hopen := hpending hwaiting
    have hcount := count_of_openParens hparens
    rw [hσ.expression_eq]
    omega

/-- Of two roots one is closed and one is pending. -/
theorem expression_of_root_times_root :
    AnswersOrRefuses (Calculator.localService { stack := .usual }) ∧
      ∃ s, ((pressAll (Calculator.localService { stack := .usual }) 15 (.blank "s")
          [.root, .nine, .multiply, .root, .doubleZero, .two]).run {}).1 = .ok s ∧
        s.expression = "sqrt(9)*sqrt(002" ∧ s.equation = "√9×√002" ∧
        "sqrt(9*sqrt(002".toList = s.equation.toList.flatMap spelledOut ∧
        s.expression.toList.count ')' < s.expression.toList.count '(' := by
  have hservice := answersOrRefuses_localService { stack := .usual }
  obtain ⟨s, hs, hspelled, -, hpending⟩ := expression_spells_equation hservice 15 "s"
    [.root, .nine, .multiply, .root, .doubleZero, .two] {}
  have hrun : ((pressAll (Calculator.localService { stack := .usual }) 15 (.blank "s")
      [.root, .nine, .multiply, .root, .doubleZero, .two]).run {}).1 =
        .ok ⟨"s", "sqrt(9)*sqrt(002", "√9×√002", "", true⟩ := eq_ok_of_toOption (by decide +kernel)
  -- the state that the theorem speaks of is the one played here
  have hstate : s = ⟨"s", "sqrt(9)*sqrt(002", "√9×√002", "", true⟩ :=
    Except.ok.inj (hs.symm.trans hrun)
  subst hstate
  refine ⟨hservice, _, hrun, rfl, rfl, ?_, hpending rfl⟩
  rw [← hspelled]
  decide

end KeypadCalc.Keypad

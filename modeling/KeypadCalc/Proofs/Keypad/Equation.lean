import KeypadCalc.Proofs.Keypad.Stroke
import KeypadCalc.Proofs.Token.Operators

/-!
# KeypadCalc — the operators displayed and the operators read

The expression of a keypad is read by longest match, so that two multiplication signs in a row, each
a star, are read as one power sign. `RunsTogether` says of an equation that this happens in it: a
multiplication sign is directly followed by another sign that is typed with stars. The operators
read are those displayed exactly where it does not (`operators_eq_displayed_iff`).
-/

namespace KeypadCalc.Keypad

open Token (operators operatorsOf operatorStarts)

/-- The operator or root that a sign of the equation stands for. -/
def signKind? : Char → Option Token.Kind
  | '√' => some .openRoot
  | '^' => some .power
  | '÷' => some .divide
  | '×' => some .times
  | '-' => some .minus
  | '+' => some .plus
  | _ => none

/-- The operators and roots that an equation displays, in order. -/
def displayed (equation : List Char) : List Token.Kind :=
  equation.filterMap signKind?

/-- A multiplication sign is directly followed by a sign that is typed with stars. -/
def RunsTogether (equation : List Char) : Prop :=
  ['×', '×'] <:+: equation ∨ ['×', '^'] <:+: equation

instance (equation : List Char) : Decidable (RunsTogether equation) :=
  inferInstanceAs (Decidable (_ ∨ _))

/-! ## Where signs run together -/

theorem pair_infix_cons_iff {a b c : Char} {cs : List Char} :
    [a, b] <:+: c :: cs ↔ (a = c ∧ [b] <+: cs) ∨ [a, b] <:+: cs := by
  rw [List.infix_cons_iff, List.cons_prefix_cons]

theorem not_runsTogether_nil : ¬ RunsTogether [] := by
  decide

theorem runsTogether_cons_of_ne {c : Char} (h : c ≠ '×') (cs : List Char) :
    RunsTogether (c :: cs) ↔ RunsTogether cs := by
  unfold RunsTogether
  rw [pair_infix_cons_iff, pair_infix_cons_iff]
  simp [h.symm]

theorem runsTogether_times_cons {c : Char} {cs : List Char} :
    RunsTogether ('×' :: c :: cs) ↔ c = '×' ∨ c = '^' ∨ RunsTogether (c :: cs) := by
  have hpair : ∀ b, ['×', b] <:+: '×' :: c :: cs ↔ c = b ∨ ['×', b] <:+: c :: cs := by
    intro b
    rw [pair_infix_cons_iff]
    simp [List.cons_prefix_cons, eq_comm]
  unfold RunsTogether
  rw [hpair, hpair, or_or_or_comm, or_assoc]

/-! ## Strokes, read and displayed -/

/-- A stroke other than a multiplication sign is read as it is displayed, whatever is typed next. -/
theorem operatorsOf_typed (x : Stroke) (h : x ≠ .operator .multiply) (rest : List Char) :
    operatorsOf (x.typed ++ rest) = displayed x.shown ++ operatorsOf rest := by
  have hdigit : ∀ d : Fin 10, Stroke.digitChar d ∉ operatorStarts ∧
      displayed [Stroke.digitChar d] = [] := by decide
  cases x with
  | digit d =>
    rw [Stroke.shown, (hdigit d).2]
    exact Token.operatorsOf_cons (hdigit d).1 rest
  | point | close => exact Token.operatorsOf_cons (by decide) rest
  | root => rfl
  | operator o =>
    cases o with
    | multiply => exact absurd rfl h
    | power | divide | subtract | add => rfl

theorem displayed_append (a b : List Char) : displayed (a ++ b) = displayed a ++ displayed b :=
  List.filterMap_append

/-- A sign other than that of a multiplication runs together with nothing behind it. -/
theorem runsTogether_shown (x : Stroke) (h : x ≠ .operator .multiply) (rest : List Char) :
    RunsTogether (x.shown ++ rest) ↔ RunsTogether rest := by
  have hdigit : ∀ d : Fin 10, Stroke.digitChar d ≠ '×' := by decide
  cases x with
  | digit d => exact runsTogether_cons_of_ne (hdigit d) rest
  | point | root => exact runsTogether_cons_of_ne (by decide) rest
  | close => rfl
  | operator o =>
    cases o with
    | multiply => exact absurd rfl h
    | power | divide | subtract | add => exact runsTogether_cons_of_ne (by decide) rest

/-- A stroke behind a multiplication sign either runs together with it or leaves it a star of its
own, and shows it. A closing parenthesis, which would leave it and not show it, cannot stand
there. -/
theorem times_before (x : Stroke) (h : x ≠ .close) :
    (∃ o, x = .operator o ∧ (o = .multiply ∨ o = .power)) ∨
      (∃ c cs, x.typed = c :: cs ∧ c ≠ '*') ∧ ∃ c cs, x.shown = c :: cs ∧ c ≠ '×' ∧ c ≠ '^' := by
  have hdigit : ∀ d : Fin 10, Stroke.digitChar d ≠ '*' ∧ Stroke.digitChar d ≠ '×' ∧
      Stroke.digitChar d ≠ '^' := by decide
  cases x with
  | digit d =>
    exact .inr ⟨⟨_, _, rfl, (hdigit d).1⟩, ⟨_, _, rfl, (hdigit d).2⟩⟩
  | point | root => exact .inr ⟨⟨_, _, rfl, by decide⟩, ⟨_, _, rfl, by decide⟩⟩
  | close => exact absurd rfl h
  | operator o =>
    cases o with
    | multiply => exact .inl ⟨_, rfl, .inl rfl⟩
    | power => exact .inl ⟨_, rfl, .inr rfl⟩
    | divide | subtract | add => exact .inr ⟨⟨_, _, rfl, by decide⟩, ⟨_, _, rfl, by decide⟩⟩

/-- Two signs that run together are read as one power sign, and the first of them displays a
product. -/
theorem times_joined {o : Operator} (ho : o = .multiply ∨ o = .power) (typed shown : List Char) :
    operatorsOf ('*' :: ((Stroke.operator o).typed ++ typed)) ≠
        displayed ('×' :: ((Stroke.operator o).shown ++ shown)) ∧
      RunsTogether ('×' :: ((Stroke.operator o).shown ++ shown)) := by
  rcases ho with rfl | rfl
  · refine ⟨fun h => ?_, runsTogether_times_cons.2 (.inl rfl)⟩
    exact absurd (List.cons.inj h).1 (by decide)
  · refine ⟨fun h => ?_, runsTogether_times_cons.2 (.inr (.inl rfl))⟩
    exact absurd (List.cons.inj h).1 (by decide)

/-- A multiplication sign that runs together with nothing is read as it is displayed. -/
theorem times_apart {c d : Char} (hc : c ≠ '*') (hd : d ≠ '×' ∧ d ≠ '^') (typed shown : List Char) :
    (operatorsOf ('*' :: c :: typed) = displayed ('×' :: d :: shown) ↔
        operatorsOf (c :: typed) = displayed (d :: shown)) ∧
      (RunsTogether ('×' :: d :: shown) ↔ RunsTogether (d :: shown)) := by
  have hstar : ∀ tail, c :: typed ≠ '*' :: tail := fun tail h => hc (List.cons.inj h).1
  have hdisplayed : displayed ('×' :: d :: shown) = .times :: displayed (d :: shown) := rfl
  constructor
  · rw [Token.operatorsOf_star hstar, hdisplayed, List.cons_eq_cons]
    exact and_iff_right rfl
  · rw [runsTogether_times_cons]
    simp only [hd.1, hd.2, false_or]

/-- Strokes are read as they are displayed exactly if no signs run together in what they show.
Induction on the strokes from the first one; only a multiplication sign looks at what comes next. -/
theorem operatorsOf_strokes_iff {σ : List Stroke}
    (hclose : ¬ [.operator .multiply, .close] <:+: σ) :
    operatorsOf (σ.flatMap Stroke.typed) = displayed (σ.flatMap Stroke.shown) ↔
      ¬ RunsTogether (σ.flatMap Stroke.shown) := by
  induction σ with
  | nil => exact iff_of_true rfl not_runsTogether_nil
  | cons x σ ih =>
    have ih := ih fun hinfix => hclose (List.infix_cons hinfix)
    rw [List.flatMap_cons, List.flatMap_cons]
    -- only a multiplication can run into what is typed next
    by_cases hx : x = .operator .multiply
    · subst hx
      cases σ with
      | nil => exact iff_of_true rfl (by decide)
      | cons y σ =>
        have hy : y ≠ .close := by
          rintro rfl
          exact hclose ⟨[], σ, rfl⟩
        rw [List.flatMap_cons, List.flatMap_cons] at ih ⊢
        rcases times_before y hy with ⟨o, rfl, ho⟩ | ⟨⟨c, cs, htyped, hc⟩, d, ds, hshown, hd⟩
        · -- an operator behind it: both readings part at once
          obtain ⟨hread, hruns⟩ := times_joined ho (σ.flatMap Stroke.typed)
            (σ.flatMap Stroke.shown)
          exact iff_of_false hread (not_not_intro hruns)
        · rw [htyped, hshown, List.cons_append, List.cons_append] at ih ⊢
          obtain ⟨hread, hruns⟩ := times_apart hc hd (cs ++ σ.flatMap Stroke.typed)
            (ds ++ σ.flatMap Stroke.shown)
          exact hread.trans (ih.trans (not_congr hruns).symm)
    · rw [operatorsOf_typed x hx, displayed_append, runsTogether_shown x hx, ← ih,
        List.append_cancel_left_eq]

/-- No operator stands behind strokes where a root is pending. -/
theorem Script.not_operator_suffix {σ : List Stroke} {pending : Bool} (h : Script σ pending)
    (hp : pending = true) (o : Operator) : ¬ [.operator o] <:+ σ := by
  intro hsuffix
  obtain ⟨τ, rfl⟩ := hsuffix
  generalize hσ : τ ++ [Stroke.operator o] = σ at h
  cases h with
  | blank => cases hp
  | digit _ d => exact absurd (List.append_inj_right' hσ rfl) (by simp)
  | point _ => exact absurd (List.append_inj_right' hσ rfl) (by simp)
  | root _ => exact absurd (List.append_inj_right' hσ rfl) (by simp)
  | close _ => cases hp
  | operator _ _ => cases hp

/-- A closing parenthesis never stands right behind an operator. -/
theorem Script.not_operator_close {σ : List Stroke} {pending : Bool} (h : Script σ pending)
    (o : Operator) : ¬ [.operator o, .close] <:+: σ := by
  -- a pair that is new has the last stroke as its second
  have hlast : ∀ {σ : List Stroke} {x : Stroke}, ¬ [.operator o, .close] <:+: σ →
      (x = .close → ¬ [.operator o] <:+ σ) → ¬ [.operator o, .close] <:+: σ ++ [x] := by
    intro σ x hσ hx hinfix
    rcases List.infix_concat_iff.1 hinfix with hsuffix | hinfix
    · obtain ⟨τ, hτ⟩ := hsuffix
      have hpair : τ ++ [Stroke.operator o] ++ [Stroke.close] = σ ++ [x] := by
        rw [List.append_assoc]
        exact hτ
      obtain ⟨rfl, hclose⟩ := List.append_inj' hpair rfl
      exact hx (List.cons.inj hclose).1.symm ⟨τ, rfl⟩
    · exact hσ hinfix
  induction h with
  | blank => exact fun h => absurd (List.infix_nil.1 h) (by simp)
  | digit _ d ih => exact hlast ih nofun
  | point _ ih => exact hlast ih nofun
  | root _ ih => exact hlast ih nofun
  -- a root is closed behind an operand only
  | close hpending ih => exact hlast ih fun _ => hpending.not_operator_suffix rfl o
  | operator _ o' ih => exact hlast ih nofun

/-- **The operators read are those displayed, exactly if no signs run together.** -/
theorem operators_eq_displayed_iff {service : Calculator.Service} {maxDigits : Int} {id : String}
    {keys : List Key} {w : Surroundings} {s : State} {ts : List Token}
    (h : ((pressAll service maxDigits (.blank id) keys).run w).1 = .ok s)
    (hts : Token.tokenize s.expression = .ok ts) :
    operators ts = displayed s.equation.toList ↔ ¬ RunsTogether s.equation.toList := by
  obtain ⟨σ, hσ, htyped⟩ := exists_typed h
  obtain ⟨us, hus, rfl⟩ := map_eq_ok_iff.1 hts
  have hfinish : operators (us ++ [Token.finish s.expression]) = operators us := by
    rw [Token.operators_append]
    exact List.append_nil _
  rw [hfinish, Token.operators_of_scan hus, hσ.expression_eq, hσ.equation_eq]
  exact operatorsOf_strokes_iff (htyped.script.not_operator_close .multiply)

/-- A root that is closed by a multiplication sign, and a power behind it, are read as displayed. -/
theorem operators_of_root_times_power :
    ∃ s ts, ((pressAll (Calculator.localService { stack := .usual }) 15 (.blank "s")
        [.root, .nine, .multiply, .two, .power, .three]).run {}).1 = .ok s ∧
      Token.tokenize s.expression = .ok ts ∧ ¬ RunsTogether s.equation.toList ∧
      operators ts = displayed s.equation.toList := by
  have hts : Token.tokenize "sqrt(9)*2**3" = .ok [⟨.openRoot, "sqrt(", 0⟩, ⟨.number, "9", 5⟩,
      ⟨.closeGroup, ")", 6⟩, ⟨.times, "*", 7⟩, ⟨.number, "2", 8⟩, ⟨.power, "**", 9⟩,
      ⟨.number, "3", 11⟩, ⟨.finish, "", 12⟩] := by decide +kernel
  have hrun : ((pressAll (Calculator.localService { stack := .usual }) 15 (.blank "s")
      [.root, .nine, .multiply, .two, .power, .three]).run {}).1 =
        .ok ⟨"s", "sqrt(9)*2**3", "√9×2^3", "", false⟩ := eq_ok_of_toOption (by decide +kernel)
  have hsigns : ¬ RunsTogether "√9×2^3".toList := by decide +kernel
  exact ⟨_, _, hrun, hts, hsigns, (operators_eq_displayed_iff hrun hts).2 hsigns⟩

/-- Two multiplication signs are displayed and one power sign is read. -/
theorem operators_of_two_times :
    ∃ s ts, ((pressAll (Calculator.localService { stack := .usual }) 15 (.blank "s")
        [.two, .multiply, .multiply, .three]).run {}).1 = .ok s ∧
      s.equation = "2××3" ∧ Token.tokenize s.expression = .ok ts ∧ operators ts = [.power] ∧
      displayed s.equation.toList = [.times, .times] := by
  have hts : Token.tokenize "2**3" = .ok [⟨.number, "2", 0⟩, ⟨.power, "**", 1⟩, ⟨.number, "3", 3⟩,
      ⟨.finish, "", 4⟩] := by decide +kernel
  have hrun : ((pressAll (Calculator.localService { stack := .usual }) 15 (.blank "s")
      [.two, .multiply, .multiply, .three]).run {}).1 =
        .ok ⟨"s", "2**3", "2××3", "", false⟩ := eq_ok_of_toOption (by decide +kernel)
  exact ⟨_, _, hrun, rfl, hts, by decide, by decide⟩

end KeypadCalc.Keypad

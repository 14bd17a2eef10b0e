import KeypadCalc.Proofs.Grammar.Calls
import KeypadCalc.Proofs.Outcome
import KeypadCalc.Settings

/-!
# KeypadCalc — limits that are set

Settings never allow more levels than any stack has room for (`maxNestingDepth_le`). So a calculator
under settings answers alike on every machine (`evaluate_limits`).
-/

namespace KeypadCalc

/-- An expression has the same value on every stack, under a limit that a setting can allow. -/
theorem Evaluator.evaluate_stack {maxDepth : Int} (h : maxDepth ≤ deepestSetting)
    (stack other : Stack) (w : String) :
    evaluate stack maxDepth w = evaluate other maxDepth w := by
  have hplaces (s : Stack) : 4 * maxDepth.toNat + 1 ≤ s.calls := by
    have henough := s.enough
    omega
  rw [Calls.Rationed.evaluate_eq_settled, Calls.Rationed.evaluate_eq_settled,
    Calls.settled_evaluate (hplaces stack), Calls.settled_evaluate (hplaces other)]

theorem Issue.le_of_checkBounds {name : String} {least greatest n m : Int}
    (h : checkBounds name least (some greatest) n = .ok m) : m ≤ greatest := by
  unfold checkBounds at h
  split at h
  · cases h
  · dsimp only at h
    split at h
    · cases h
    · next hle =>
      cases h
      omega

namespace Settings

theorem le_of_readInt {sources : Sources} {name : String} {default least greatest n : Int}
    (hdefault : default ≤ greatest)
    (h : sources.readInt name default least (some greatest) = .ok n) : n ≤ greatest := by
  unfold Sources.readInt Sources.read at h
  split at h
  · obtain ⟨m, -, hbounds⟩ := bind_eq_ok_iff.1 h
    exact Issue.le_of_checkBounds hbounds
  · cases h
    exact hdefault

/-- **No setting allows more levels than a stack has room for.** -/
theorem maxNestingDepth_le {environment : Environment} {settings : Settings}
    (h : ofEnvironment environment = .ok settings) :
    settings.maxNestingDepth ≤ Evaluator.deepestSetting := by
  unfold ofEnvironment read at h
  obtain ⟨fromVariable, -, h⟩ := bind_eq_ok_iff.1 h
  cases hcheck : check { environment } fromVariable with
  | error issues =>
    rw [hcheck] at h
    cases h
  | ok found =>
    rw [hcheck] at h
    cases h
    -- the limit on levels is the eighth setting
    obtain ⟨values, hvalues, rfl⟩ := map_eq_ok_iff.1 hcheck
    obtain ⟨-, hvalues⟩ := Checked.both_eq_ok_iff.1 hvalues
    obtain ⟨-, hvalues⟩ := Checked.both_eq_ok_iff.1 hvalues
    obtain ⟨-, hvalues⟩ := Checked.both_eq_ok_iff.1 hvalues
    obtain ⟨-, hvalues⟩ := Checked.both_eq_ok_iff.1 hvalues
    obtain ⟨-, hvalues⟩ := Checked.both_eq_ok_iff.1 hvalues
    obtain ⟨-, hvalues⟩ := Checked.both_eq_ok_iff.1 hvalues
    obtain ⟨-, hvalues⟩ := Checked.both_eq_ok_iff.1 hvalues
    obtain ⟨hdepth, -⟩ := Checked.both_eq_ok_iff.1 hvalues
    exact le_of_readInt (by decide) hdepth

end Settings

/-- **A calculator under settings answers alike on every machine.** -/
theorem Calculator.evaluate_limits {environment : Settings.Environment} {settings : Settings}
    (h : Settings.ofEnvironment environment = .ok settings) (stack other : Evaluator.Stack)
    (text : String) :
    evaluate (settings.limits stack) text = evaluate (settings.limits other) text := by
  have hvalue := Evaluator.evaluate_stack (Settings.maxNestingDepth_le h) stack other
  have hcompute (cleaned : String) :
      compute (settings.limits stack) cleaned = compute (settings.limits other) cleaned := by
    unfold compute
    simp only [Settings.limits, hvalue]
  unfold evaluate
  simp only [hcompute]
  rfl

end KeypadCalc

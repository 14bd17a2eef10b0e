import KeypadCalc.Proofs.Outcome
import KeypadCalc.Proofs.Work
import Mathlib.Data.List.DropRight

/-!
# KeypadCalc — what the calculator answers

The blanks around an expression do not count: without them it has the same answer, but for the text
that stands in the answer (`evaluate_trim`). An answer is made of the value and of what the display
shows for it (`evaluate_eq_ok_iff`). A refusal is of one of three kinds (`kind_of_evaluate_eq_error`)
and is reported with the status of a bad request (`status_of_evaluate_eq_error`).
-/

namespace KeypadCalc

namespace Text

/-- Without the blanks around it a text has none to lose. -/
theorem trimChars_trimChars (cs : List Char) : trimChars (trimChars cs) = trimChars cs := by
  have htrim : ∀ cs, trimChars cs = (cs.dropWhile isBlank).rdropWhile isBlank := fun _ => rfl
  -- what is dropped at the end leaves the front as it is
  have hfront : (trimChars cs).dropWhile isBlank = trimChars cs := by
    refine List.dropWhile_eq_self_iff.2 fun hpos => ?_
    have hstart : trimChars cs <+: cs.dropWhile isBlank := List.rdropWhile_prefix isBlank _
    rw [hstart.getElem hpos]
    exact List.dropWhile_get_zero_not isBlank cs (Nat.lt_of_lt_of_le hpos hstart.length_le)
  rw [htrim (trimChars cs), hfront, htrim, List.rdropWhile_idempotent]

theorem trim_trim (s : String) : trim (trim s) = trim s := by
  have hchars : trimChars (trim s).toList = trimChars s.toList := by
    rw [toList_trim, trimChars_trimChars]
  exact congrArg String.ofList hchars

theorem trimBy_eq_self {p : Char → Bool} {cs : List Char} (h : ∀ c ∈ cs, p c = false) :
    trimBy p cs = cs := by
  have hfront : cs.dropWhile p = cs := by
    refine List.dropWhile_eq_self_iff.2 fun hpos => ?_
    rw [h _ (List.getElem_mem hpos)]
    decide
  have hback : cs.rdropWhile p = cs := by
    refine List.rdropWhile_eq_self_iff.2 fun hne => ?_
    rw [h _ (List.getLast_mem hne)]
    decide
  show (cs.dropWhile p).rdropWhile p = cs
  rw [hfront, hback]

theorem trim_eq_self {s : String} (h : ∀ c ∈ s.toList, isBlank c = false) : trim s = s := by
  rw [trim, trimChars, trimBy_eq_self h, String.ofList_toList]

theorem mem_of_mem_trim {s : String} {c : Char} (h : c ∈ (trim s).toList) : c ∈ s.toList := by
  rw [toList_trim] at h
  have hfront := (List.rdropWhile_prefix isBlank (s.toList.dropWhile isBlank)).subset h
  exact (List.dropWhile_suffix isBlank).subset hfront

/-- Nothing is left of a text exactly if it is all blank. -/
theorem trim_isEmpty (s : String) : (trim s).isEmpty = s.toList.all isBlank := by
  have hnil : trimChars s.toList = [] ↔ ∀ c ∈ s.toList, isBlank c = true := by
    show (s.toList.dropWhile isBlank).rdropWhile isBlank = [] ↔ _
    rw [List.rdropWhile_eq_nil_iff]
    constructor
    · intro h
      rw [← List.takeWhile_append_dropWhile (p := isBlank) (l := s.toList)]
      intro c hc
      rcases List.mem_append.1 hc with hfront | hrest
      · exact List.mem_takeWhile_imp hfront
      · exact h c hrest
    · intro h c hc
      exact h c (List.dropWhile_subset isBlank hc)
  rw [Bool.eq_iff_iff, List.all_eq_true, ← hnil, String.isEmpty_iff, ← String.toList_inj,
    toList_trim, String.toList_empty]

end Text

namespace Calculator

variable {limits : Limits} {text : String}

theorem accept_trim (limits : Limits) (text : String) :
    accept limits (Text.trim text) = accept limits text := by
  rw [accept, accept, Text.trim_trim]

/-- Without the blanks around it an expression has the same answer, for the shorter text. -/
theorem evaluate_trim (limits : Limits) (text : String) :
    evaluate limits (Text.trim text) =
      (evaluate limits text).map fun a => { a with expression := Text.trim text } := by
  rw [evaluate, evaluate, accept_trim]
  cases accept limits text with
  | error e => rfl
  | ok cleaned =>
    show (compute limits cleaned >>= _) = (compute limits cleaned >>= _).map _
    cases compute limits cleaned <;> rfl

theorem evaluate_of_blank (h : (Text.trim text).isEmpty = true) :
    evaluate limits text = .error .emptyExpression := by
  rw [evaluate, accept, if_pos h]
  rfl

/-- The kinds of failure that an expression can lead to by itself. -/
def failureKinds : List Failure.Kind :=
  [.invalidExpression, .divisionByZero, .nonFiniteResult]

/-- The checks refuse with one of the declared kinds. -/
theorem kind_of_accept_eq_error {error : CalculatorError}
    (h : accept limits text = .error error) : error.failure.kind ∈ failureKinds := by
  rw [accept] at h
  split at h
  · cases h
    decide
  · split at h
    · cases h
      exact List.mem_cons_self
    · cases h

theorem kind_of_compute_eq_error {cleaned : String} {error : CalculatorError}
    (h : compute limits cleaned = .error error) : error.failure.kind ∈ failureKinds := by
  unfold compute at h
  split at h
  · next fault _ =>
    cases h
    show fault.kind ∈ failureKinds
    cases fault with
    | divisionByZero => exact List.mem_cons_of_mem _ List.mem_cons_self
    | stray | unexpected | nestingTooDeep => exact List.mem_cons_self
  · split at h
    · cases h
      show Failure.Kind.nonFiniteResult ∈ failureKinds
      decide
    · cases h

/-- What the calculator of this program refuses is at fault itself. -/
theorem kind_of_evaluate_eq_error {error : CalculatorError}
    (h : evaluate limits text = .error error) : error.failure.kind ∈ failureKinds := by
  rcases bind_eq_error_iff.1 h with haccept | ⟨cleaned, -, h⟩
  · exact kind_of_accept_eq_error haccept
  · rcases bind_eq_error_iff.1 h with hcompute | ⟨result, -, h⟩
    · exact kind_of_compute_eq_error hcompute
    · cases h

/-- Every refusal of the calculator of this program has the status of a bad request. -/
theorem status_of_evaluate_eq_error {error : CalculatorError}
    (h : evaluate limits text = .error error) : error.failure.kind.status = 400 := by
  have hall : ∀ kind ∈ failureKinds, kind.status = 400 := by decide
  exact hall _ (kind_of_evaluate_eq_error h)

theorem accept_eq_ok {cleaned : String} (h : accept limits text = .ok cleaned) :
    cleaned = Text.trim text := by
  rw [accept] at h
  split at h
  · cases h
  · split at h
    · cases h
    · exact (Except.ok.inj h).symm

/-- What is computed is the value, and what the display shows for it. -/
theorem compute_eq_ok_iff {cleaned display : String} {x : Float} :
    compute limits cleaned = .ok (x, display) ↔
      Evaluator.evaluate limits.stack limits.maxDepth cleaned = .ok x ∧
        Display.text x = .ok display := by
  constructor
  · intro h
    unfold compute at h
    split at h
    · cases h
    · next value hvalue =>
      split at h
      · cases h
      · next shown hshown =>
        cases h
        exact ⟨hvalue, hshown⟩
  · rintro ⟨hvalue, hdisplay⟩
    unfold compute
    simp only [hvalue, hdisplay]

/-- An answer holds the text as it was given, the value of the expression in it, and the text that
shows that value. -/
theorem evaluate_eq_ok_iff {a : Answer} :
    evaluate limits text = .ok a ↔
      ∃ x, accept limits text = .ok (Text.trim text) ∧
        Evaluator.evaluate limits.stack limits.maxDepth (Text.trim text) = .ok x ∧
        Display.text x = .ok a.display ∧ a.expression = text ∧ a.result = Number.ofFloat x := by
  constructor
  · intro h
    -- the checks, the computation and the answer, one after the other
    obtain ⟨cleaned, haccept, hrest⟩ := bind_eq_ok_iff.1 h
    obtain ⟨⟨x, display⟩, hcompute, hanswer⟩ := bind_eq_ok_iff.1 hrest
    obtain ⟨hvalue, hdisplay⟩ := compute_eq_ok_iff.1 hcompute
    obtain rfl := accept_eq_ok haccept
    cases hanswer
    exact ⟨x, haccept, hvalue, hdisplay, rfl, rfl⟩
  · rintro ⟨x, haccept, hvalue, hdisplay, hexpression, hresult⟩
    refine bind_eq_ok_iff.2 ⟨_, haccept, ?_⟩
    refine bind_eq_ok_iff.2 ⟨(x, a.display), compute_eq_ok_iff.2 ⟨hvalue, hdisplay⟩, ?_⟩
    show Except.ok (⟨text, Number.ofFloat x, a.display⟩ : Answer) = _
    rw [← hexpression, ← hresult]

/-- The calculator at hand has its outcome whatever the surroundings are. -/
theorem localService_run (limits : Limits) (text : String) (w : Surroundings) :
    ((localService limits text).run w).1 =
      ((evaluate limits text).map Answer.raw).mapError .refused := by
  rw [localService]
  generalize ((evaluate limits text).map Answer.raw).mapError Breakdown.refused = outcome
  cases accept limits text <;> rfl

end Calculator

end KeypadCalc

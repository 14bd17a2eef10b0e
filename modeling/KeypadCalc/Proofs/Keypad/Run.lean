import KeypadCalc.Keypad
import KeypadCalc.Proofs.Calculator

/-!
# KeypadCalc — keys pressed one after the other

`pressAll` presses a list of keys. What a key does to the texts of a state is `State.edit`, whatever
the calculator answers, so the texts after a run are those of the keys alone: `State.typeAll` edits
without a calculator, and a run that ends in a state ends in that one but for its answer
(`pressAll_eq_ok`). With a calculator that answers or refuses, as the one at hand does, every run
ends in a state (`exists_pressAll_eq_ok`). The calculator at hand answers alike in all surroundings,
so with it keys lead to one state (`Leads`).
-/

namespace KeypadCalc.Keypad

variable {service : Calculator.Service} {maxDigits : Int} {s t : State} {w : Surroundings}

/-- Presses keys one after the other; a press that breaks down ends the run. -/
def pressAll (service : Calculator.Service) (maxDigits : Int) :
    State → List Key → Work (Except Breakdown State)
  | s, [] => return .ok s
  | s, k :: ks => do
    match ← press service maxDigits s k with
    | .ok next => pressAll service maxDigits next ks
    | .error breakdown => return .error breakdown

/-- What keys do to the texts of a state, one after the other. -/
def State.typeAll (maxDigits : Int) (s : State) (keys : List Key) : State :=
  keys.foldl (State.edit maxDigits) s

/-- A calculator that answers or refuses, and never breaks down in another way. -/
def AnswersOrRefuses (service : Calculator.Service) : Prop :=
  ∀ text w, (∃ a, ((service text).run w).1 = .ok a) ∨
    ∃ error, ((service text).run w).1 = .error (.refused error)

theorem answersOrRefuses_localService (limits : Limits) :
    AnswersOrRefuses (Calculator.localService limits) := by
  intro text w
  rw [Calculator.localService_run]
  cases Calculator.evaluate limits text with
  | ok a => exact .inl ⟨a.raw, rfl⟩
  | error error => exact .inr ⟨error, rfl⟩

/-! ## One press -/

/-- Any key but `=` edits, and touches no surroundings. -/
theorem press_run_of_ne {k : Key} (h : k ≠ .equals) :
    (press service maxDigits s k).run w = (.ok (s.edit maxDigits k), w) := by
  rw [press]
  simp only [if_neg h]
  rfl

/-- The key `=` shows what is answered for the expression that it closes. -/
theorem press_run_equals :
    (press service maxDigits s .equals).run w =
      (((answerFor service s.closeRoot.expression).run w).1.map fun answer =>
          { s.closeRoot with answer },
        ((answerFor service s.closeRoot.expression).run w).2) := by
  rfl

/-- A press that ends in a state edits, and changes the answer at most. -/
theorem press_eq_ok {k : Key} (h : ((press service maxDigits s k).run w).1 = .ok t) :
    ∃ answer, t = { s.edit maxDigits k with answer } := by
  by_cases hk : k = .equals
  · subst hk
    rw [press_run_equals] at h
    obtain ⟨answer, -, rfl⟩ := map_eq_ok_iff.1 h
    exact ⟨answer, rfl⟩
  · rw [press_run_of_ne hk] at h
    cases h
    exact ⟨(s.edit maxDigits k).answer, rfl⟩

/-- What a keypad shows for an outcome of its calculator. -/
def shownFor : Outcome → Except Breakdown RawText
  | .ok a => .ok (a.display.prepend "= ")
  | .error (.refused _) => .ok errorAnswer
  | .error other => .error other

/-- A keypad shows what goes with the outcome of its calculator, and uses the wire for nothing
else. -/
theorem answerFor_of_service (service : Calculator.Service) (expression : String)
    (w : Surroundings) :
    ∃ before : Surroundings, before.wire = w.wire ∧
      ((answerFor service expression).run w).1 = shownFor ((service expression).run before).1 ∧
      ((answerFor service expression).run w).2.wire = ((service expression).run before).2.wire := by
  refine ⟨w.note (.keypadEvaluation expression), w.note_wire _, ?_⟩
  unfold answerFor
  rw [run_bind, Work.note_run, run_bind]
  generalize (service expression).run (w.note (.keypadEvaluation expression)) = result
  obtain ⟨outcome, after⟩ := result
  cases outcome with
  | ok a => exact ⟨rfl, rfl⟩
  | error breakdown =>
    cases breakdown with
    -- exact => a refusal is noted once more, which is not on the wire
    | refused error => exact ⟨rfl, after.note_wire _⟩
    | unfit issues => exact ⟨rfl, rfl⟩
    | overNested | unmade => exact ⟨rfl, rfl⟩

/-- A calculator that does not break down gives something to show. -/
theorem exists_answerFor_eq_ok (h : AnswersOrRefuses service) (expression : String) :
    ∃ answer, ((answerFor service expression).run w).1 = .ok answer := by
  obtain ⟨before, -, hshown, -⟩ := answerFor_of_service service expression w
  rw [hshown]
  rcases h expression before with ⟨a, ha⟩ | ⟨error, herror⟩
  · rw [ha]
    exact ⟨_, rfl⟩
  · rw [herror]
    exact ⟨_, rfl⟩

/-- With such a calculator every press ends in a state. -/
theorem exists_press_eq_ok (h : AnswersOrRefuses service) (maxDigits : Int) (s : State) (k : Key) :
    ∃ t, ((press service maxDigits s k).run w).1 = .ok t := by
  by_cases hk : k = .equals
  · subst hk
    obtain ⟨answer, hanswer⟩ := exists_answerFor_eq_ok (w := w) h s.closeRoot.expression
    rw [press_run_equals, hanswer]
    exact ⟨_, rfl⟩
  · rw [press_run_of_ne hk]
    exact ⟨_, rfl⟩

/-! ## Runs -/

/-- Keys are pressed one after the other, up to the first that breaks down. -/
theorem pressAll_run_cons (k : Key) (ks : List Key) :
    (pressAll service maxDigits s (k :: ks)).run w =
      match (press service maxDigits s k).run w with
      | (.ok next, after) => (pressAll service maxDigits next ks).run after
      | (.error breakdown, after) => (.error breakdown, after) := by
  rw [pressAll, StateT.run_bind]
  rcases (press service maxDigits s k).run w with ⟨result, after⟩
  cases result <;> rfl

/-- What a key does to the texts does not depend on the answer shown. -/
theorem edit_with_answer (maxDigits : Int) (s : State) (answer : RawText) (k : Key) :
    ∃ answer', ({ s with answer } : State).edit maxDigits k =
      { s.edit maxDigits k with answer := answer' } := by
  -- the answer is kept by every key but the one that clears
  have hclose : ({ s with answer } : State).closeRoot = { s.closeRoot with answer } := by
    unfold State.closeRoot
    split <;> rfl
  have hdigits : ∀ digits, ({ s with answer } : State).appendDigits maxDigits digits =
      { s.appendDigits maxDigits digits with answer } := by
    intro digits
    unfold State.appendDigits
    split <;> rfl
  have hzeros : ∀ digits, ({ s with answer } : State).appendZeros maxDigits digits =
      { s.appendZeros maxDigits digits with answer } := by
    intro digits
    unfold State.appendZeros
    split
    · rfl
    · exact hdigits digits
  cases k with
  | clear => exact ⟨"", rfl⟩
  | root | point => exact ⟨answer, rfl⟩
  | equals => exact ⟨answer, hclose⟩
  | power | divide | multiply | subtract | add =>
    refine ⟨answer, ?_⟩
    simp only [State.edit, hclose]
    rfl
  | zero | doubleZero => exact ⟨answer, hzeros _⟩
  | one | two | three | four | five | six | seven | eight | nine => exact ⟨answer, hdigits _⟩

/-- What is typed does not depend on the answer that is there. -/
theorem typeAll_with_answer (maxDigits : Int) (s : State) (answer : RawText) (keys : List Key) :
    ∃ answer', ({ s with answer } : State).typeAll maxDigits keys =
      { s.typeAll maxDigits keys with answer := answer' } := by
  induction keys generalizing s answer with
  | nil => exact ⟨answer, rfl⟩
  | cons k ks ih =>
    obtain ⟨answer', h⟩ := edit_with_answer maxDigits s answer k
    obtain ⟨answer'', ht⟩ := ih (s.edit maxDigits k) answer'
    refine ⟨answer'', ?_⟩
    rw [State.typeAll, List.foldl_cons, h]
    exact ht

/-- **A run ends in what its keys type**, but for the answer. -/
theorem pressAll_eq_ok {keys : List Key}
    (h : ((pressAll service maxDigits s keys).run w).1 = .ok t) :
    ∃ answer, t = { s.typeAll maxDigits keys with answer } := by
  induction keys generalizing s w with
  | nil =>
    cases h
    exact ⟨t.answer, rfl⟩
  | cons k ks ih =>
    rw [pressAll_run_cons] at h
    rcases hpress : (press service maxDigits s k).run w with ⟨result, after⟩
    rw [hpress] at h
    cases result with
    | error breakdown => cases h
    | ok next =>
      -- the rest of the run starts from a state that differs from the edited one in its answer
      obtain ⟨answer, hnext⟩ := press_eq_ok (congrArg Prod.fst hpress)
      obtain ⟨answer', ht⟩ := ih h
      obtain ⟨answer'', htype⟩ :=
        typeAll_with_answer maxDigits (s.edit maxDigits k) answer ks
      refine ⟨answer', ?_⟩
      rw [ht, hnext, htype]
      rfl

/-- A run ends in a state where the calculator answers or refuses. -/
theorem exists_pressAll_eq_ok (h : AnswersOrRefuses service) (keys : List Key) :
    ∃ t, ((pressAll service maxDigits s keys).run w).1 = .ok t := by
  induction keys generalizing s w with
  | nil => exact ⟨s, rfl⟩
  | cons k ks ih =>
    obtain ⟨next, hnext⟩ := exists_press_eq_ok (w := w) h maxDigits s k
    rw [pressAll_run_cons]
    rcases hpress : (press service maxDigits s k).run w with ⟨result, after⟩
    rw [hpress] at hnext
    cases hnext
    exact ih

theorem pressAll_run_append {keys more : List Key} {after : Surroundings}
    (h : (pressAll service maxDigits s keys).run w = (.ok t, after)) :
    (pressAll service maxDigits s (keys ++ more)).run w =
      (pressAll service maxDigits t more).run after := by
  induction keys generalizing s w with
  | nil =>
    cases h
    rfl
  | cons k ks ih =>
    rw [List.cons_append, pressAll_run_cons]
    rw [pressAll_run_cons] at h
    rcases hpress : (press service maxDigits s k).run w with ⟨result, mid⟩
    rw [hpress] at h
    cases result with
    -- cases h => none of the first keys has broken down
    | error breakdown => cases h
    | ok next => exact ih h

/-! ## Runs that are the same in all surroundings -/

/-- Keys lead from a state to another one, whatever the surroundings are. -/
def Leads (service : Calculator.Service) (maxDigits : Int) (s : State) (keys : List Key)
    (t : State) : Prop :=
  ∀ w, ((pressAll service maxDigits s keys).run w).1 = .ok t

theorem Leads.nil (service : Calculator.Service) (maxDigits : Int) (s : State) :
    Leads service maxDigits s [] s :=
  fun _ => rfl

/-- One key more, from the state that the others lead to. -/
theorem Leads.snoc {keys : List Key} {k : Key} {u : State} (h : Leads service maxDigits s keys t)
    (hk : ∀ w, ((press service maxDigits t k).run w).1 = .ok u) :
    Leads service maxDigits s (keys ++ [k]) u := by
  intro w
  rcases hrun : (pressAll service maxDigits s keys).run w with ⟨result, after⟩
  have hresult : result = .ok t := by simpa [hrun] using h w
  subst hresult
  rw [pressAll_run_append hrun, pressAll_run_cons]
  rcases hpress : (press service maxDigits t k).run after with ⟨result, last⟩
  have hlast : result = .ok u := by simpa [hpress] using hk after
  subst hlast
  rfl

/-- Keys do not take a keypad to another session. -/
theorem Leads.sessionId_eq {keys : List Key} (h : Leads service maxDigits s keys t) :
    t.sessionId = s.sessionId := by
  obtain ⟨answer, rfl⟩ := pressAll_eq_ok (h {})
  show (s.typeAll maxDigits keys).sessionId = s.sessionId
  clear h
  induction keys generalizing s with
  | nil => rfl
  | cons k ks ih => exact (ih (s := s.edit maxDigits k)).trans (State.edit_sessionId maxDigits s k)

/-! ## The calculator at hand -/

/-- What a keypad with the calculator at hand shows for an expression. -/
def localAnswer (limits : Limits) (expression : String) : String :=
  match Calculator.evaluate limits expression with
  | .ok a => "= " ++ a.display
  | .error _ => errorAnswer

/-- A state after a key, with the calculator at hand. -/
def State.pressed (limits : Limits) (maxDigits : Int) (s : State) (k : Key) : State :=
  if k = .equals then
    { s.closeRoot with answer := localAnswer limits s.closeRoot.expression }
  else s.edit maxDigits k

/-- With the calculator at hand a press leads to one state, in any surroundings. -/
theorem press_localService (limits : Limits) (maxDigits : Int) (s : State) (k : Key)
    (w : Surroundings) :
    ((press (Calculator.localService limits) maxDigits s k).run w).1 =
      .ok (s.pressed limits maxDigits k) := by
  by_cases hk : k = .equals
  · subst hk
    have hshown : shownFor (((Calculator.evaluate limits s.closeRoot.expression).map
        Answer.raw).mapError .refused) = .ok (localAnswer limits s.closeRoot.expression) := by
      rw [localAnswer]
      cases Calculator.evaluate limits s.closeRoot.expression <;> rfl
    -- the calculator at hand answers alike in all surroundings
    obtain ⟨before, -, hrun, -⟩ := answerFor_of_service
      (Calculator.localService limits) s.closeRoot.expression w
    rw [Calculator.localService_run, hshown] at hrun
    rw [press_run_equals, hrun]
    rfl
  · rw [press_run_of_ne hk, State.pressed, if_neg hk]

/-- The calculator at hand takes a keypad to the same state in all surroundings. -/
theorem exists_press_localService (limits : Limits) (maxDigits : Int) (s : State) (k : Key) :
    ∃ t, ∀ w, ((press (Calculator.localService limits) maxDigits s k).run w).1 = .ok t :=
  ⟨s.pressed limits maxDigits k, press_localService limits maxDigits s k⟩

end KeypadCalc.Keypad

import KeypadCalc.Proofs.Batch.Report
import KeypadCalc.Proofs.Batch.Words

/-!
# KeypadCalc — arguments and input

A batch takes its expressions from its arguments or, one on a line, from its input. Cut into lines
again, the input is the expressions it was written from (`evaluateAll_input`). Every expression ends
one line of the output and holds no end of a line itself, so the expressions can be counted there
(`count_lineEnd_output`).

* **`arguments_agree_iff`** — the arguments and the input come to the same exactly where all of the
  expressions are plain; behind `--` they always do.
-/

namespace KeypadCalc

namespace Batch

/-! ## The same expressions on the input -/

/-- An expression that has a line to itself. -/
structure IsLine (text : String) : Prop where
  notBlank : text.toList.all Text.isBlank = false
  noLineEnd : '\n' ∉ text.toList

/-- An input that holds expressions one on a line; the last line may have an end or not. -/
def Holds (input : String) (es : List String) : Prop :=
  input = "\n".intercalate es ∨ input = "\n".intercalate es ++ "\n"

section Input

variable {es : List String} {input : String} (limits : Limits)

theorem evaluateAll_input (hne : es ≠ []) (hlines : ∀ e ∈ es, IsLine e) (hinput : Holds input es) :
    evaluateAll limits ((Text.split '\n' input.toList).map String.ofList) =
      evaluateAll limits es := by
  have hparts : ∀ part ∈ es.map String.toList, '\n' ∉ part := by
    intro part hpart
    obtain ⟨e, he, rfl⟩ := List.mem_map.1 hpart
    exact (hlines e he).noLineEnd
  have hback : (es.map String.toList).map String.ofList = es := by
    rw [List.map_map]
    exact List.map_id'' (fun _ => String.ofList_toList) es
  have hne' : es.map String.toList ≠ [] := fun h => hne (List.map_eq_nil_iff.1 h)
  -- with a line end behind the last line the input has one line more, which is empty
  rcases hinput with rfl | rfl
  · rw [String.toList_intercalate]
    exact congrArg _ ((congrArg _ (Text.split_intercalate hne' hparts)).trans hback)
  · rw [String.toList_append, String.toList_intercalate]
    have hsplit := Text.split_intercalate_append hne' hparts []
    have hlast : (Text.split '\n' ([] : List Char)).map String.ofList = [""] := rfl
    refine (congrArg (fun parts => evaluateAll limits (parts.map String.ofList)) hsplit).trans ?_
    rw [List.map_append, hback, hlast, evaluateAll_append]
    exact List.append_nil _

end Input

/-! ## Counting the lines of an output -/

section Output

variable (limits : Limits)

theorem lineEnd_not_mem_line {text : String} (h : '\n' ∉ text.toList) :
    '\n' ∉ (entry limits text).line.toList := by
  have hshown : '\n' ∉ (shownAlone limits text).toList := by
    rw [shownAlone]
    cases hvalue : Calculator.evaluate limits text with
    | error error => exact (by decide : '\n' ∉ "Error".toList)
    | ok a =>
      -- a display is a numeral in writing, and no numeral has a line end among its characters
      obtain ⟨n, hn, hdisplay⟩ := Calculator.exists_numeral_of_evaluate hvalue
      intro hmem
      have hnot : ¬ ('\n'.isDigit = true ∨ '\n' ∈ Decimal.Numeral.marks) := by decide
      exact hnot (Decimal.Numeral.isDigit_or_mem_marks hn (hdisplay ▸ hmem))
  rw [line_entry, String.toList_append, String.toList_append]
  intro hmem
  rcases List.mem_append.1 hmem with hfront | hshown'
  · rcases List.mem_append.1 hfront with htext | hsign
    · exact h (Text.mem_of_mem_trim htext)
    · exact absurd hsign (by decide)
  · exact hshown hshown'

theorem count_lineEnd_join {ls : List String} (h : ∀ l ∈ ls, '\n' ∉ l.toList) :
    (String.join (ls.map (· ++ "\n"))).toList.count '\n' = ls.length := by
  induction ls with
  | nil => rfl
  | cons l ls ih =>
    obtain ⟨hl, hls⟩ := List.forall_mem_cons.1 h
    have hend : ("\n".toList).count '\n' = 1 := by decide
    rw [List.map_cons, String.join_cons, String.toList_append, String.toList_append,
      List.count_append, List.count_append, List.count_eq_zero.2 hl, hend, ih hls, List.length_cons]
    omega

/-- Each expression that is not all blank ends one line of the output. -/
theorem count_lineEnd_output {es : List String} (h : ∀ e ∈ es, '\n' ∉ e.toList) (verbose : Bool) :
    (Run.ofEntries verbose (evaluateAll limits es)).output.toList.count '\n' =
      (es.filter (!·.toList.all Text.isBlank)).length := by
  have hlines : ∀ l ∈ lines (evaluateAll limits es), '\n' ∉ l.toList := by
    intro l hl
    rw [lines, evaluateAll_eq, List.map_map] at hl
    obtain ⟨e, he, rfl⟩ := List.mem_map.1 hl
    exact lineEnd_not_mem_line limits (h e (List.mem_filter.1 he).1)
  refine (count_lineEnd_join hlines).trans ?_
  rw [lines, List.length_map, evaluateAll_eq, List.length_map]

end Output

/-! ## Both ways to the same batch -/

section Runs

variable {stack : Evaluator.Stack} {o : LengthOption} {es : List String} {input : String}

theorem expressionsOf_of_nil {a : Arguments} (h : a.expressions = []) (input : String) :
    expressionsOf a input = (Text.split '\n' input.toList).map String.ofList := by
  rw [expressionsOf, if_pos (List.isEmpty_iff.2 h)]

theorem expressionsOf_of_ne_nil {a : Arguments} (h : a.expressions ≠ []) (input : String) :
    expressionsOf a input = a.expressions := by
  rw [expressionsOf, if_neg]
  rwa [List.isEmpty_iff]

/-- A call with the expressions runs as the call without them does on an input that holds them. -/
theorem run_eq_run_of_call {given : List String} (hgiven : Call.ofArguments given = o.call es)
    (hne : es ≠ []) (hlines : ∀ e ∈ es, IsLine e) (hinput : Holds input es)
    (environment : Settings.Environment) (other : String) :
    run stack environment other given = run stack environment input o.arguments := by
  rw [run, run, hgiven, o.ofArguments_eq, LengthOption.call, LengthOption.call]
  rcases o.length with fault | n
  · rfl
  · dsimp only [Except.map]
    rcases Settings.ofEnvironment environment with fault | settings
    · rfl
    · dsimp only
      rw [expressionsOf_of_ne_nil hne, expressionsOf_of_nil rfl,
        evaluateAll_input _ hne hlines hinput]
      rfl

theorem run_eq_done {environment : Settings.Environment} {given : List String} {r : Run}
    (h : run stack environment input given = .done r) :
    ∃ a settings, Call.ofArguments given = .ok (.run a) ∧
      r = .ofEntries a.verbose (evaluateAll (limitsOf stack settings a) (expressionsOf a input)) := by
  rw [run] at h
  split at h
  · cases h
  · cases h
  · next a ha =>
    split at h
    · cases h
    · next settings _ =>
      cases h
      exact ⟨a, settings, ha, rfl⟩

/-- On an input with expressions each of them has its line. -/
theorem count_lineEnd_of_input (hne : es ≠ []) (hlines : ∀ e ∈ es, IsLine e)
    (hinput : Holds input es) {environment : Settings.Environment} {r : Run}
    (h : run stack environment input o.arguments = .done r) :
    r.output.toList.count '\n' = es.length := by
  obtain ⟨a, settings, ha, rfl⟩ := run_eq_done h
  obtain ⟨n, -, hcall⟩ := map_eq_ok_iff.1 (o.ofArguments_eq.symm.trans ha)
  cases hcall
  rw [expressionsOf_of_nil rfl, evaluateAll_input _ hne hlines hinput,
    count_lineEnd_output _ fun e he => (hlines e he).noLineEnd]
  refine congrArg List.length (List.filter_eq_self.2 fun e he => ?_)
  rw [(hlines e he).notBlank]
  rfl

/-- Where an argument is not plain there are fewer lines than arguments. -/
theorem count_lineEnd_lt (hlines : ∀ e ∈ es, IsLine e)
    (hsome : ∃ e ∈ es, Word.isPlain e = false) {environment : Settings.Environment} {r : Run}
    (h : run stack environment "" (o.arguments ++ es) = .done r) :
    r.output.toList.count '\n' < es.length := by
  obtain ⟨a, settings, ha, rfl⟩ := run_eq_done h
  obtain ⟨words, hwords⟩ := o.words_of_ofArguments_append ha
  -- the expressions that are read are the plain words, which are fewer than those given
  obtain ⟨hsub, hless⟩ := Word.plains_sublist hwords
  obtain ⟨n, -, htake⟩ := bind_eq_ok_iff.1 ((o.ofArguments_append hwords).symm.trans ha)
  obtain ⟨xs, hxs, hexpressions⟩ := expressions_take htake
  have hnone : (({} : Taken).withLength n).arguments.expressions = [] := by
    cases n <;> rfl
  rw [hnone, List.nil_append] at hexpressions
  -- with no expression left the empty input is read, which has one blank line
  by_cases hnil : xs = []
  · have hblank : expressionsOf a "" = [""] := by
      rw [expressionsOf, hexpressions, hnil]
      rfl
    obtain ⟨e, he, -⟩ := hsome
    rw [hblank, count_lineEnd_output _ (by decide)]
    exact List.length_pos_of_mem he
  · have hown : expressionsOf a "" = xs :=
      (expressionsOf_of_ne_nil (hexpressions ▸ hnil) "").trans hexpressions
    have hin : ∀ e ∈ xs, '\n' ∉ e.toList := fun e he =>
      (hlines e (hsub.subset (hxs.subset he))).noLineEnd
    rw [hown, count_lineEnd_output _ hin]
    calc (xs.filter _).length ≤ xs.length := List.length_filter_le _ _
      _ ≤ (Word.plains words).length := hxs.length_le
      _ < es.length := hless hsome

/-- **The arguments and the input come to the same exactly where all expressions are plain.** Then
a call with the expressions as its arguments runs as the call without them does on an input that
holds them one on a line, whatever its own input is: also where the settings or the length are
refused. Behind the separator expressions need not be plain. A call that ends by itself on the input
has the same exit code and the same output on the arguments if and only if they are all plain. -/
theorem arguments_agree_iff (stack : Evaluator.Stack) (hne : es ≠ [])
    (hlines : ∀ e ∈ es, IsLine e) (hinput : Holds input es) :
    ((∀ e ∈ es, Word.isPlain e = true) → ∀ environment other,
        run stack environment other (o.arguments ++ es) = run stack environment input o.arguments ∧
          run stack environment other (es ++ o.arguments) = run stack environment input o.arguments) ∧
      (∀ environment other,
        run stack environment other (o.arguments ++ "--" :: es) =
          run stack environment input o.arguments) ∧
      ∀ environment r, run stack environment input o.arguments = .done r →
        ((∃ r', run stack environment "" (o.arguments ++ es) = .done r' ∧
            r'.exitCode = r.exitCode ∧ r'.output = r.output) ↔
          ∀ e ∈ es, Word.isPlain e = true) := by
  have hplain (h : ∀ e ∈ es, Word.isPlain e = true) (environment : Settings.Environment)
      (other : String) :
      run stack environment other (o.arguments ++ es) = run stack environment input o.arguments ∧
        run stack environment other (es ++ o.arguments) = run stack environment input o.arguments :=
    ⟨run_eq_run_of_call (o.ofArguments_append_of_isPlain h) hne hlines hinput environment other,
      run_eq_run_of_call (o.ofArguments_of_isPlain_append h) hne hlines hinput environment other⟩
  refine ⟨hplain, ?_, ?_⟩
  · exact run_eq_run_of_call (o.ofArguments_separator es) hne hlines hinput
  · intro environment r hr
    constructor
    · rintro ⟨r', hr', -, houtput⟩
      by_contra hall
      obtain ⟨e, he⟩ := not_forall.1 hall
      obtain ⟨hmem, he⟩ := Classical.not_imp.1 he
      -- what is not plain has no line of its own, but each line of the input has one
      have hfew := count_lineEnd_lt hlines ⟨e, hmem, Bool.eq_false_iff.2 he⟩ hr'
      rw [houtput, count_lineEnd_of_input hne hlines hinput hr] at hfew
      exact Nat.lt_irrefl _ hfew
    · intro hall
      exact ⟨r, ((hplain hall environment "").1).trans hr, rfl, rfl⟩

end Runs

/-- A sum and a negative number, under a limit of three characters, come to the same on the input
and as arguments behind the option. -/
theorem arguments_agree_on_sum_and_number :
    (∀ e ∈ ["1+1", "-2"], IsLine e) ∧ Holds "1+1\n-2\n" ["1+1", "-2"] ∧
      (∀ e ∈ ["1+1", "-2"], Word.isPlain e = true) ∧
      run .usual [] "" ["--max-length", "3", "1+1", "-2"] =
        run .usual [] "1+1\n-2\n" ["--max-length", "3"] ∧
      run .usual [] "1+1\n-2\n" ["--max-length", "3"] = .done ⟨0, "1+1 = 2\n-2 = -2\n", []⟩ ∧
      ∃ r', run .usual [] "" ["--max-length", "3", "1+1", "-2"] = .done r' ∧
        r'.exitCode = 0 ∧ r'.output = "1+1 = 2\n-2 = -2\n" := by
  have hlines : ∀ e ∈ ["1+1", "-2"], IsLine e := by
    intro e he
    rcases List.mem_pair.1 he with rfl | rfl <;> exact ⟨by decide, by decide⟩
  have hinput : Holds "1+1\n-2\n" ["1+1", "-2"] := .inr (by decide +kernel)
  have hplain : ∀ e ∈ ["1+1", "-2"], Word.isPlain e = true := by decide +kernel
  have hcall : Call.ofArguments ["--max-length", "3"] = .ok (.run ⟨[], some 3, false⟩) := by
    decide +kernel
  have hsettings : Settings.ofEnvironment [] = .ok {} := by decide +kernel
  have hrun : run .usual [] "1+1\n-2\n" ["--max-length", "3"] =
      .done ⟨0, "1+1 = 2\n-2 = -2\n", []⟩ := by
    rw [run_of_call hcall hsettings]
    exact congrArg Ending.done (by decide +kernel)
  obtain ⟨hall, -, hsame⟩ := arguments_agree_iff (o := .apart "3") .usual
    (List.cons_ne_nil "1+1" ["-2"]) hlines hinput
  exact ⟨hlines, hinput, hplain, (hall hplain [] "").1, hrun, (hsame [] _ hrun).2 hplain⟩

/-- A sum that begins with a dash is evaluated on the input and refused among the arguments. -/
theorem dashed_sum_is_refused :
    IsLine "-2+3" ∧ Holds "-2+3\n" ["-2+3"] ∧
      run .usual [] "-2+3\n" [] = .done ⟨0, "-2+3 = 1\n", []⟩ ∧
      run .usual [] "" ["-2+3"] = .misused (.unrecognized ["-2+3"]) := by
  refine ⟨⟨by decide, by decide⟩, .inr (by decide +kernel), ?_, ?_⟩
  · have hcall : Call.ofArguments [] = .ok (.run {}) := by decide
    have hsettings : Settings.ofEnvironment [] = .ok {} := by decide +kernel
    rw [run_of_call hcall hsettings]
    exact congrArg Ending.done (by decide +kernel)
  · have hcall : Call.ofArguments ["-2+3"] = .error (.unrecognized ["-2+3"]) := by decide +kernel
    rw [run, hcall]

end Batch

end KeypadCalc

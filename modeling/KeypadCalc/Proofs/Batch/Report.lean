import KeypadCalc.Batch.Report
import KeypadCalc.Proofs.Guard.Calculator

/-!
# KeypadCalc — a batch by its expressions

Every expression of a batch that is not all blank has an entry of its own, which does not depend on
the others (`evaluateAll_eq`). What the display shows is a decimal, and no decimal ends as a report
of a failure does, so the lines tell which entries have failed (`failureEnding_line`).

`evaluateEach` goes through a batch with a calculator that may trap. It handles the errors that the
calculator declares and no trap. There is none, so it reaches the end of every batch, and has then
the lines and the failures of all entries (`foldlM_next`).

* **`batch_is_sum`** — a batch is the sum of its expressions, and its exit code tells whether one of
  them fails.
-/

namespace KeypadCalc

/-- What is displayed of an answer is a decimal in writing. -/
theorem Calculator.exists_numeral_of_evaluate {limits : Limits} {text : String} {a : Answer}
    (h : evaluate limits text = .ok a) :
    ∃ n : Decimal.Numeral, n.WellFormed ∧ a.display.toList = n.text := by
  obtain ⟨x, -, -, hdisplay, -⟩ := evaluate_eq_ok_iff.1 h
  exact Display.exists_numeral_of_text hdisplay

namespace Batch

open Decimal (Numeral)
open Guard (Trap)

variable (limits : Limits)

/-! ## One expression -/

/-- What a batch shows for an expression that stands in it alone. -/
def shownAlone (text : String) : String :=
  match Calculator.evaluate limits text with
  | .ok a => a.display
  | .error _ => "Error"

/-- The entry of an expression. -/
def entry (text : String) : Entry :=
  ⟨Text.trim text, Calculator.evaluate limits (Text.trim text)⟩

theorem evaluateAll_eq (xs : List String) :
    evaluateAll limits xs = (xs.filter (!·.toList.all Text.isBlank)).map (entry limits) := by
  rw [evaluateAll, List.filter_map, List.map_map]
  refine congrArg (List.map _) (List.filter_congr fun text _ => ?_)
  rw [Function.comp_apply, Text.trim_isEmpty]

/-- The blanks around an expression do not count for what is shown. -/
theorem shown_entry (text : String) : (entry limits text).shown = shownAlone limits text := by
  rw [Entry.shown, entry, shownAlone, Calculator.evaluate_trim]
  cases Calculator.evaluate limits text <;> rfl

/-- A line shows the trimmed text, and what is shown for it alone. -/
theorem line_entry (text : String) :
    (entry limits text).line = Text.trim text ++ " = " ++ shownAlone limits text := by
  rw [Entry.line, shown_entry]
  rfl

theorem isFailed_entry (text : String) :
    (entry limits text).isFailed = true ↔
      ∃ error, Calculator.evaluate limits text = .error error := by
  rw [Entry.isFailed, entry, Calculator.evaluate_trim]
  cases Calculator.evaluate limits text with
  | ok a => exact iff_of_false nofun nofun
  | error error => exact iff_of_true rfl ⟨error, rfl⟩

/-! ## Telling failures by their lines -/

/-- What a line ends in that reports a failure. -/
def failureEnding : List Char :=
  " = Error".toList

/-- No letter of a report stands at the end of what the display shows. -/
theorem not_failureEnding_display {text : String} {a : Answer}
    (h : Calculator.evaluate limits text = .ok a) (front : List Char) :
    ¬ failureEnding <:+ front ++ a.display.toList := by
  obtain ⟨n, hn, hdisplay⟩ := Calculator.exists_numeral_of_evaluate h
  have hne := Numeral.text_ne_nil hn
  rw [hdisplay]
  intro hending
  -- the last character of the line is that of the text on the display
  have hlast : n.text.getLast hne = 'r' := by
    have hsame := hending.getLast (by decide)
    rw [List.getLast_append_of_ne_nil _ hne] at hsame
    exact hsame.symm
  have hnot : ¬ ('r'.isDigit = true ∨ 'r' ∈ Numeral.marks) := by decide
  exact hnot (hlast ▸ Numeral.isDigit_or_mem_marks hn (List.getLast_mem hne))

/-- The display is never mistaken for a report of a failure. -/
theorem shownAlone_eq_error_iff (text : String) :
    shownAlone limits text = "Error" ↔ ∃ error, Calculator.evaluate limits text = .error error := by
  rw [shownAlone]
  cases h : Calculator.evaluate limits text with
  | error error => exact iff_of_true rfl ⟨error, rfl⟩
  | ok a =>
    refine iff_of_false (fun hshown => ?_) nofun
    refine not_failureEnding_display limits h " = ".toList ?_
    rw [show a.display = "Error" from hshown]
    decide

/-- The lines of failed entries are told by their ending: no decimal ends like that. -/
theorem failureEnding_line (text : String) :
    failureEnding.isSuffixOf (entry limits text).line.toList = (entry limits text).isFailed := by
  rw [Bool.eq_iff_iff, isFailed_entry, List.isSuffixOf_iff_suffix, line_entry, shownAlone,
    String.toList_append]
  cases h : Calculator.evaluate limits text with
  | ok a => exact iff_of_false (not_failureEnding_display limits h _) nofun
  | error error =>
    refine iff_of_true ?_ ⟨error, rfl⟩
    have hending : " = ".toList ++ "Error".toList = failureEnding := by decide
    rw [String.toList_append, List.append_assoc]
    show failureEnding <:+ (Text.trim text).toList ++ (" = ".toList ++ "Error".toList)
    rw [hending]
    exact List.suffix_append _ _

/-- The failures are as many as the lines that report one. -/
theorem failures_eq_countP (xs : List String) :
    failures (evaluateAll limits xs) =
      (lines (evaluateAll limits xs)).countP fun line => failureEnding.isSuffixOf line.toList := by
  rw [failures, lines, evaluateAll_eq, List.countP_map, List.countP_map, List.countP_map]
  refine List.countP_congr fun text _ => ?_
  rw [Function.comp_apply, Function.comp_apply, Function.comp_apply, failureEnding_line]

/-! ## One expression after the other -/

/-- The lines of a batch so far, and how many of them report a failure. -/
abbrev Tally := List String × Nat

/-- Goes on to the next expression. An error that the calculator declares is reported; there is no
handler for a trap, which would end the batch. -/
def Tally.next (tally : Tally) (text : String) : Except Trap Tally :=
  let cleaned := Text.trim text
  if cleaned.isEmpty then .ok tally
  else match Guard.calculate limits cleaned with
    | .ok a => .ok (tally.1 ++ [cleaned ++ " = " ++ a.display], tally.2)
    | .error (.declared _) => .ok (tally.1 ++ [cleaned ++ " = " ++ "Error"], tally.2 + 1)
    | .error (.trapped trap) => .error trap

/-- Goes through expressions from the first to the last. -/
def evaluateEach (texts : List String) : Except Trap Tally :=
  texts.foldlM (Tally.next limits) ([], 0)

theorem next_of_blank {text : String} (h : text.toList.all Text.isBlank = true) (tally : Tally) :
    tally.next limits text = .ok tally := by
  rw [← Text.trim_isEmpty] at h
  exact if_pos h

/-- Any other adds its line, and counts if it has failed. -/
theorem next_of_not_blank {text : String} (h : text.toList.all Text.isBlank = false)
    (tally : Tally) :
    tally.next limits text = .ok (tally.1 ++ [(entry limits text).line],
      tally.2 + if (entry limits text).isFailed then 1 else 0) := by
  rw [← Text.trim_isEmpty] at h
  rw [Tally.next]
  refine (if_neg (by simp [h])).trans ?_
  rw [Guard.calculate_eq, Entry.line, Entry.shown, Entry.isFailed, entry]
  cases Calculator.evaluate limits (Text.trim text) <;> rfl

/-- **Nothing ends a batch early**, and the lines and the failures are those of its entries.
Induction on the expressions, of which each adds its own entry. -/
theorem foldlM_next (xs : List String) (tally : Tally) :
    xs.foldlM (Tally.next limits) tally =
      .ok (tally.1 ++ lines (evaluateAll limits xs),
        tally.2 + failures (evaluateAll limits xs)) := by
  induction xs generalizing tally with
  | nil => exact congrArg Except.ok (Prod.ext (List.append_nil _).symm rfl)
  | cons text rest ih =>
    rw [List.foldlM_cons, evaluateAll_eq]
    cases hblank : text.toList.all Text.isBlank with
    -- the filter drops what the loop passes over
    | true =>
      rw [next_of_blank limits hblank, ok_bind, ih, List.filter_cons_of_neg (by simp [hblank]),
        ← evaluateAll_eq]
    | false =>
      rw [next_of_not_blank limits hblank, ok_bind, ih,
        List.filter_cons_of_pos (by simp [hblank]), List.map_cons, ← evaluateAll_eq]
      refine congrArg Except.ok (Prod.ext ?_ ?_)
      · exact List.append_assoc _ _ _
      · show _ = tally.2 + (entry limits text :: evaluateAll limits rest).countP Entry.isFailed
        rw [List.countP_cons, failures]
        omega

/-! ## The whole of a batch -/

/-- An expression of a batch that fails; one of blanks is passed over. -/
def Fails (text : String) : Prop :=
  text.toList.all Text.isBlank = false ∧ ∃ error, Calculator.evaluate limits text = .error error

theorem failures_ne_zero_iff (xs : List String) :
    failures (evaluateAll limits xs) ≠ 0 ↔ ∃ text ∈ xs, Fails limits text := by
  rw [failures, evaluateAll_eq, List.countP_map, ← Nat.pos_iff_ne_zero, List.countP_pos_iff]
  constructor
  · rintro ⟨text, hmem, hfailed⟩
    obtain ⟨hmem, hblank⟩ := List.mem_filter.1 hmem
    exact ⟨text, hmem, by simpa using hblank, (isFailed_entry limits text).1 hfailed⟩
  · rintro ⟨text, hmem, hblank, hfailed⟩
    exact ⟨text, List.mem_filter.2 ⟨hmem, by simpa using hblank⟩,
      (isFailed_entry limits text).2 hfailed⟩

/-- The exit code is one for failures and zero for none. -/
theorem exitCode_ofEntries (verbose : Bool) (xs : List String) :
    ((Run.ofEntries verbose (evaluateAll limits xs)).exitCode = 1 ↔
        ∃ text ∈ xs, Fails limits text) ∧
      (Run.ofEntries verbose (evaluateAll limits xs)).exitCode ≤ 1 := by
  rw [← failures_ne_zero_iff]
  show ((if failures (evaluateAll limits xs) = 0 then 0 else 1) = 1 ↔ _) ∧
    (if failures (evaluateAll limits xs) = 0 then 0 else 1) ≤ 1
  split
  · next hnone => exact ⟨iff_of_false (by decide) (fun h => h hnone), by decide⟩
  · next hsome => exact ⟨iff_of_true rfl hsome, by decide⟩

/-- A run evaluates the expressions of its call under the limits of the settings and of the call. -/
theorem run_of_call {stack : Evaluator.Stack} {environment : Settings.Environment}
    {settings : Settings} {given : List String} {call : Arguments}
    (hcall : Call.ofArguments given = .ok (.run call))
    (hsettings : Settings.ofEnvironment environment = .ok settings) (input : String) :
    run stack environment input given = .done (.ofEntries call.verbose
      (evaluateAll (limitsOf stack settings call) (expressionsOf call input))) := by
  rw [run, hcall, hsettings]

/-- **A batch is the sum of its expressions.** It goes through all of them, whatever they are. Each
that is not all blank has a line, which shows what the expression without the blanks around it comes
to, or that it fails; the failures are as many as the lines that say so. A batch made of two has the
lines of both and the failures of both. A call ends with one as its exit code if an expression of its
batch fails, and else with zero. -/
theorem batch_is_sum (xs ys : List String) :
    evaluateEach limits xs =
        .ok (lines (evaluateAll limits xs), failures (evaluateAll limits xs)) ∧
      lines (evaluateAll limits xs) = (xs.filter (!·.toList.all Text.isBlank)).map
        (fun text => Text.trim text ++ " = " ++ shownAlone limits text) ∧
      (∀ text, shownAlone limits text = "Error" ↔
        ∃ error, Calculator.evaluate limits text = .error error) ∧
      failures (evaluateAll limits xs) = (lines (evaluateAll limits xs)).countP
        (fun line => failureEnding.isSuffixOf line.toList) ∧
      lines (evaluateAll limits (xs ++ ys)) =
        lines (evaluateAll limits xs) ++ lines (evaluateAll limits ys) ∧
      failures (evaluateAll limits (xs ++ ys)) =
        failures (evaluateAll limits xs) + failures (evaluateAll limits ys) ∧
      ∀ stack environment settings given call input, Call.ofArguments given = .ok (.run call) →
        Settings.ofEnvironment environment = .ok settings →
        ∃ r, run stack environment input given = .done r ∧ r.exitCode ≤ 1 ∧
          (r.exitCode = 1 ↔
            ∃ text ∈ expressionsOf call input, Fails (limitsOf stack settings call) text) := by
  refine ⟨?_, ?_, shownAlone_eq_error_iff limits, failures_eq_countP limits xs, ?_, ?_, ?_⟩
  · rw [evaluateEach, foldlM_next, List.nil_append, Nat.zero_add]
  · rw [lines, evaluateAll_eq, List.map_map]
    exact List.map_congr_left fun text _ => line_entry limits text
  · rw [evaluateAll_append, lines, List.map_append]
    rfl
  · rw [evaluateAll_append, failures, List.countP_append]
    rfl
  · -- the exit code counts the failed entries of the expressions that the call names
    intro stack environment settings given call input hcall hsettings
    obtain ⟨hone, hle⟩ := exitCode_ofEntries (limitsOf stack settings call) call.verbose
      (expressionsOf call input)
    exact ⟨_, run_of_call hcall hsettings input, hle, hone⟩

/-- A sum, blanks and a division by zero are a batch of two lines with one failure; a call with them
ends with one. -/
theorem batch_of_sum_and_division :
    evaluateEach ⟨.usual, 1000, 100⟩ ["1+1 ", " ", "1/0"] = .ok (["1+1 = 2", "1/0 = Error"], 1) ∧
      Call.ofArguments ["--max-length", "3", "1+1 ", " ", "1/0"] =
        .ok (.run ⟨["1+1 ", " ", "1/0"], some 3, false⟩) ∧
      Settings.ofEnvironment [] = .ok {} ∧
      ∃ r, run .usual [] "" ["--max-length", "3", "1+1 ", " ", "1/0"] = .done r ∧ r.exitCode = 1 := by
  have hcall : Call.ofArguments ["--max-length", "3", "1+1 ", " ", "1/0"] =
      .ok (.run ⟨["1+1 ", " ", "1/0"], some 3, false⟩) := by decide +kernel
  have hsettings : Settings.ofEnvironment [] = .ok {} := by decide +kernel
  have hlines : lines (evaluateAll ⟨.usual, 1000, 100⟩ ["1+1 ", " ", "1/0"]) =
      ["1+1 = 2", "1/0 = Error"] := by decide +kernel
  have hfailures : failures (evaluateAll ⟨.usual, 1000, 100⟩ ["1+1 ", " ", "1/0"]) = 1 := by
    decide +kernel
  obtain ⟨heach, -, -, -, -, -, hrun⟩ := batch_is_sum ⟨.usual, 1000, 100⟩ ["1+1 ", " ", "1/0"] []
  obtain ⟨r, hr, -, hone⟩ := hrun .usual [] {} _ _ "" hcall hsettings
  refine ⟨?_, hcall, hsettings, r, hr, hone.2 ⟨"1/0", by decide, by decide, ?_⟩⟩
  · rw [heach, hlines, hfailures]
  · exact (shownAlone_eq_error_iff _ _).1 (by decide +kernel)

end Batch

end KeypadCalc

import KeypadCalc.Proofs.Display.Faithful
import KeypadCalc.Proofs.Guard.Cursor

/-!
# KeypadCalc — nothing but declared errors

The calculator put together from operations that may trap: an expression is read with a cursor, and
a whole result is shown, and handed on, as the integer that is cut out of it. Behind their guards
these steps do not fail, so the calculator is what it is without traps (`calculate_eq`): it declares
an error of one of three kinds, or it answers with the value of the expression
(`calculate_is_safe`).
-/

namespace KeypadCalc.Guard

open Binary64 (datum scaled? toInt? value?)
open Calculator (failureKinds)
open Decimal (digits)
open Display (NonFinite)

/-! ## Whole results -/

/-- A whole result is shown as its integer is written. -/
theorem integerText_of_datum {x : Float} {n : Int} {negative : Bool} {m : Nat} {e : Int}
    (hx : datum x = .finite negative m e) (h : toInt? x = some n) :
    integerText n = .ok (Display.plain negative m e) := by
  obtain ⟨k, hk, hn⟩ := (Binary64.toInt?_of_datum hx).1 h
  rw [integerText_of_toInt? h, Display.plain, Display.plainBody_of_scaled? _ hk, Display.withSign,
    ← hn]
  refine congrArg Except.ok ?_
  cases negative with
  | false => rfl
  | true =>
    rw [if_pos rfl, Int.natAbs_neg, Int.natAbs_natCast, Bool.true_and]
    by_cases hzero : k = 0
    · -- zero has no sign
      subst hzero
      rfl
    · have hbody : (digits k != ['0']) = true :=
        bne_iff_ne.2 fun hdigits => hzero (Decimal.digits_eq_zero_iff.1 hdigits)
      rw [hbody, if_pos rfl, if_pos (by omega)]

/-- The plain text of a finite result; that of a whole one is the text of its integer. -/
def plain (x : Float) (negative : Bool) (m : Nat) (e : Int) : Except Trap (List Char) :=
  if isWhole x then truncate x >>= integerText else .ok (Display.plain negative m e)

theorem plain_eq {x : Float} {negative : Bool} {m : Nat} {e : Int}
    (hx : datum x = .finite negative m e) :
    plain x negative m e = .ok (Display.plain negative m e) := by
  unfold plain
  split
  · next hwhole =>
    obtain ⟨n, hn⟩ := isWhole_iff.1 hwhole
    rw [truncate_of_toInt? hn, ok_bind, integerText_of_datum hx hn]
  · rfl

/-- The text of a result. -/
def display (x : Float) : Guarded NonFinite String :=
  match datum x with
  | .nan => .error (.declared .nan)
  | .infinite negative => .error (.declared (.infinite negative))
  | .finite negative m e => do
    let short ← unhandled (plain x negative m e)
    return String.ofList
      (if short.length ≤ Display.style.width then short else Display.scientific negative m e)

/-- A result that is finite can be shown. -/
theorem display_eq (x : Float) : display x = declaring (Display.text x) := by
  unfold display Display.text
  cases hx : datum x with
  | nan => rfl
  | infinite negative => rfl
  | finite negative m e =>
    show (unhandled (plain x negative m e) >>= _) = _
    rw [plain_eq hx]
    rfl

/-- A result as it is handed on. -/
def asNumber (x : Float) : Except Trap Number :=
  if isWhole x then (truncate x).map .int else .ok (.float x)

theorem asNumber_eq (x : Float) : asNumber x = .ok (Number.ofFloat x) := by
  unfold asNumber Number.ofFloat
  cases hn : toInt? x with
  | none =>
    have hwhole : ¬ isWhole x = true := by
      intro h
      obtain ⟨n, hsome⟩ := isWhole_iff.1 h
      rw [hn] at hsome
      cases hsome
    rw [if_neg hwhole]
  | some n =>
    rw [if_pos (isWhole_iff.2 ⟨n, hn⟩), truncate_of_toInt? hn]
    rfl

/-! ## The calculator -/

/-- An error under the name that a larger computation has for it; a trap stays a trap. -/
def Stop.map {ε δ : Type} (f : ε → δ) : Stop ε → Stop δ
  | .declared error => .declared (f error)
  | .trapped trap => .trapped trap

/-- The answer to a text. -/
def calculate (limits : Limits) (text : String) : Guarded CalculatorError Answer := do
  let cleaned ← declaring (Calculator.accept limits text)
  let value ← (evaluate limits.stack limits.maxDepth cleaned).mapError
    (.map (.faulty cleaned limits.maxDepth))
  let shown ← (display value).mapError (.map .notFinite)
  let result ← unhandled (asNumber value)
  return ⟨text, result, shown⟩

/-- The calls of the calculator do what its model says, with each failure declared. -/
theorem calculate_eq (limits : Limits) (text : String) :
    calculate limits text = declaring (Calculator.evaluate limits text) := by
  unfold calculate Calculator.evaluate
  cases Calculator.accept limits text with
  | error error => rfl
  | ok cleaned =>
    -- the guarded calls one by one, each equal to its model once it has the arguments of the one
    -- before
    show ((evaluate limits.stack limits.maxDepth cleaned).mapError _ >>= _) =
      declaring (Calculator.compute limits cleaned >>= _)
    rw [evaluate_eq, Calculator.compute]
    cases Evaluator.evaluate limits.stack limits.maxDepth cleaned with
    | error fault => rfl
    | ok value =>
      show ((display value).mapError _ >>= _) = _
      rw [display_eq]
      simp only
      cases Display.text value with
      | error bad => rfl
      | ok shown =>
        show (unhandled (asNumber value) >>= _) = _
        rw [asNumber_eq]
        rfl

/-! ## What the calculator answers -/

/-- The number that a result is, where it is finite. -/
def numberValue? : Number → Option ℚ
  | .int n => some n
  | .float x => value? x

/-- What an answer tells of a text and of the double that its expression comes to: the text itself,
the number that the double is, as an integer where that is whole, and what the display shows. -/
structure Tells (a : Answer) (text : String) (x : Float) : Prop where
  expression_eq : a.expression = text
  exists_value : ∃ v, value? x = some v ∧ numberValue? a.result = some v
  isInt_iff : (∃ n, a.result = .int n) ↔ ∃ n : ℤ, value? x = some (n : ℚ)
  display_eq : Display.text x = .ok a.display

theorem numberValue?_ofFloat (x : Float) : numberValue? (Number.ofFloat x) = value? x := by
  unfold Number.ofFloat
  cases hn : toInt? x with
  | none => rfl
  | some n => exact (Binary64.toInt?_eq_some_iff.1 hn).symm

theorem ofFloat_eq_int_iff {x : Float} {n : Int} :
    Number.ofFloat x = .int n ↔ value? x = some (n : ℚ) := by
  rw [← Binary64.toInt?_eq_some_iff]
  unfold Number.ofFloat
  cases toInt? x with
  | none => simp
  | some k => simp

/-- What can be shown is a number. -/
theorem exists_value_of_text {x : Float} {s : String} (h : Display.text x = .ok s) :
    ∃ v, value? x = some v := by
  obtain ⟨negative, m, e, hx, -⟩ := Display.text_eq_ok_iff.1 h
  exact ⟨_, Binary64.value?_of_datum hx⟩

theorem tells_of_evaluate {limits : Limits} {text : String} {a : Answer}
    (h : Calculator.evaluate limits text = .ok a) :
    ∃ x, Evaluator.evaluate limits.stack limits.maxDepth (Text.trim text) = .ok x ∧
      Tells a text x := by
  obtain ⟨x, -, hvalue, hdisplay, hexpression, hresult⟩ := Calculator.evaluate_eq_ok_iff.1 h
  obtain ⟨v, hv⟩ := exists_value_of_text hdisplay
  refine ⟨x, hvalue, hexpression, ⟨v, hv, ?_⟩, ?_, hdisplay⟩
  · rw [hresult, numberValue?_ofFloat, hv]
  · rw [hresult]
    exact exists_congr fun n => ofFloat_eq_int_iff

/-- **Nothing but the declared errors escapes the calculator.** Every numeral can be read, and for
every text and all limits the calculator is what it is without traps: it answers with what the
expression comes to, or it declares an error of one of three kinds. -/
theorem calculate_is_safe (limits : Limits) (text : String) :
    (∀ cs piece, Token.numeral? cs = some piece →
      readNumeral (String.ofList piece.text) = .ok (Token.numeralValue piece.text)) ∧
    calculate limits text = declaring (Calculator.evaluate limits text) ∧
    match calculate limits text with
    | .ok a => ∃ x, Evaluator.evaluate limits.stack limits.maxDepth (Text.trim text) = .ok x ∧
        Tells a text x
    | .error (.declared error) => error.failure.kind ∈ failureKinds
    | .error (.trapped _) => False := by
  refine ⟨fun cs piece h => ?_, calculate_eq limits text, ?_⟩
  · -- what the scanner cuts out is written as a numeral
    have hwritten := (Token.written_of_numeral? h).2
    have hread := readNumeral_of_written (s := String.ofList piece.text) (by simpa using hwritten)
    rwa [String.toList_ofList] at hread
  · rw [calculate_eq]
    cases houtcome : Calculator.evaluate limits text with
    | ok a => exact tells_of_evaluate houtcome
    | error error => exact Calculator.kind_of_evaluate_eq_error houtcome

end KeypadCalc.Guard

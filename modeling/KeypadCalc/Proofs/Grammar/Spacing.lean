import KeypadCalc.Proofs.Grammar.Fault
import KeypadCalc.Proofs.Grammar.Room
import KeypadCalc.Proofs.Token.Spacing

/-!
# KeypadCalc — spacing makes no difference

A reader looks at the kind and the text of a token, never at its place: it only carries the place
into a report. So the readers go the same way through two lists of tokens that are written alike,
from the first token to the outcome, be it a value or a fault (`InStep`).

* **`report_spaced`** — an expression that is spaced anew has the same tokens and the same report,
  with the places moved to where the tokens are now.
-/

namespace KeypadCalc.Grammar

open Evaluator (Operation Reading chain)
open Token (Alike Gaps spaced)

/-- The same faults, but for the token that is not expected, which is another one. -/
inductive SameFault (R : Token → Token → Prop) : Fault → Fault → Prop where
  | unexpected {t u : Token} (h : R t u) :
      SameFault R (.unexpected (some t)) (.unexpected (some u))
  | ended : SameFault R (.unexpected none) (.unexpected none)
  | nestingTooDeep : SameFault R .nestingTooDeep .nestingTooDeep
  | divisionByZero : SameFault R .divisionByZero .divisionByZero

/-- Outcomes that came the same way: both are there and belong together, or both failed. -/
inductive InStep {α : Type} (R : Token → Token → Prop) (belong : α → α → Prop) :
    Except Fault α → Except Fault α → Prop where
  | ok {a b : α} (h : belong a b) : InStep R belong (.ok a) (.ok b)
  | error {fault fault' : Fault} (h : SameFault R fault fault') :
      InStep R belong (.error fault) (.error fault')

/-- The same value, in front of tokens that belong together one by one. -/
def Abreast (R : Token → Token → Prop) (first second : Float × List Token) : Prop :=
  first.1 = second.1 ∧ first.2.Forall₂ R second.2

variable {R : Token → Token → Prop}

/-- Outcomes in step go on to outcomes in step. -/
theorem InStep.bind {α β : Type} {belong : α → α → Prop} {belong' : β → β → Prop}
    {x y : Except Fault α} {f g : α → Except Fault β} (h : InStep R belong x y)
    (hfg : ∀ a b, belong a b → InStep R belong' (f a) (g b)) :
    InStep R belong' (x >>= f) (y >>= g) := by
  cases h with
  | ok hab => exact hfg _ _ hab
  | error hfault => exact .error hfault

/-- Readings in step go on with one value to outcomes in step. -/
theorem InStep.next {β : Type} {belong : β → β → Prop} {x y : Reading}
    {f g : Float × List Token → Except Fault β} (h : InStep R (Abreast R) x y)
    (hfg : ∀ v rest rest', rest.Forall₂ R rest' →
      InStep R belong (f (v, rest)) (g (v, rest'))) :
    InStep R belong (x >>= f) (y >>= g) := by
  refine h.bind ?_
  rintro ⟨v, rest⟩ ⟨v', rest'⟩ ⟨hv, hrest⟩
  obtain rfl : v = v' := hv
  exact hfg v rest rest' hrest

/-- A function of the value keeps outcomes in step. -/
theorem InStep.map {x y : Reading} (h : InStep R (Abreast R) x y) (f : Float → Float) :
    InStep R (Abreast R) (do let (v, rest) ← x; .ok (f v, rest))
      (do let (v, rest) ← y; .ok (f v, rest)) :=
  h.next fun _ _ _ hrest => .ok ⟨rfl, hrest⟩

/-- An operation fails on nothing but a zero, and so at no token. -/
theorem inStep_operation {k : Token.Kind} {operation : Operation} (h : Links k operation)
    (v w : Float) : InStep R Eq (operation v w) (operation v w) := by
  cases hout : operation v w with
  | ok u => exact .ok rfl
  | error fault =>
    obtain rfl := h.error_eq v w fault hout
    exact .error .divisionByZero

/-- Chains of operands that are in step are in step. Induction on the fuel. -/
theorem inStep_chain (hR : ∀ t u, R t u → Alike t u) {operand : List Token → Reading}
    {operation? : Token.Kind → Option Operation}
    (hlinks : ∀ k operation, operation? k = some operation → Links k operation)
    (hoperand : ∀ ts us, ts.Forall₂ R us → InStep R (Abreast R) (operand ts) (operand us))
    (fuel : Nat) (v : Float) {ts us : List Token} (h : ts.Forall₂ R us) :
    InStep R (Abreast R) (chain operand operation? fuel v ts)
      (chain operand operation? fuel v us) := by
  induction fuel generalizing v ts us with
  | zero => exact .ok ⟨rfl, h⟩
  | succ fuel ih =>
    cases h with
    | nil => exact .ok ⟨rfl, .nil⟩
    | @cons t u _ _ htu htail =>
      rw [chain, chain, (hR t u htu).kind]
      cases hop : operation? u.kind with
      | none => exact .ok ⟨rfl, .cons htu htail⟩
      | some operation =>
        -- the operands leave tokens that still stand abreast
        refine (hoperand _ _ htail).next fun w rest rest' hrest => ?_
        refine (inStep_operation (hlinks u.kind operation hop) v w).bind fun x y hxy => ?_
        obtain rfl : x = y := hxy
        exact ih x hrest

/-! ## Readers -/

/-- The readings of a rank are in step on tokens that belong together. -/
def Lockstep (R : Token → Token → Prop) (r : Rank) (places room : Nat) : Prop :=
  ∀ ts us, ts.Forall₂ R us →
    InStep R (Abreast R) (read r places room ts) (read r places room us)

variable {places room : Nat}

theorem Lockstep.exhausted (r : Rank) (room : Nat) : Lockstep R r 0 room := by
  intro ts us _
  rw [read_zero, read_zero]
  exact .error .nestingTooDeep

theorem Lockstep.sum_zero (places : Nat) : Lockstep R .sum (places + 1) 0 := by
  intro ts us _
  rw [read, Evaluator.sum, Evaluator.sum]
  exact .error .nestingTooDeep

theorem Lockstep.sum (hR : ∀ t u, R t u → Alike t u) (hp : Lockstep R .product places room) :
    Lockstep R .sum (places + 1) (room + 1) := by
  intro ts us h
  rw [read, Evaluator.sum, Evaluator.sum]
  refine (hp ts us h).next fun v rest rest' hrest => ?_
  simp only [hrest.length_eq]
  exact inStep_chain hR (fun _ _ => links_of_additive?) hp _ v hrest

theorem Lockstep.product (hR : ∀ t u, R t u → Alike t u) (hf : Lockstep R .factor places room) :
    Lockstep R .product (places + 1) room := by
  intro ts us h
  rw [read, Evaluator.product, Evaluator.product]
  refine (hf ts us h).next fun v rest rest' hrest => ?_
  simp only [hrest.length_eq]
  exact inStep_chain hR (fun _ _ => links_of_multiplicative?) hf _ v hrest

/-- Two factors are in step if their bases are, and the exponents one level down. -/
theorem Lockstep.factor (hR : ∀ t u, R t u → Alike t u) (hb : Lockstep R .base places room)
    (hf : ∀ lower, room = lower + 1 → Lockstep R .factor places lower) :
    Lockstep R .factor (places + 1) room := by
  intro ts us h
  rw [read, Evaluator.factor.eq_def, Evaluator.factor.eq_def]
  refine (hb ts us h).next fun v rest rest' hrest => ?_
  cases hrest with
  | nil => exact .ok ⟨rfl, .nil⟩
  | @cons t u tail tail' htu htail =>
    simp only [(hR t u htu).kind]
    split
    · cases room with
      | zero => exact .error .nestingTooDeep
      | succ lower => exact (hf lower rfl tail tail' htail).map (Binary64.power v)
    · exact .ok ⟨rfl, .cons htu htail⟩

/-- Both find the closing parenthesis, or both something else. -/
theorem inStep_close (hR : ∀ t u, R t u → Alike t u) (apply : Float → Float) (v : Float)
    {ts us : List Token} (h : ts.Forall₂ R us) :
    InStep R (Abreast R) (Evaluator.close apply (v, ts)) (Evaluator.close apply (v, us)) := by
  cases h with
  | nil => exact .error .ended
  | @cons t u _ _ htu htail =>
    rw [Evaluator.close, Evaluator.close, (hR t u htu).kind]
    split
    · exact .ok ⟨rfl, htail⟩
    · exact .error (.unexpected htu)

/-- Two bases begin with tokens of one kind and text, and go on in step. -/
theorem Lockstep.base (hR : ∀ t u, R t u → Alike t u) (hs : Lockstep R .sum places room)
    (hb : ∀ lower, room = lower + 1 → Lockstep R .base places lower) :
    Lockstep R .base (places + 1) room := by
  intro ts us h
  cases h with
  | nil =>
    rw [read, Evaluator.base]
    exact .error .ended
  | @cons t u tail tail' htu htail =>
    rw [read, Evaluator.base.eq_def, Evaluator.base.eq_def]
    simp only [(hR t u htu).kind]
    split
    · -- the value of a numeral is that of its text
      exact .ok ⟨by rw [Token.value, Token.value, (hR t u htu).text], htail⟩
    · cases room with
      | zero => exact .error .nestingTooDeep
      | succ lower => exact (hb lower rfl tail tail' htail).map fun v => -v
    · exact (hs tail tail' htail).next fun v _ _ => inStep_close hR id v
    · exact (hs tail tail' htail).next fun v _ _ => inStep_close hR Binary64.squareRoot v
    · exact .error (.unexpected htu)

/-- Every reading is in step on tokens that belong together. -/
theorem lockstep (hR : ∀ t u, R t u → Alike t u) (r : Rank) (places room : Nat) :
    Lockstep R r places room :=
  Rank.places_induction .exhausted .sum_zero (fun _ _ => .sum hR) (fun _ _ => .product hR)
    (fun _ _ => .factor hR) (fun _ _ => .base hR) r places room

/-- Tokens that are written alike have the same value, or the same fault. -/
theorem inStep_whole (hR : ∀ t u, R t u → Alike t u) {ts us : List Token} (h : ts.Forall₂ R us)
    (places room : Nat) :
    InStep R Eq (Evaluator.whole places room ts) (Evaluator.whole places room us) := by
  refine (lockstep hR .sum places room ts us h).next fun v rest rest' hrest => ?_
  cases hrest with
  | nil => exact .ok rfl
  | cons htu _ => exact .error (.unexpected htu)

/-! ## Expressions -/

/-- The places of two tokens with the same index, as they are reported. -/
def PlacesAt (all all' : List Token) (place place' : Json) : Prop :=
  ∃ (i : Nat) (t u : Token), all[i]? = some t ∧ all'[i]? = some u ∧
    place = .int t.position ∧ place' = .int u.position

/-- An expression is refused for its grammar: as invalid, and not for its levels. -/
def OfGrammar (failure : Failure) : Prop :=
  failure.kind = .invalidExpression ∧
    failure.message ≠ .string "Invalid expression: nesting is too deep."

/-- A failure is reported at a place. -/
def HasPlace (failure : Failure) : Prop :=
  (failure.details.lookup "position").isSome

/-- Reports of two expressions with these tokens: the same value, or failures of one kind, which are
at no place or at the places of the tokens with one index. Those of grammar are at a place. -/
def SameReport (all all' : List Token) : Except Failure Float → Except Failure Float → Prop
  | .ok v, .ok v' => v = v'
  | .error e, .error e' => e.kind = e'.kind ∧
      Option.Rel (PlacesAt all all') (e.details.lookup "position") (e'.details.lookup "position") ∧
      (OfGrammar e → HasPlace e) ∧ (OfGrammar e' → HasPlace e')
  | _, _ => False

/-- Tokens with the same index, written alike. -/
def Corresponds (ts us : List Token) (t u : Token) : Prop :=
  Alike t u ∧ ∃ i : Nat, ts[i]? = some t ∧ us[i]? = some u

/-- Tokens that are alike one by one stand at the same indices. -/
theorem corresponds {ts us : List Token} (h : ts.Forall₂ Alike us) :
    ts.Forall₂ (Corresponds ts us) us := by
  refine List.forall₂_iff_get.2 ⟨h.length_eq, fun i hi hi' => ⟨?_, i, ?_, ?_⟩⟩
  · exact (List.forall₂_iff_get.1 h).2 i hi hi'
  · simp
  · simp

/-- Outcomes in step are reported alike. The end of an expression has the index behind its last
token. -/
theorem InStep.report {w w' : String} {ts us : List Token} {x y : Except Fault Float}
    (h : InStep (Corresponds ts us) Eq x y) (hlength : ts.length = us.length) (maxDepth : Int) :
    SameReport (ts ++ [Token.finish w]) (us ++ [Token.finish w'])
      (x.mapError (Fault.failure w maxDepth)) (y.mapError (Fault.failure w' maxDepth)) := by
  cases h with
  | ok hvalue => exact hvalue
  | error hfault =>
    cases hfault with
    | @unexpected t u htu =>
      -- the tokens that are found stand at one index of both lists
      obtain ⟨-, i, ht, hu⟩ := htu
      have hi : i < ts.length := (List.getElem?_eq_some_iff.1 ht).1
      refine ⟨rfl, .some ⟨i, t, u, ?_, ?_, rfl, rfl⟩, fun _ => rfl, fun _ => rfl⟩
      · rw [List.getElem?_append_left hi, ht]
      · rw [List.getElem?_append_left (hlength ▸ hi), hu]
    | ended =>
      -- at the end both found the mark
      refine ⟨rfl, .some ⟨ts.length, Token.finish w, Token.finish w', ?_, ?_, rfl, rfl⟩,
        fun _ => rfl, fun _ => rfl⟩
      · exact List.getElem?_concat_length
      · rw [hlength]
        exact List.getElem?_concat_length
    | nestingTooDeep => exact ⟨rfl, .none, fun h => absurd rfl h.2, fun h => absurd rfl h.2⟩
    | divisionByZero => exact ⟨rfl, .none, (fun h => by cases h.1), (fun h => by cases h.1)⟩

/-- **Spacing makes no difference.** An expression that is written with other blanks between its
tokens has the same tokens, and under every limit on levels the same value or a failure of the same
kind; a failure of grammar is at a place, which is that of the token with the same index. -/
theorem report_spaced {w w' : String} {ts : List Token} {gaps : List String}
    (hw : Token.tokenize w = .ok (ts ++ [Token.finish w])) (hgaps : Gaps ts.length gaps)
    (hw' : w' = spaced gaps (ts.map Token.text)) :
    ∃ us, Token.tokenize w' = .ok (us ++ [Token.finish w']) ∧
      us.map Token.kind = ts.map Token.kind ∧ us.map Token.text = ts.map Token.text ∧
      ∀ stack maxDepth, SameReport (ts ++ [Token.finish w]) (us ++ [Token.finish w'])
        (reported stack maxDepth w) (reported stack maxDepth w') := by
  have hts : Token.lexemes w = .ok ts := tokenize_eq_ok_iff.1 hw
  obtain ⟨us, hus, halike⟩ := Token.exists_lexemes_spaced hts hgaps
  rw [← hw'] at hus
  refine ⟨us, tokenize_eq_ok_iff.2 hus, ?kinds, ?texts, fun stack maxDepth => ?report⟩
  case kinds => exact (Token.map_eq_of_alike (fun _ _ h => h.kind) halike).symm
  case texts => exact (Token.map_eq_of_alike (fun _ _ h => h.text) halike).symm
  case report =>
    -- with tokens that correspond the two readings keep in step
    have hstep := inStep_whole (fun _ _ h => h.1) (corresponds halike) stack.calls maxDepth.toNat
    have hleft : Evaluator.evaluate stack maxDepth w =
        Evaluator.whole stack.calls maxDepth.toNat ts := by
      rw [Evaluator.evaluate, hts]
    have hright : Evaluator.evaluate stack maxDepth w' =
        Evaluator.whole stack.calls maxDepth.toNat us := by
      rw [Evaluator.evaluate, hus]
    rw [reported, reported, hleft, hright]
    exact hstep.report halike.length_eq maxDepth

/-- The star of `2.**3+*` is what is not expected in `2. **\n3 +  *` too. -/
theorem report_of_spaced_star :
    Gaps 5 ["", " ", "\n", " ", "  ", ""] ∧
    ∃ us, Token.tokenize "2. **\n3 +  *" = .ok (us ++ [Token.finish "2. **\n3 +  *"]) ∧
      us.map Token.text = ["2.", "**", "3", "+", "*"] ∧
      SameReport [⟨.number, "2.", 0⟩, ⟨.power, "**", 2⟩, ⟨.number, "3", 4⟩, ⟨.plus, "+", 5⟩,
          ⟨.times, "*", 6⟩, ⟨.finish, "", 7⟩] (us ++ [Token.finish "2. **\n3 +  *"])
        (.error ((Fault.unexpected (some ⟨.times, "*", 6⟩)).failure "2.**3+*" 100))
        (reported .usual 100 "2. **\n3 +  *") := by
  have htok : Token.tokenize "2.**3+*" = .ok ([⟨.number, "2.", 0⟩, ⟨.power, "**", 2⟩,
      ⟨.number, "3", 4⟩, ⟨.plus, "+", 5⟩, ⟨.times, "*", 6⟩] ++ [Token.finish "2.**3+*"]) := by
    decide +kernel
  have hgaps : Gaps 5 ["", " ", "\n", " ", "  ", ""] := ⟨rfl, by decide, by decide⟩
  have hfault : Evaluator.evaluate .usual 100 "2.**3+*" =
      .error (.unexpected (some ⟨.times, "*", 6⟩)) := by decide +kernel
  have hspaced : "2. **\n3 +  *" =
      spaced ["", " ", "\n", " ", "  ", ""] ["2.", "**", "3", "+", "*"] := by decide +kernel
  obtain ⟨us, hus, -, htexts, hsame⟩ := report_spaced htok hgaps hspaced
  have hreport := hsame .usual 100
  rw [reported, hfault] at hreport
  exact ⟨hgaps, us, hus, htexts, hreport⟩

end KeypadCalc.Grammar

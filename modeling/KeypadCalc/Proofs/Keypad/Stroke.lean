import KeypadCalc.Proofs.Keypad.Run
import Mathlib.Data.List.Induction

/-!
# KeypadCalc — strokes

The expression and the equation of a keypad are written side by side, by the same strokes: each adds
some characters to the one and some to the other. A parenthesis that closes a root is a stroke too,
with nothing to show for it.

* `State.Edits` lists what a key can do to the texts of a state, and `State.edits_edit` says that a
  key does one of these things.
* `Stroke.Step` is the same for the strokes, and `Typed` follows it through a list of keys.
* `exists_typed` says that the two texts of every state in which a run ends are written by strokes
  that its keys type, and that the state knows whether a root is pending behind them.
* `Script` is the shape of typed strokes: a closing parenthesis stands only where a root is pending,
  an operator only where none is. Every key keeps a state written in this shape (`Scripted.edit`).
-/

namespace KeypadCalc.Keypad

/-- The operators on the keypad. -/
inductive Operator where
  | power
  | divide
  | multiply
  | subtract
  | add
  deriving DecidableEq, Repr

namespace Operator

/-- The key of an operator. -/
def key : Operator → Key
  | power => .power
  | divide => .divide
  | multiply => .multiply
  | subtract => .subtract
  | add => .add

/-- What an operator adds to the expression. -/
def typed : Operator → String
  | power => "**"
  | divide => "/"
  | multiply => "*"
  | subtract => "-"
  | add => "+"

end Operator

/-- The digits that a key adds. -/
def Key.digits? : Key → Option (List (Fin 10))
  | .zero => some [0]
  | .doubleZero => some [0, 0]
  | .one => some [1]
  | .two => some [2]
  | .three => some [3]
  | .four => some [4]
  | .five => some [5]
  | .six => some [6]
  | .seven => some [7]
  | .eight => some [8]
  | .nine => some [9]
  | _ => none

/-! ## What a key can do -/

/-- What a key can do to the texts of a state. -/
inductive State.Edits (maxDigits : Int) (s : State) : Key → State → Prop where
  | clear : Edits maxDigits s .clear (.blank s.sessionId)
  | root : Edits maxDigits s .root { s.append "sqrt(" "√" with waitingForRoot := true }
  | operator (o : Operator) : Edits maxDigits s o.key (s.closeRoot.append o.typed o.key.label)
  | point : Edits maxDigits s .point (s.append "." ".")
  | equals : Edits maxDigits s .equals s.closeRoot
  | digits {k : Key} {ds : List (Fin 10)} (hk : k.digits? = some ds)
      (hroom : currentDigits s.expression + k.label.length ≤ maxDigits) :
      Edits maxDigits s k (s.append k.label k.label)
  | full {k : Key} {ds : List (Fin 10)} (hk : k.digits? = some ds)
      (hroom : maxDigits < currentDigits s.expression + k.label.length) : Edits maxDigits s k s
  | zero {k : Key} (hk : k = .zero ∨ k = .doubleZero)
      (hempty : s.expression = "" ∨ s.expression = "0") :
      Edits maxDigits s k { s with expression := "0", equation := "0" }

namespace State

variable {maxDigits : Int} {s : State}

/-- Digits are added to both texts, or to neither if the operand has no room for them. -/
theorem edits_appendDigits {k : Key} {ds : List (Fin 10)} (hk : k.digits? = some ds) :
    s.Edits maxDigits k (s.appendDigits maxDigits k.label) := by
  unfold appendDigits
  split
  · next hfull => exact .full hk hfull
  · next hroom => exact .digits hk (Int.not_lt.1 hroom)

theorem edits_appendZeros {k : Key} {ds : List (Fin 10)} (hk : k.digits? = some ds)
    (hzero : k = .zero ∨ k = .doubleZero) :
    s.Edits maxDigits k (s.appendZeros maxDigits k.label) := by
  unfold appendZeros
  split
  · next hempty => exact .zero hzero hempty
  · exact edits_appendDigits hk

/-- A key does one of the things that it can do. -/
theorem edits_edit (maxDigits : Int) (s : State) (k : Key) :
    s.Edits maxDigits k (s.edit maxDigits k) := by
  cases k with
  | clear => exact .clear
  | root => exact .root
  | power => exact .operator .power
  | divide => exact .operator .divide
  | multiply => exact .operator .multiply
  | subtract => exact .operator .subtract
  | add => exact .operator .add
  | zero => exact edits_appendZeros rfl (.inl rfl)
  | doubleZero => exact edits_appendZeros rfl (.inr rfl)
  | point => exact .point
  | equals => exact .equals
  | one | two | three | four | five | six | seven | eight | nine => exact edits_appendDigits rfl

end State

/-! ## Strokes -/

/-- A stroke: what is written at once. -/
inductive Stroke where
  | digit (d : Fin 10)
  | point
  | root
  | close
  | operator (o : Operator)
  deriving DecidableEq, Repr

namespace Stroke

/-- The character of a digit. -/
def digitChar (d : Fin 10) : Char :=
  Char.ofNat (0x30 + d)

/-- What a stroke adds to the expression. -/
def typed : Stroke → List Char
  | digit d => [digitChar d]
  | point => ['.']
  | root => "sqrt(".toList
  | close => [')']
  | operator o => o.typed.toList

/-- What a stroke adds to the equation. -/
def shown : Stroke → List Char
  | digit d => [digitChar d]
  | point => ['.']
  | root => ['√']
  | close => []
  | operator o => o.key.label.toList

end Stroke

/-- The strokes that an operator or `=` closes a pending root with. -/
def closing (pending : Bool) : List Stroke :=
  if pending then [.close] else []

/-- What a key can do to strokes, behind which a root may be pending. -/
inductive Stroke.Step (σ : List Stroke) (pending : Bool) : Key → List Stroke → Bool → Prop where
  | clear : Step σ pending .clear [] false
  | root : Step σ pending .root (σ ++ [.root]) true
  | operator (o : Operator) : Step σ pending o.key (σ ++ closing pending ++ [.operator o]) false
  | point : Step σ pending .point (σ ++ [.point]) pending
  | equals : Step σ pending .equals (σ ++ closing pending) false
  | digits {k : Key} {ds : List (Fin 10)} (hk : k.digits? = some ds) :
      Step σ pending k (σ ++ ds.map .digit) pending
  | full {k : Key} {ds : List (Fin 10)} (hk : k.digits? = some ds) : Step σ pending k σ pending
  | zero {k : Key} {ds : List (Fin 10)} (hk : k.digits? = some ds)
      (hempty : σ.flatMap Stroke.typed = [] ∨ σ.flatMap Stroke.typed = ['0']) :
      Step σ pending k [.digit 0] false

/-- The strokes that keys type from a blank state, and whether a root is pending behind them. -/
inductive Typed : List Key → List Stroke → Bool → Prop where
  | nil : Typed [] [] false
  | snoc {keys : List Key} {k : Key} {σ τ : List Stroke} {pending pending' : Bool}
      (h : Typed keys σ pending) (hstep : Stroke.Step σ pending k τ pending') :
      Typed (keys ++ [k]) τ pending'

/-! ## The shape of typed strokes -/

/-- Strokes in which a closing parenthesis stands only where a root is pending, and an operator only
where none is. -/
inductive Script : List Stroke → Bool → Prop where
  | blank : Script [] false
  | digit {σ : List Stroke} {pending : Bool} (h : Script σ pending) (d : Fin 10) :
      Script (σ ++ [.digit d]) pending
  | point {σ : List Stroke} {pending : Bool} (h : Script σ pending) :
      Script (σ ++ [.point]) pending
  | root {σ : List Stroke} {pending : Bool} (h : Script σ pending) : Script (σ ++ [.root]) true
  | close {σ : List Stroke} (h : Script σ true) : Script (σ ++ [.close]) false
  | operator {σ : List Stroke} (h : Script σ false) (o : Operator) :
      Script (σ ++ [.operator o]) false

namespace Script

variable {σ τ : List Stroke} {pending pending' : Bool}

/-- What a key closes before it writes leaves no root pending. -/
theorem append_closing (h : Script σ pending) : Script (σ ++ closing pending) false := by
  cases pending with
  | true => exact .close h
  | false =>
    rw [closing, if_neg (by decide), List.append_nil]
    exact h

/-- Digits may stand anywhere, and a pending root stays pending. -/
theorem append_digits (h : Script σ pending) (ds : List (Fin 10)) :
    Script (σ ++ ds.map .digit) pending := by
  induction ds generalizing σ with
  | nil =>
    rw [List.map_nil, List.append_nil]
    exact h
  | cons d ds ih =>
    have hstep := ih (h.digit d)
    rwa [List.append_assoc, List.singleton_append] at hstep

/-- What a key does to strokes keeps them in this shape. -/
theorem step {k : Key} (h : Script σ pending) (hstep : Stroke.Step σ pending k τ pending') :
    Script τ pending' := by
  cases hstep with
  | clear => exact .blank
  | root => exact h.root
  | operator o => exact h.append_closing.operator o
  | point => exact h.point
  | equals => exact h.append_closing
  | digits hk => exact h.append_digits _
  | full hk => exact h
  | zero hk hempty => exact Script.blank.digit 0

/-- A pending root has been opened. -/
theorem root_mem (h : Script σ pending) (hp : pending = true) : Stroke.root ∈ σ := by
  induction h with
  | blank => cases hp
  | digit _ _ ih => exact List.mem_append_left _ (ih hp)
  | point _ ih => exact List.mem_append_left _ (ih hp)
  | root _ _ => exact List.mem_append_right _ (List.mem_singleton.2 rfl)
  | close _ _ => cases hp
  | operator _ _ _ => cases hp

end Script

theorem Typed.script {keys : List Key} {σ : List Stroke} {pending : Bool}
    (h : Typed keys σ pending) : Script σ pending := by
  induction h with
  | nil => exact .blank
  | snoc _ hstep ih => exact ih.step hstep

/-! ## The texts of a state -/

/-- Strokes write the two texts of a state. -/
structure State.WrittenBy (s : State) (σ : List Stroke) : Prop where
  expression_eq : s.expression.toList = σ.flatMap Stroke.typed
  equation_eq : s.equation.toList = σ.flatMap Stroke.shown

/-- A key with digits writes them, and shows them as they are written. -/
theorem Key.label_of_digits? {k : Key} {ds : List (Fin 10)} (h : k.digits? = some ds) :
    k.label.toList = (ds.map Stroke.digit).flatMap Stroke.typed ∧
      k.label.toList = (ds.map Stroke.digit).flatMap Stroke.shown := by
  cases k <;> cases h <;> decide

namespace State

variable {maxDigits : Int} {s t : State} {σ : List Stroke}

/-- Texts that strokes write go behind the texts that others have written. -/
theorem WrittenBy.append (h : s.WrittenBy σ) {expression equation : String} {τ : List Stroke}
    (he : expression.toList = τ.flatMap Stroke.typed)
    (hq : equation.toList = τ.flatMap Stroke.shown) :
    (s.append expression equation).WrittenBy (σ ++ τ) := by
  constructor
  · rw [State.append, String.toList_append, h.expression_eq, he, List.flatMap_append]
  · rw [State.append, String.toList_append, h.equation_eq, hq, List.flatMap_append]

/-- A closed root has one stroke more, which is not shown. -/
theorem WrittenBy.closeRoot (h : s.WrittenBy σ) :
    s.closeRoot.WrittenBy (σ ++ closing s.waitingForRoot) := by
  unfold State.closeRoot closing
  split
  · constructor
    · rw [String.toList_append, h.expression_eq, List.flatMap_append]
      rfl
    · rw [h.equation_eq, List.flatMap_append]
      exact (List.append_nil _).symm
  · rw [List.append_nil]
    exact h

theorem closeRoot_waitingForRoot (s : State) : s.closeRoot.waitingForRoot = false := by
  unfold State.closeRoot
  split
  · rfl
  · next h => simpa using h

/-- An expression that is empty, or a zero alone, has no root in it. -/
theorem waitingForRoot_of_zero (h : s.WrittenBy σ) (hscript : Script σ s.waitingForRoot)
    (hempty : s.expression = "" ∨ s.expression = "0") : s.waitingForRoot = false := by
  rw [← Bool.not_eq_true]
  intro hpending
  have hs : 's' ∈ s.expression.toList := by
    rw [h.expression_eq]
    exact List.mem_flatMap.2 ⟨.root, hscript.root_mem hpending, by decide⟩
  rcases hempty with he | he
  · rw [he] at hs
    exact absurd hs (by decide)
  · rw [he] at hs
    exact absurd hs (by decide)

/-- What a key can do to a state, it does to the strokes that write it. -/
theorem WrittenBy.edits {k : Key} (h : s.WrittenBy σ) (hscript : Script σ s.waitingForRoot)
    (hedits : s.Edits maxDigits k t) :
    ∃ τ, t.WrittenBy τ ∧ Stroke.Step σ s.waitingForRoot k τ t.waitingForRoot := by
  cases hedits with
  | clear => exact ⟨[], ⟨rfl, rfl⟩, .clear⟩
  | root =>
    have hw : (s.append "sqrt(" "√").WrittenBy (σ ++ [.root]) := h.append rfl rfl
    exact ⟨_, ⟨hw.expression_eq, hw.equation_eq⟩, .root⟩
  | operator o =>
    have hw : (s.closeRoot.append o.typed o.key.label).WrittenBy
        (σ ++ closing s.waitingForRoot ++ [.operator o]) :=
      h.closeRoot.append (List.append_nil _).symm (List.append_nil _).symm
    have hflag : (s.closeRoot.append o.typed o.key.label).waitingForRoot = false :=
      s.closeRoot_waitingForRoot
    rw [hflag]
    exact ⟨_, hw, .operator o⟩
  | point => exact ⟨σ ++ [.point], h.append rfl rfl, .point⟩
  | equals =>
    rw [s.closeRoot_waitingForRoot]
    exact ⟨_, h.closeRoot, .equals⟩
  | digits hk hroom =>
    obtain ⟨htyped, hshown⟩ := Key.label_of_digits? hk
    exact ⟨_, h.append htyped hshown, .digits hk⟩
  | full hk hroom => exact ⟨σ, h, .full hk⟩
  | zero hk hempty =>
    have hflag := waitingForRoot_of_zero h hscript hempty
    obtain ⟨ds, hds⟩ : ∃ ds, k.digits? = some ds := by
      rcases hk with rfl | rfl
      · exact ⟨_, rfl⟩
      · exact ⟨_, rfl⟩
    -- both texts are overwritten, and no root is lost, since none is open
    have hzero : "0".toList = [Stroke.digit 0].flatMap Stroke.shown := by decide
    refine ⟨[.digit 0], ⟨hzero, hzero⟩, ?_⟩
    show Stroke.Step σ s.waitingForRoot k [.digit 0] s.waitingForRoot
    rw [hflag]
    refine .zero hds ?_
    rw [← h.expression_eq]
    exact hempty.imp (fun he => by rw [he]; decide) fun he => by rw [he]; decide

/-- Strokes write the texts of a state, and it knows whether a root is pending behind them. -/
def Scripted (s : State) : Prop :=
  ∃ σ, s.WrittenBy σ ∧ Script σ s.waitingForRoot

theorem scripted_blank (id : String) : (blank id).Scripted :=
  ⟨[], ⟨rfl, rfl⟩, .blank⟩

/-- Every key leaves a state that strokes of this shape have written. -/
theorem Scripted.edit (h : s.Scripted) (maxDigits : Int) (k : Key) :
    (s.edit maxDigits k).Scripted := by
  obtain ⟨σ, hσ, hscript⟩ := h
  obtain ⟨τ, hτ, hstep⟩ := hσ.edits hscript (edits_edit maxDigits s k)
  exact ⟨τ, hτ, hscript.step hstep⟩

theorem Scripted.with_answer (h : s.Scripted) (answer : RawText) :
    ({ s with answer } : State).Scripted := by
  obtain ⟨σ, hσ, hscript⟩ := h
  exact ⟨σ, ⟨hσ.expression_eq, hσ.equation_eq⟩, hscript⟩

theorem Scripted.isBlank_eq_false (h : s.Scripted) :
    ∀ c ∈ s.expression.toList, Text.isBlank c = false := by
  obtain ⟨σ, hσ, -⟩ := h
  have hdigit : ∀ d : Fin 10, Text.isBlank (Stroke.digitChar d) = false := by decide
  have htyped : ∀ x : Stroke, (x.typed.all fun c => !Text.isBlank c) = true := by
    intro x
    cases x with
    | digit d =>
      rw [Stroke.typed, List.all_cons, hdigit d]
      rfl
    | point | root | close => decide
    | operator o => cases o <;> decide
  -- a character of the expression belongs to a stroke, and no stroke types a blank
  intro c hc
  rw [hσ.expression_eq] at hc
  obtain ⟨x, -, hx⟩ := List.mem_flatMap.1 hc
  have hc := List.all_eq_true.1 (htyped x) c hx
  simpa using hc

/-- Typed keys are strokes. Induction on the keys, from the last one. -/
theorem exists_typed_typeAll (maxDigits : Int) (id : String) (keys : List Key) :
    ∃ σ, ((blank id).typeAll maxDigits keys).WrittenBy σ ∧
      Typed keys σ ((blank id).typeAll maxDigits keys).waitingForRoot := by
  induction keys using List.reverseRecOn with
  | nil => exact ⟨[], ⟨rfl, rfl⟩, .nil⟩
  | append_singleton ks k ih =>
    obtain ⟨σ, hσ, htyped⟩ := ih
    have hedit : (blank id).typeAll maxDigits (ks ++ [k]) =
        ((blank id).typeAll maxDigits ks).edit maxDigits k := by
      rw [typeAll, List.foldl_append]
      rfl
    rw [hedit]
    obtain ⟨τ, hτ, hstep⟩ := hσ.edits htyped.script (edits_edit maxDigits _ k)
    exact ⟨τ, hτ, htyped.snoc hstep⟩

end State

/-- **The texts of a state are typed strokes.** -/
theorem exists_typed {service : Calculator.Service} {maxDigits : Int} {id : String}
    {keys : List Key} {w : Surroundings} {s : State}
    (h : ((pressAll service maxDigits (.blank id) keys).run w).1 = .ok s) :
    ∃ σ, s.WrittenBy σ ∧ Typed keys σ s.waitingForRoot := by
  obtain ⟨answer, rfl⟩ := pressAll_eq_ok h
  obtain ⟨σ, hσ, htyped⟩ := State.exists_typed_typeAll maxDigits id keys
  exact ⟨σ, ⟨hσ.expression_eq, hσ.equation_eq⟩, htyped⟩

end KeypadCalc.Keypad

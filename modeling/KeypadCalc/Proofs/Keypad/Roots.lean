import KeypadCalc.Proofs.Grammar.Balance
import KeypadCalc.Proofs.Keypad.Stroke
import Mathlib.Data.List.Basic

/-!
# KeypadCalc — the roots that are open

A state remembers whether a root is pending, not how many are, and closes one at the next operator
or `=`. So of several roots typed in a row all but one are left open, for good. `RootTally` follows
a list of keys and counts both, the pending roots and those left open, and the flag of a state tells
the truth about its expression exactly if none is left open or one is pending
(`waitingForRoot_iff_unclosed_iff`).
-/

namespace KeypadCalc.Keypad

open Grammar (WantsClose openParens)

/-- How many roots are open behind a text in front of which some are. A closing parenthesis closes
the last of them; the keypad types no other groups. -/
def unclosedRoots : (count : Nat) → List Char → Nat
  | n, 's' :: 'q' :: 'r' :: 't' :: '(' :: rest => unclosedRoots (n + 1) rest
  | n, ')' :: rest => unclosedRoots (n - 1) rest
  | n, _ :: rest => unclosedRoots n rest
  | n, [] => n

/-- The keys that close a pending root. -/
def Key.closesRoot : Key → Bool
  | .power | .divide | .multiply | .subtract | .add | .equals => true
  | _ => false

/-- The roots that keys have opened: those that no key has had the chance to close, and those that
keys which close one have left open. -/
structure RootTally where
  pending : Nat := 0
  leftOpen : Nat := 0
  deriving DecidableEq, Repr

/-- A key that closes a pending root closes one, and leaves the others open. -/
def RootTally.after (r : RootTally) (k : Key) : RootTally :=
  if k = .clear then {}
  else if k = .root then { r with pending := r.pending + 1 }
  else if k.closesRoot then { pending := 0, leftOpen := r.leftOpen + (r.pending - 1) }
  else r

/-- The tally behind a list of keys. -/
def rootTally (keys : List Key) : RootTally :=
  keys.foldl RootTally.after {}

theorem rootTally_snoc (keys : List Key) (k : Key) :
    rootTally (keys ++ [k]) = (rootTally keys).after k := by
  rw [rootTally, List.foldl_append]
  rfl

theorem RootTally.after_of_digits? {k : Key} {ds : List (Fin 10)} (h : k.digits? = some ds)
    (r : RootTally) : r.after k = r := by
  cases k <;> first | rfl | cases h

/-- An operator closes one pending root, and leaves the others open for good. -/
theorem RootTally.after_operator (r : RootTally) (o : Operator) :
    r.after o.key = { pending := 0, leftOpen := r.leftOpen + (r.pending - 1) } := by
  cases o <;> rfl

/-! ## The roots of strokes -/

/-- How many roots are open behind a stroke in front of which some are. -/
def Stroke.rootsBehind (count : Nat) : Stroke → Nat
  | root => count + 1
  | close => count - 1
  | _ => count

/-- How many roots are open behind strokes. -/
def openRoots (σ : List Stroke) : Nat :=
  σ.foldl Stroke.rootsBehind 0

theorem openRoots_snoc (σ : List Stroke) (x : Stroke) :
    openRoots (σ ++ [x]) = x.rootsBehind (openRoots σ) := by
  rw [openRoots, List.foldl_append]
  rfl

theorem openRoots_append_closing (σ : List Stroke) (pending : Bool) :
    openRoots (σ ++ closing pending) = openRoots σ - (if pending then 1 else 0) := by
  cases pending with
  | true => exact openRoots_snoc σ .close
  | false => rw [closing, if_neg (by decide), List.append_nil, if_neg (by decide), Nat.sub_zero]

theorem openRoots_append_digits (σ : List Stroke) (ds : List (Fin 10)) :
    openRoots (σ ++ ds.map .digit) = openRoots σ := by
  rw [openRoots, List.foldl_append, List.foldl_map]
  exact List.foldl_fixed' (fun _ => rfl) ds

/-- Only the start of a root and a closing parenthesis count. -/
theorem unclosedRoots_cons {c : Char} (hs : c ≠ 's') (hc : c ≠ ')') (n : Nat) (rest : List Char) :
    unclosedRoots n (c :: rest) = unclosedRoots n rest := by
  rw [unclosedRoots]
  · exact fun _ heq => absurd heq hs
  · exact hc

/-- In the characters of a stroke as many roots are opened or closed as by the stroke. -/
theorem unclosedRoots_typed (x : Stroke) (n : Nat) (rest : List Char) :
    unclosedRoots n (x.typed ++ rest) = unclosedRoots (x.rootsBehind n) rest := by
  have hdigit : ∀ d : Fin 10, Stroke.digitChar d ≠ 's' ∧ Stroke.digitChar d ≠ ')' := by decide
  cases x with
  | digit d => exact unclosedRoots_cons (hdigit d).1 (hdigit d).2 n rest
  | point | root | close => rfl
  | operator o => cases o <;> rfl

/-- The roots that are open in what strokes write are those that the strokes leave open. -/
theorem unclosedRoots_strokes (σ : List Stroke) :
    unclosedRoots 0 (σ.flatMap Stroke.typed) = openRoots σ := by
  have hcount : ∀ n, unclosedRoots n (σ.flatMap Stroke.typed) =
      σ.foldl Stroke.rootsBehind n := by
    induction σ with
    | nil => exact fun _ => rfl
    | cons x σ ih =>
      intro n
      rw [List.flatMap_cons, unclosedRoots_typed, ih, List.foldl_cons]
  exact hcount 0

/-- A tally counts the roots that strokes leave open, and it has one pending exactly where one is
pending behind the strokes. -/
structure RootTally.Counts (r : RootTally) (σ : List Stroke) (pending : Bool) : Prop where
  openRoots_eq : openRoots σ = r.leftOpen + r.pending
  pending_iff : pending = true ↔ 0 < r.pending

namespace RootTally.Counts

variable {r : RootTally} {σ τ : List Stroke} {pending pending' : Bool}

theorem pending_eq_zero (h : r.Counts σ pending) (hp : pending = false) : r.pending = 0 := by
  have hnone : ¬ 0 < r.pending := by
    rw [← h.pending_iff, hp]
    decide
  omega

/-- Closing takes one root where one is pending, and none where none is. -/
theorem closing (h : r.Counts σ pending) :
    openRoots (σ ++ closing pending) = r.leftOpen + (r.pending - 1) := by
  have hopen := h.openRoots_eq
  rw [openRoots_append_closing]
  cases pending with
  | true =>
    have hpos := h.pending_iff.1 rfl
    rw [if_pos rfl]
    omega
  | false =>
    have hnone := h.pending_eq_zero rfl
    rw [if_neg (by decide)]
    omega

/-- The tally keeps count, whatever key is pressed. -/
theorem step {k : Key} (h : r.Counts σ pending) (hstep : Stroke.Step σ pending k τ pending') :
    (r.after k).Counts τ pending' := by
  cases hstep with
  | clear => exact ⟨rfl, iff_of_false (by decide) (Nat.lt_irrefl 0)⟩
  | root =>
    refine ⟨?_, iff_of_true rfl (Nat.succ_pos _)⟩
    rw [openRoots_snoc, h.openRoots_eq]
    rfl
  | operator o =>
    rw [after_operator]
    refine ⟨?_, iff_of_false (by decide) (Nat.lt_irrefl 0)⟩
    rw [openRoots_snoc, h.closing]
    rfl
  | point =>
    refine ⟨?_, h.pending_iff⟩
    rw [openRoots_snoc]
    exact h.openRoots_eq
  | equals => exact ⟨h.closing, iff_of_false (by decide) (Nat.lt_irrefl 0)⟩
  | digits hk =>
    rw [after_of_digits? hk]
    refine ⟨?_, h.pending_iff⟩
    rw [openRoots_append_digits, h.openRoots_eq]
  | full hk =>
    rw [after_of_digits? hk]
    exact h
  | zero hk hempty =>
    -- what is overwritten has no root in it, so there is none to lose
    have hnone : openRoots σ = 0 := by
      rw [← unclosedRoots_strokes]
      rcases hempty with he | he
      · rw [he]
        rfl
      · rw [he]
        rfl
    have hopen := h.openRoots_eq
    have hzero : openRoots [.digit 0] = 0 := rfl
    rw [after_of_digits? hk]
    constructor
    · omega
    · exact iff_of_false (by decide) (by omega)

end RootTally.Counts

/-- The tally of typed keys counts the roots of their strokes. -/
theorem Typed.counts {keys : List Key} {σ : List Stroke} {pending : Bool}
    (h : Typed keys σ pending) : (rootTally keys).Counts σ pending := by
  induction h with
  | nil => exact ⟨rfl, by decide⟩
  | snoc _ hstep ih =>
    rw [rootTally_snoc]
    exact ih.step hstep

/-- All parentheses of typed strokes are those of their roots. -/
theorem Script.openParens_eq {σ : List Stroke} {pending : Bool} (h : Script σ pending) :
    openParens 0 (σ.flatMap Stroke.typed) = some (openRoots σ) ∧
      (pending = true → 0 < openRoots σ) := by
  -- a digit is no parenthesis
  have hdigit : ∀ d : Fin 10, Stroke.digitChar d ≠ '(' ∧ Stroke.digitChar d ≠ ')' := by decide
  have hsnoc : ∀ {σ : List Stroke} {x : Stroke} {n : Nat},
      openParens 0 (σ.flatMap Stroke.typed) = some n →
      openParens n x.typed = some (x.rootsBehind n) →
      openParens 0 ((σ ++ [x]).flatMap Stroke.typed) = some (x.rootsBehind n) := by
    intro σ x n hσ hx
    have htyped : [x].flatMap Stroke.typed = x.typed := List.append_nil _
    rw [List.flatMap_append, htyped, Grammar.openParens_append, hσ, Option.bind_some, hx]
  induction h with
  | blank => exact ⟨rfl, by decide⟩
  | digit _ d ih =>
    rw [openRoots_snoc]
    refine ⟨hsnoc ih.1 (Grammar.openParens_eq_some (fun c hc => ?_) _), ih.2⟩
    rw [List.mem_singleton.1 hc]
    exact hdigit d
  | point _ ih =>
    rw [openRoots_snoc]
    exact ⟨hsnoc ih.1 rfl, ih.2⟩
  | root _ ih =>
    rw [openRoots_snoc]
    exact ⟨hsnoc ih.1 rfl, fun _ => Nat.succ_pos _⟩
  | @close σ _ ih =>
    -- a closing is typed only where a root is open
    have hpos := ih.2 rfl
    rw [openRoots_snoc]
    refine ⟨hsnoc ih.1 ?_, nofun⟩
    obtain ⟨n, hn⟩ := Nat.exists_eq_succ_of_ne_zero (Nat.ne_of_gt hpos)
    rw [hn]
    rfl
  | operator _ o ih =>
    rw [openRoots_snoc]
    refine ⟨hsnoc ih.1 ?_, nofun⟩
    cases o <;> rfl

/-! ## The flag of a state -/

/-- **The flag of a state tells whether a root is open in its expression, and no root is open behind
a key that closes one, exactly if no root has been left open or one is pending.** -/
theorem waitingForRoot_iff_unclosed_iff {service : Calculator.Service} {maxDigits : Int}
    {id : String} {keys : List Key} {w : Surroundings} {s : State}
    (h : ((pressAll service maxDigits (.blank id) keys).run w).1 = .ok s) :
    ((s.waitingForRoot = true ↔ 0 < unclosedRoots 0 s.expression.toList) ∧
      ∀ k, keys.getLast? = some k → k.closesRoot = true →
        unclosedRoots 0 s.expression.toList = 0 ∧ ¬ WantsClose s.expression) ↔
      (rootTally keys).leftOpen = 0 ∨ 0 < (rootTally keys).pending := by
  obtain ⟨σ, hσ, htyped⟩ := exists_typed h
  obtain ⟨hcount, hflag⟩ := htyped.counts
  have hopen : unclosedRoots 0 s.expression.toList =
      (rootTally keys).leftOpen + (rootTally keys).pending := by
    rw [hσ.expression_eq, unclosedRoots_strokes, hcount]
  rw [hopen, hflag]
  constructor
  · rintro ⟨htells, -⟩
    omega
  · intro htally
    refine ⟨by omega, fun k hlast hcloses => ?_⟩
    -- behind a key that closes nothing is pending, so nothing may be left open
    have hnone : (rootTally keys).pending = 0 := by
      obtain ⟨ks, rfl⟩ := List.getLast?_eq_some_iff.1 hlast
      rw [rootTally_snoc]
      cases k <;> first | rfl | cases hcloses
    have hzero : openRoots σ = 0 := by omega
    refine ⟨by omega, Grammar.not_wantsClose ?_⟩
    rw [hσ.expression_eq, htyped.script.openParens_eq.1, hzero]

/-- Two roots of a sum are closed one after the other. -/
theorem waitingForRoot_of_two_terms :
    ∃ s, ((pressAll (Calculator.localService { stack := .usual }) 15 (.blank "s")
        [.root, .nine, .add, .root, .four, .equals]).run {}).1 = .ok s ∧
      s.waitingForRoot = false ∧ unclosedRoots 0 s.expression.toList = 0 ∧
      ¬ WantsClose s.expression := by
  have hrun : ((pressAll (Calculator.localService { stack := .usual }) 15 (.blank "s")
      [.root, .nine, .add, .root, .four, .equals]).run {}).1 =
        .ok ⟨"s", "sqrt(9)+sqrt(4)", "√9+√4", "= 5", false⟩ :=
    eq_ok_of_toOption (by decide +kernel)
  have htells := (waitingForRoot_iff_unclosed_iff hrun).2 (.inl (by decide))
  obtain ⟨hnone, hclosed⟩ := htells.2 .equals (by decide) rfl
  exact ⟨_, hrun, rfl, hnone, hclosed⟩

/-- Of two roots in a row `=` closes one: no root is pending, and the expression is refused for
want of a closing parenthesis. -/
theorem waitingForRoot_of_root_of_root :
    ∃ s, ((pressAll (Calculator.localService { stack := .usual }) 15 (.blank "s")
        [.root, .root, .nine, .equals]).run {}).1 = .ok s ∧
      s.expression = "sqrt(sqrt(9)" ∧ s.answer = "= Error" ∧ s.waitingForRoot = false ∧
      unclosedRoots 0 s.expression.toList = 1 ∧ WantsClose s.expression := by
  have hrun : ((pressAll (Calculator.localService { stack := .usual }) 15 (.blank "s")
      [.root, .root, .nine, .equals]).run {}).1 =
        .ok ⟨"s", "sqrt(sqrt(9)", "√√9", "= Error", false⟩ := eq_ok_of_toOption (by decide +kernel)
  have hlexemes : Token.lexemes "sqrt(sqrt(9)" = .ok [⟨.openRoot, "sqrt(", 0⟩,
      ⟨.openRoot, "sqrt(", 5⟩, ⟨.number, "9", 10⟩, ⟨.closeGroup, ")", 11⟩] := by decide +kernel
  let sumOf (b : Grammar.Tree .base) : Grammar.Tree .sum := .ofProduct (.ofFactor (.ofBase b))
  exact ⟨_, hrun, rfl, rfl, rfl, by decide +kernel, _, hlexemes,
    sumOf (.root (sumOf (.root (sumOf (.number "9"))))), [], by decide⟩

end KeypadCalc.Keypad

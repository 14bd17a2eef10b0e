import KeypadCalc.Proofs.Grammar.Soundness
import KeypadCalc.Proofs.Guard.Numeral

/-!
# KeypadCalc — reading with a cursor

An expression read as a list of tokens with a cursor in it, an index that moves over the tokens up to
the mark of the end and stays there. Every look at a token is a look at an index of the list, a
numeral is read where it is met, the loops count their rounds, the operations are those that may
trap, and so is every call of a reader, which finds no place on the stack when that is exhausted.

* `At` tells which tokens are ahead of the cursor, and `Mirrors` compares a reading by cursor with
  one of the tokens ahead: the same value, with the cursor where the rest begins, or the same fault.
* The readers mirror each other rank by rank (`mirrored`), so the cursor never leaves the list, and
  no trap is met but that of a call without a place, which has a handler (`handled`). So reading with
  a cursor is evaluation (`evaluate_eq`).
-/

namespace KeypadCalc.Guard

open Evaluator (Reading Shortens)
open Grammar (Rank)

/-- The outcome of reading with a cursor: a value and where the cursor is then. -/
abbrev Outcome := Guarded Fault (Float × Nat)

/-- An operator of a chain. -/
abbrev Operation := Float → Float → Guarded Fault Float

/-- The operations of a sum, which do not trap. -/
def additive? : Token.Kind → Option Operation
  | .plus => some fun x y => .ok (x + y)
  | .minus => some fun x y => .ok (x - y)
  | _ => none

/-- The operations of a product; a zero divisor is refused before the division could trap. -/
def multiplicative? : Token.Kind → Option Operation
  | .times => some fun x y => .ok (x * y)
  | .divide => some fun x y =>
    if y == 0.0 then .error (.declared .divisionByZero) else unhandled (divide x y)
  | _ => none

section Reader

variable (tokens : List Token)

/-- The token at the cursor. -/
def peek (i : Nat) : Guarded Fault Token :=
  unhandled (at? tokens i)

/-- The token at the cursor, which moves on from it unless it is the mark of the end. -/
def advance (i : Nat) : Guarded Fault (Token × Nat) := do
  let t ← peek tokens i
  return (t, if t.kind = .finish then i else i + 1)

/-- The fault of a token that cannot stand where it stands. -/
def unexpected (t : Token) : Stop Fault :=
  .declared (.unexpected (if t.kind = .finish then none else some t))

/-- Goes on through as many operators with their operands as follow, for a number of rounds. -/
def loop (operand : Nat → Outcome) (operation? : Token.Kind → Option Operation) :
    (rounds : Nat) → Float → Nat → Outcome
  | 0, _, _ => .error (.trapped .endless)
  | rounds + 1, v, i => do
    let t ← peek tokens i
    match operation? t.kind with
    | none => return (v, i)
    | some operation =>
      let (_, j) ← advance tokens i
      let (w, k) ← operand j
      let u ← operation v w
      loop operand operation? rounds u k

/-- Reads the parenthesis that closes a group and applies what the group stands under. -/
def close (apply : Float → Except Trap Float) (v : Float) (i : Nat) : Outcome := do
  let (t, j) ← advance tokens i
  if t.kind = .closeGroup then
    let u ← unhandled (apply v)
    return (u, j)
  else .error (unexpected t)

mutual

/-- Reads a sum from an index on. -/
def sum : (places room i : Nat) → Outcome
  | 0, _, _ => .error (.trapped .tooManyCalls)
  | _ + 1, 0, _ => .error (.declared .nestingTooDeep)
  | places + 1, room + 1, i => do
    let (v, j) ← product places room i
    loop tokens (product places room) additive? tokens.length v j

/-- Reads a product from an index on. -/
def product : (places room i : Nat) → Outcome
  | 0, _, _ => .error (.trapped .tooManyCalls)
  | places + 1, room, i => do
    let (v, j) ← factor places room i
    loop tokens (factor places room) multiplicative? tokens.length v j

/-- Reads a factor; the token behind its base is looked at, and only a power sign is passed. -/
def factor : (places room i : Nat) → Outcome
  | 0, _, _ => .error (.trapped .tooManyCalls)
  | places + 1, room, i => do
    let (v, j) ← base places room i
    let t ← peek tokens j
    if t.kind = .power then
      let (_, k) ← advance tokens j
      match room with
      | 0 => .error (.declared .nestingTooDeep)
      | room + 1 => do
        let (w, l) ← factor places room k
        let u ← unhandled (power v w)
        return (u, l)
    else return (v, j)

/-- Reads a base; its first token is passed at once, whatever it is. -/
def base : (places room i : Nat) → Outcome
  | 0, _, _ => .error (.trapped .tooManyCalls)
  | places + 1, room, i => do
    let (t, j) ← advance tokens i
    match t.kind with
    | .number => do
      let x ← unhandled (readNumeral t.text)
      return (x, j)
    | .minus =>
      match room with
      | 0 => .error (.declared .nestingTooDeep)
      | room + 1 => do
        let (v, k) ← base places room j
        return (-v, k)
    | .openGroup => do
      let (v, k) ← sum places room j
      close tokens .ok v k
    | .openRoot => do
      let (v, k) ← sum places room j
      close tokens squareRoot v k
    | _ => .error (unexpected t)

end

/-- The value of all tokens up to the mark of the end. -/
def parse (places room : Nat) : Guarded Fault Float := do
  let (v, i) ← sum tokens places room 0
  let t ← peek tokens i
  if t.kind = .finish then return v else .error (unexpected t)

end Reader

/-- The end of a reading with the trap of the stack handled: it is reported as too many levels. -/
def handled : Stop Fault → Stop Fault
  | .trapped .tooManyCalls => .declared .nestingTooDeep
  | stop => stop

/-! ## The tokens ahead of the cursor -/

section Mirror

variable {tokens : List Token} {places room : Nat}

/-- The tokens ahead of a cursor up to the mark of the end, which is the last token there is. -/
structure At (tokens : List Token) (i : Nat) (ts : List Token) : Prop where
  exists_finish : ∃ e : Token, e.kind = .finish ∧ tokens.drop i = ts ++ [e]
  proper : ∀ t ∈ ts, Proper t

namespace At

variable {i : Nat} {t : Token} {ts : List Token}

/-- The token at the index is the first of those that are left. -/
theorem peek_of_drop {rest : List Token} (h : tokens.drop i = t :: rest) :
    peek tokens i = .ok t := by
  have hget : tokens[i]? = some t := by
    rw [← List.head?_drop, h]
    rfl
  unfold peek at?
  rw [hget]
  rfl

/-- The token at the cursor is the first ahead of it. -/
theorem peek_cons (h : At tokens i (t :: ts)) : peek tokens i = .ok t := by
  obtain ⟨e, -, hdrop⟩ := h.exists_finish
  exact peek_of_drop hdrop

/-- Where no token is left, the cursor is on the mark of the end. -/
theorem peek_nil (h : At tokens i []) : ∃ e : Token, e.kind = .finish ∧ peek tokens i = .ok e := by
  obtain ⟨e, hkind, hdrop⟩ := h.exists_finish
  exact ⟨e, hkind, peek_of_drop hdrop⟩

theorem advance_cons (h : At tokens i (t :: ts)) : advance tokens i = .ok (t, i + 1) := by
  have hkind : t.kind ≠ .finish := (h.proper t List.mem_cons_self).kind_ne
  rw [advance, h.peek_cons]
  show (.ok (t, if t.kind = .finish then i else i + 1) : Guarded Fault (Token × Nat)) = _
  rw [if_neg hkind]

/-- The cursor does not move past the mark of the end. -/
theorem advance_nil (h : At tokens i []) :
    ∃ e : Token, e.kind = .finish ∧ advance tokens i = .ok (e, i) := by
  obtain ⟨e, hkind, hpeek⟩ := h.peek_nil
  refine ⟨e, hkind, ?_⟩
  rw [advance, hpeek]
  show (.ok (e, if e.kind = .finish then i else i + 1) : Guarded Fault (Token × Nat)) = _
  rw [if_pos hkind]

/-- Ahead of the cursor that has passed a token are the others. -/
theorem tail (h : At tokens i (t :: ts)) : At tokens (i + 1) ts := by
  obtain ⟨e, hkind, hdrop⟩ := h.exists_finish
  refine ⟨⟨e, hkind, ?_⟩, fun u hu => h.proper u (List.mem_cons_of_mem t hu)⟩
  rw [← List.tail_drop, hdrop]
  rfl

/-- There are more tokens than the cursor has ahead of the mark of the end. -/
theorem length_lt (h : At tokens i ts) : ts.length < tokens.length := by
  obtain ⟨e, -, hdrop⟩ := h.exists_finish
  have hlen := congrArg List.length hdrop
  rw [List.length_drop, List.length_append, List.length_singleton] at hlen
  omega

end At

theorem unexpected_of_finish {e : Token} (h : e.kind = .finish) :
    unexpected e = .declared (.unexpected none) := by
  rw [unexpected, if_pos h]

theorem Proper.unexpected_eq {t : Token} (h : Proper t) :
    unexpected t = .declared (.unexpected (some t)) := by
  rw [unexpected, if_neg h.kind_ne]

/-! ## Readings by cursor -/

/-- A reading by cursor has the value of a reading of tokens and stands where the rest of them is
ahead, or it ends as one whose fault this is. -/
def Mirrors (tokens : List Token) (x : Outcome) : Reading → Prop
  | .ok (v, rest) => ∃ j, x = .ok (v, j) ∧ At tokens j rest
  | .error fault => ∃ stop, x = .error stop ∧ handled stop = .declared fault

namespace Mirrors

/-- A fault that is declared. -/
theorem fault (fault : Fault) : Mirrors tokens (.error (.declared fault)) (.error fault) :=
  ⟨.declared fault, rfl, rfl⟩

/-- A call without a place. -/
theorem exhausted : Mirrors tokens (.error (.trapped .tooManyCalls)) (.error .nestingTooDeep) :=
  ⟨.trapped .tooManyCalls, rfl, rfl⟩

/-- Readings that mirror each other go on to readings that do: with the same value, and the cursor
where the tokens begin that are left. -/
theorem bind {x : Outcome} {y : Reading} {f : Float × Nat → Outcome}
    {g : Float × List Token → Reading} (h : Mirrors tokens x y)
    (hfg : ∀ v j rest, y = .ok (v, rest) → At tokens j rest →
      Mirrors tokens (f (v, j)) (g (v, rest))) :
    Mirrors tokens (x >>= f) (y >>= g) := by
  cases y with
  | error fault =>
    obtain ⟨stop, rfl, hstop⟩ := h
    exact ⟨stop, rfl, hstop⟩
  | ok first =>
    obtain ⟨j, rfl, hj⟩ := h
    exact hfg first.1 j first.2 rfl hj

/-- An operation in between has the same fault on both sides, or the same value. -/
theorem bind_declaring {z : Except Fault Float} {f : Float → Outcome} {g : Float → Reading}
    (hfg : ∀ u, Mirrors tokens (f u) (g u)) : Mirrors tokens (declaring z >>= f) (z >>= g) := by
  cases z with
  | error fault => exact .fault fault
  | ok u => exact hfg u

end Mirrors

/-! ## The loops -/

/-- The operations of a sum are those of the evaluator. -/
theorem additive?_eq (k : Token.Kind) :
    additive? k = (Evaluator.additive? k).map fun f x y => declaring (f x y) := by
  cases k <;> rfl

/-- The division of a product is made behind the check of its divisor. -/
theorem multiplicative?_eq (k : Token.Kind) :
    multiplicative? k = (Evaluator.multiplicative? k).map fun f x y => declaring (f x y) := by
  cases k with
  | divide =>
    refine congrArg some (funext fun x => funext fun y => ?_)
    show (if y == 0.0 then _ else unhandled (divide x y)) = declaring (Evaluator.divide x y)
    rw [divide, Evaluator.divide]
    split <;> rfl
  | _ => rfl

/-- A loop by cursor mirrors a chain if its operands do. Induction on the rounds: every round takes
a token off those ahead, so there are rounds for all of them. -/
theorem mirrors_loop {operand' : Nat → Outcome} {operand : List Token → Reading}
    {operation'? : Token.Kind → Option Operation}
    {operation? : Token.Kind → Option Evaluator.Operation}
    (hoperand : ∀ i ts, At tokens i ts → Mirrors tokens (operand' i) (operand ts))
    (hshort : Shortens operand)
    (hop : ∀ k, operation'? k = (operation? k).map fun f x y => declaring (f x y))
    (hfinish : operation? .finish = none) {rounds fuel i : Nat} {ts : List Token} (v : Float)
    (hat : At tokens i ts) (hrounds : ts.length < rounds) (hfuel : ts.length ≤ fuel) :
    Mirrors tokens (loop tokens operand' operation'? rounds v i)
      (Evaluator.chain operand operation? fuel v ts) := by
  induction rounds generalizing fuel i ts v with
  | zero => exact absurd hrounds (Nat.not_lt_zero _)
  | succ rounds ih =>
    cases ts with
    | nil =>
      -- the mark of the end is no operator
      obtain ⟨e, hkind, hpeek⟩ := hat.peek_nil
      have hnone : operation'? e.kind = none := by rw [hop, hkind, hfinish]; rfl
      rw [Evaluator.chain_of_stops (fun t tail h => by cases h), loop, hpeek]
      refine ⟨i, ?_, hat⟩
      show (match operation'? e.kind with | none => _ | some operation => _) = _
      rw [hnone]
      rfl
    | cons t tail =>
      rw [List.length_cons] at hrounds hfuel
      obtain ⟨fuel, rfl⟩ : ∃ n, fuel = n + 1 := ⟨fuel - 1, by omega⟩
      rw [Evaluator.chain, loop, hat.peek_cons]
      show Mirrors tokens
        (match operation'? t.kind with | none => _ | some operation => _) _
      rw [hop]
      cases operation? t.kind with
      | none => exact ⟨i, rfl, hat⟩
      | some operation =>
        show Mirrors tokens (advance tokens i >>= _) _
        rw [hat.advance_cons]
        refine .bind (hoperand (i + 1) tail hat.tail) fun w k rest hw hk => ?_
        have hrest : rest.length ≤ tail.length := hshort tail w rest hw
        exact .bind_declaring fun u => ih u hk (by omega) (by omega)

/-! ## The ranks -/

/-- The reader of a rank by cursor. -/
def read (tokens : List Token) : Rank → (places room i : Nat) → Outcome
  | .sum => sum tokens
  | .product => product tokens
  | .factor => factor tokens
  | .base => base tokens

/-- The readings of a rank by cursor, with some places and some room, mirror those of the tokens
ahead. -/
def Mirrored (tokens : List Token) (r : Rank) (places room : Nat) : Prop :=
  ∀ i ts, At tokens i ts →
    Mirrors tokens (read tokens r places room i) (Grammar.read r places room ts)

/-- Without a place for it a call ends in a trap, which is handled as too many levels. -/
theorem Mirrored.exhausted (r : Rank) (room : Nat) : Mirrored tokens r 0 room := by
  intro i ts _
  rw [Grammar.read_zero]
  cases r with
  | sum => rw [read, Guard.sum]; exact .exhausted
  | product => rw [read, Guard.product]; exact .exhausted
  | factor => rw [read, Guard.factor]; exact .exhausted
  | base => rw [read, Guard.base]; exact .exhausted

/-- Without room for a sum there is a fault on either side. -/
theorem Mirrored.sum_zero (places : Nat) : Mirrored tokens .sum (places + 1) 0 := by
  intro i ts _
  rw [read, Grammar.read, Guard.sum, Evaluator.sum]
  exact .fault _

/-- A sum mirrors the products that its loop goes over. -/
theorem Mirrored.sum (hp : Mirrored tokens .product places room) :
    Mirrored tokens .sum (places + 1) (room + 1) := by
  intro i ts hat
  rw [read, Grammar.read, Guard.sum, Evaluator.sum]
  refine .bind (hp i ts hat) fun v j rest _ hj => ?_
  exact mirrors_loop hp (Grammar.shortens_read .product places room) additive?_eq rfl v hj
    hj.length_lt le_rfl

theorem Mirrored.product (hf : Mirrored tokens .factor places room) :
    Mirrored tokens .product (places + 1) room := by
  intro i ts hat
  rw [read, Grammar.read, Guard.product, Evaluator.product]
  refine .bind (hf i ts hat) fun v j rest _ hj => ?_
  exact mirrors_loop hf (Grammar.shortens_read .factor places room) multiplicative?_eq rfl v hj
    hj.length_lt le_rfl

/-- The power of a factor and its exponent does not fail. -/
theorem Mirrored.factor (hb : Mirrored tokens .base places room)
    (hf : ∀ lower, room = lower + 1 → Mirrored tokens .factor places lower) :
    Mirrored tokens .factor (places + 1) room := by
  intro i ts hat
  rw [read, Grammar.read, Guard.factor, Evaluator.factor.eq_def]
  refine .bind (hb i ts hat) fun v j rest _ hj => ?_
  cases rest with
  | nil =>
    -- the cursor sees the mark of the end, where the list of tokens is empty
    obtain ⟨e, hkind, hpeek⟩ := hj.peek_nil
    have hne : e.kind ≠ .power := by rw [hkind]; decide
    refine ⟨j, ?_, hj⟩
    show (peek tokens j >>= _) = _
    rw [hpeek]
    exact if_neg hne
  | cons t tail =>
    show Mirrors tokens (peek tokens j >>= _) (if t.kind = .power then _ else _)
    rw [hj.peek_cons]
    show Mirrors tokens (if t.kind = .power then advance tokens j >>= _ else _) _
    split
    · rw [hj.advance_cons]
      cases room with
      | zero => exact .fault _
      | succ lower =>
        -- the exponent is read with the cursor behind the power sign
        refine .bind (hf lower rfl (j + 1) tail hj.tail) fun w l rest _ hl => ?_
        show Mirrors tokens (unhandled (power v w) >>= _) _
        rw [power_eq]
        exact ⟨l, rfl, hl⟩
    · exact ⟨j, rfl, hj⟩

/-- A group is closed by cursor as it is closed, if what it stands under does not fail. -/
theorem mirrors_close {apply' : Float → Except Trap Float} {apply : Float → Float}
    (happly : ∀ v, apply' v = .ok (apply v)) (v : Float) {i : Nat} {ts : List Token}
    (hat : At tokens i ts) :
    Mirrors tokens (close tokens apply' v i) (Evaluator.close apply (v, ts)) := by
  cases ts with
  | nil =>
    -- the cursor stays at the mark, which closes nothing
    obtain ⟨e, hkind, hadvance⟩ := hat.advance_nil
    have hne : e.kind ≠ .closeGroup := by rw [hkind]; decide
    rw [close, hadvance]
    show Mirrors tokens (if e.kind = .closeGroup then _ else Except.error (unexpected e)) _
    rw [if_neg hne, unexpected_of_finish hkind]
    exact .fault _
  | cons t tail =>
    rw [close, hat.advance_cons, Evaluator.close]
    show Mirrors tokens (if t.kind = .closeGroup then _ else _) _
    split
    · rw [happly]
      exact ⟨i + 1, rfl, hat.tail⟩
    · rw [(hat.proper t List.mem_cons_self).unexpected_eq]
      exact .fault _

/-- A numeral can be read, and the root of a group does not fail. -/
theorem Mirrored.base (hs : Mirrored tokens .sum places room)
    (hb : ∀ lower, room = lower + 1 → Mirrored tokens .base places lower) :
    Mirrored tokens .base (places + 1) room := by
  intro i ts hat
  rw [read, Grammar.read, Guard.base, Evaluator.base.eq_def]
  cases ts with
  | nil =>
    -- an operand is missing at the end, and the mark is reported for it
    obtain ⟨e, hkind, hadvance⟩ := hat.advance_nil
    rw [hadvance, ok_bind]
    simp only [hkind]
    rw [unexpected_of_finish hkind]
    exact .fault _
  | cons t tail =>
    have hproper := hat.proper t List.mem_cons_self
    rw [hat.advance_cons, ok_bind]
    simp only
    cases hkind : t.kind with
    | number =>
      -- a numeral has its value from the text, which cannot trap for a proper token
      show Mirrors tokens (unhandled (readNumeral t.text) >>= _) _
      rw [hproper.readNumeral_eq hkind]
      exact ⟨i + 1, rfl, hat.tail⟩
    | minus =>
      cases room with
      | zero => exact .fault _
      | succ lower =>
        refine .bind (hb lower rfl (i + 1) tail hat.tail) fun v k rest _ hk => ?_
        exact ⟨k, rfl, hk⟩
    | openGroup =>
      refine .bind (hs (i + 1) tail hat.tail) fun v k rest _ hk => ?_
      exact mirrors_close (fun _ => rfl) v hk
    | openRoot =>
      refine .bind (hs (i + 1) tail hat.tail) fun v k rest _ hk => ?_
      exact mirrors_close squareRoot_eq v hk
    | plus | times | divide | power | closeGroup | finish =>
      rw [hproper.unexpected_eq]
      exact .fault _

/-- Every reading by cursor mirrors the reading of the tokens ahead. -/
theorem mirrored (r : Rank) (places room : Nat) : Mirrored tokens r places room :=
  Rank.places_induction .exhausted .sum_zero (fun _ _ => .sum) (fun _ _ => .product)
    (fun _ _ => .factor) (fun _ _ => .base) r places room

/-- Behind the value of a sum there is the mark of the end, or a token that cannot stand there. -/
theorem parse_eq {ts : List Token} (hat : At tokens 0 ts) :
    (parse tokens places room).mapError handled = declaring (Evaluator.whole places room ts) := by
  have hsum : Mirrors tokens (sum tokens places room 0) (Evaluator.sum places room ts) :=
    mirrored .sum places room 0 ts hat
  rw [parse, Evaluator.whole]
  cases hread : Evaluator.sum places room ts with
  | error fault =>
    rw [hread] at hsum
    obtain ⟨stop, hstop, hfault⟩ := hsum
    rw [hstop]
    exact congrArg Except.error hfault
  | ok first =>
    obtain ⟨v, rest⟩ := first
    rw [hread] at hsum
    obtain ⟨j, hj, hrest⟩ := hsum
    rw [hj, ok_bind, ok_bind]
    cases rest with
    | nil =>
      -- nothing is left exactly if the cursor has come to the mark
      obtain ⟨e, hkind, hpeek⟩ := hrest.peek_nil
      show (peek tokens j >>= _).mapError handled = _
      rw [hpeek, ok_bind, if_pos hkind]
      rfl
    | cons t tail =>
      have hproper := hrest.proper t List.mem_cons_self
      show (peek tokens j >>= _).mapError handled = _
      rw [hrest.peek_cons, ok_bind, if_neg hproper.kind_ne, hproper.unexpected_eq]
      rfl

end Mirror

/-- The value of an expression. That the stack is exhausted is handled as a fault. -/
def evaluate (stack : Evaluator.Stack) (maxDepth : Int) (expression : String) :
    Guarded Fault Float :=
  match Token.tokenize expression with
  | .error stray => .error (.declared (.stray stray))
  | .ok tokens => (parse tokens stack.calls maxDepth.toNat).mapError handled

/-- At the start all tokens of an expression are ahead of the cursor. -/
theorem at_lexemes {w : String} {ts : List Token} (h : Token.lexemes w = .ok ts) :
    At (ts ++ [Token.finish w]) 0 ts :=
  ⟨⟨Token.finish w, rfl, List.drop_zero⟩, proper_of_lexemes h⟩

/-- **Reading with a cursor is evaluation**: it never runs into a trap that has no handler. -/
theorem evaluate_eq (stack : Evaluator.Stack) (maxDepth : Int) (expression : String) :
    evaluate stack maxDepth expression =
      declaring (Evaluator.evaluate stack maxDepth expression) := by
  unfold evaluate Evaluator.evaluate Token.tokenize
  cases hlexemes : Token.lexemes expression with
  | error stray => rfl
  | ok ts => exact parse_eq (at_lexemes hlexemes)

end KeypadCalc.Guard

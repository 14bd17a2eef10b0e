import KeypadCalc.Binary64.Power
import KeypadCalc.Token

/-!
# KeypadCalc — evaluating an expression

Values are computed while the tokens are read, by recursive descent over the grammar

```
sum     := product (('+' | '-') product)*
product := factor (('*' | '/') factor)*
factor  := base ('**' factor)?
base    := number | '(' sum ')' | 'sqrt(' sum ')' | '-' base
```

so a division by zero is met before a fault of grammar to its right. A sum, an exponent and the
operand of a minus sign are each one level deeper than what they stand in. `room` counts the levels
that may still be entered. A chain of operators of one rank is a loop and needs no level of its own.

Every call takes a place on the stack of the machine until it returns; `places` counts those that are
left. The descent is by recursion on them, for a call that finds none is not carried out: running
out of the stack is caught, and reported as too many levels.
-/

namespace KeypadCalc

inductive Fault where
  /-- No token starts at a character. -/
  | stray (stray : Token.Stray)
  /-- A token that cannot stand where it stands; `none` is the end of the expression. -/
  | unexpected (found : Option Token)
  | nestingTooDeep
  | divisionByZero
  deriving DecidableEq, Repr

namespace Evaluator

/-- The outcome of reading part of an expression: its value and the tokens behind it. -/
abbrev Reading := Except Fault (Float × List Token)

/-- An operator of a chain: it combines the value so far with the next operand. -/
abbrev Operation := Float → Float → Except Fault Float

/-- Division, refused for a divisor that is zero of either sign. -/
def divide (x y : Float) : Except Fault Float :=
  if y == 0.0 then .error .divisionByZero else .ok (x / y)

def additive? : Token.Kind → Option Operation
  | .plus => some fun x y => .ok (x + y)
  | .minus => some fun x y => .ok (x - y)
  | _ => none

def multiplicative? : Token.Kind → Option Operation
  | .times => some fun x y => .ok (x * y)
  | .divide => some divide
  | _ => none

/-- Goes on from a value through as many operators with their operands as follow, combining from the
left. Each takes at least one token, so `fuel` never has to exceed the number of tokens. -/
def chain (operand : List Token → Reading) (operation? : Token.Kind → Option Operation) :
    (fuel : Nat) → Float → List Token → Reading
  | 0, v, ts => .ok (v, ts)
  | _ + 1, v, [] => .ok (v, [])
  | fuel + 1, v, t :: ts =>
    match operation? t.kind with
    | none => .ok (v, t :: ts)
    | some operation => do
      let (w, rest) ← operand ts
      let u ← operation v w
      chain operand operation? fuel u rest

/-- Reads the parenthesis that closes a group and applies what the group stands under. -/
def close (apply : Float → Float) : Float × List Token → Reading
  | (v, t :: rest) =>
    if t.kind = .closeGroup then .ok (apply v, rest) else .error (.unexpected (some t))
  | (_, []) => .error (.unexpected none)

mutual

/-- Reads a sum, one level deeper than what it stands in. -/
def sum : (places room : Nat) → List Token → Reading
  | 0, _, _ => .error .nestingTooDeep
  | _ + 1, 0, _ => .error .nestingTooDeep
  | places + 1, room + 1, ts => do
    let (v, rest) ← product places room ts
    chain (product places room) additive? rest.length v rest

def product : (places room : Nat) → List Token → Reading
  | 0, _, _ => .error .nestingTooDeep
  | places + 1, room, ts => do
    let (v, rest) ← factor places room ts
    chain (factor places room) multiplicative? rest.length v rest

/-- Reads a base and the power it is raised to; the exponent is one level deeper. -/
def factor : (places room : Nat) → List Token → Reading
  | 0, _, _ => .error .nestingTooDeep
  | places + 1, room, ts => do
    let (v, rest) ← base places room ts
    match rest with
    | [] => .ok (v, [])
    | t :: tail =>
      if t.kind = .power then
        match room with
        | 0 => .error .nestingTooDeep
        | room + 1 => do
          let (w, rest) ← factor places room tail
          .ok (Binary64.power v w, rest)
      else .ok (v, t :: tail)

/-- Reads a numeral, a group, a root, or a minus sign with its operand. -/
def base : (places room : Nat) → List Token → Reading
  | 0, _, _ => .error .nestingTooDeep
  | _ + 1, _, [] => .error (.unexpected none)
  | places + 1, room, t :: rest =>
    match t.kind with
    | .number => .ok (t.value, rest)
    | .minus =>
      match room with
      | 0 => .error .nestingTooDeep
      | room + 1 => do
        let (v, rest) ← base places room rest
        .ok (-v, rest)
    | .openGroup => do close id (← sum places room rest)
    | .openRoot => do close Binary64.squareRoot (← sum places room rest)
    | _ => .error (.unexpected (some t))

end

/-- The value of a whole list of tokens: a sum with nothing behind it. -/
def whole (places room : Nat) (ts : List Token) : Except Fault Float := do
  match ← sum places room ts with
  | (v, []) => .ok v
  | (_, t :: _) => .error (.unexpected (some t))

/-- The most levels that a setting can allow. -/
def deepestSetting : Nat := 200

/-- What the stack of the machine has room for when an expression comes to be evaluated: so many calls
of readers, each with what it calls in passing. A level takes four calls. -/
structure Stack where
  calls : Nat
  /-- The levels that a setting can allow find room. -/
  enough : 4 * deepestSetting < calls
  deriving DecidableEq, Repr

/-- The stack of a machine that has a thousand calls, with a few of them taken. -/
def Stack.usual : Stack := ⟨996, by decide⟩

def defaultMaxDepth : Int := 100

/-- The value of an expression: all of it is cut into tokens first, then read. -/
def evaluate (stack : Stack) (maxDepth : Int) (expression : String) : Except Fault Float :=
  match Token.lexemes expression with
  | .error stray => .error (.stray stray)
  | .ok ts => whole stack.calls maxDepth.toNat ts

end Evaluator

end KeypadCalc

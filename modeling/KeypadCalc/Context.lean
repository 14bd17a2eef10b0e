/-!
# KeypadCalc — the request and the session at hand

While a request is answered, its id, and inside a key press the id of the keypad session, are at
hand for error bodies and log records. Setting one of the two ids gives a token; handing the token
back restores what the id was before. A token restores once, and only the id that it was given for.
-/

namespace KeypadCalc

/-- The ids that can be at hand. -/
inductive Context.Slot where
  | requestId
  | sessionId
  deriving DecidableEq, Repr

/-- A receipt for setting an id: which one, what it was before, and a number of its own. -/
structure Context.Token where
  slot : Context.Slot
  previous : Option String
  serial : Nat
  deriving DecidableEq, Repr

/-- The ids at hand, the number of tokens given out and the numbers of those already used. -/
structure Context where
  requestId : Option String := none
  sessionId : Option String := none
  issued : Nat := 0
  used : List Nat := []
  deriving DecidableEq, Repr

namespace Context

/-- Why a token restores nothing. -/
inductive ResetFault where
  | alreadyUsed
  | otherSlot
  deriving DecidableEq, Repr

/-- The id at hand in a slot. -/
def get (c : Context) : Slot → Option String
  | .requestId => c.requestId
  | .sessionId => c.sessionId

/-- A context with the value of an id replaced, and nothing else. -/
def put (c : Context) (v : Slot) (value : Option String) : Context :=
  match v with
  | .requestId => { c with requestId := value }
  | .sessionId => { c with sessionId := value }

/-- Sets an id, and gives the token that restores what was there. -/
def set (c : Context) (v : Slot) (value : Option String) : Token × Context :=
  (⟨v, c.get v, c.issued⟩, { c.put v value with issued := c.issued + 1 })

/-- Restores an id to what it was before the token was given; whether the token has been used is
looked at first. -/
def reset (c : Context) (v : Slot) (token : Token) : Except ResetFault Context :=
  if c.used.contains token.serial then .error .alreadyUsed
  else if token.slot ≠ v then .error .otherSlot
  else .ok { c.put v token.previous with used := token.serial :: c.used }

/-- How an id is shown; a dash stands for none. -/
def shown : Option String → String
  | some id => if id.isEmpty then "-" else id
  | none => "-"

/-- What has been put is there. -/
@[simp] theorem get_put_self (c : Context) (v : Slot) (value : Option String) :
    (c.put v value).get v = value := by
  cases v <;> rfl

theorem get_put_of_ne (c : Context) {v w : Slot} (h : w ≠ v) (value : Option String) :
    (c.put v value).get w = c.get w := by
  cases v <;> cases w <;> first | rfl | exact absurd rfl h

/-- What has been set is there. -/
@[simp] theorem get_set_self (c : Context) (v : Slot) (value : Option String) :
    (c.set v value).2.get v = value := by
  cases v <;> rfl

theorem get_set_of_ne (c : Context) {v w : Slot} (h : w ≠ v) (value : Option String) :
    (c.set v value).2.get w = c.get w := by
  cases v <;> cases w <;> first | rfl | exact absurd rfl h

end Context

end KeypadCalc

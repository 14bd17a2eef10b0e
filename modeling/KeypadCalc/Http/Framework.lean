import KeypadCalc.Http.Message
import KeypadCalc.Keypad

/-!
# KeypadCalc — the framework of the server

Between the wire and the handlers of the server stands a framework. It reads the address of a
request, finds the handler that the request is for, and reads the parts of the request that this
handler takes; it answers by itself where there is no handler or a part does not fit; and it writes
out the values that handlers give. The program tells it the routes of its handlers and the types of
their parameters, and sees no more of it than that, so all of it stands here as a value. What the
program counts on is `Framework.Lawful`.
-/

namespace KeypadCalc.Http

/-- A part of a request, as a framework hands it to a handler. Where it does not, the answer is the
framework's own, or missing where the framework breaks down. -/
inductive Input (α : Type) where
  /-- The request cannot be read, which shows before anything else is looked at. -/
  | unread (answer : Option Response)
  /-- The part is not what the handler takes, which shows once all else that it needs is there. -/
  | unfit (answer : Option Response)
  | given (value : α)

/-- The handler that a request is for, with the parts of the request that it takes. -/
inductive Call where
  | calculate (query : Input String)
  | keypadState (id : String)
  | keypadPress (id : String) (key : Input Keypad.Key)
  | keypadReset (id : String)
  | health
  /-- No handler; the answer is the framework's own, or missing where the framework breaks down. -/
  | unrouted (answer : Option Response)

structure Framework where
  /-- The path in the address of a request, if that can be taken apart: it is made of the host that
  the request names, which may be anything. -/
  path? : Request → Option String
  /-- What a request is for, where pages of the listed origins may call. -/
  call : (origins : List String) → Request → Call
  /-- The headers that are added to a response for the sake of those origins. -/
  marks : (origins : List String) → Request → Response → Headers
  /-- Whether a value can be written into a response. -/
  writes : Json → Bool

/-- A framework writes every value that JSON in bytes has a place for. -/
structure Framework.Lawful (framework : Framework) : Prop where
  writes_of_isPlain : ∀ {json : Json}, json.isPlain = true → framework.writes json = true

end KeypadCalc.Http

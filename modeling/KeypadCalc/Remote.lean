import KeypadCalc.Calculator
import KeypadCalc.Json.Encoding

/-!
# KeypadCalc — a remote calculator

An expression may be evaluated by another calculator over HTTP. The client sends the expression
without the blanks around it, as the only parameter of a request; an expression of blanks is refused
without one. What comes back is read in two steps: `Reply` is what the wire delivers, and
`interpret` turns a status and a body into an answer or a fault. A status of success promises an
answer in JSON; any other status promises nothing, and a message is taken from its body only where
there is one.

What the client leaves to others stands here as a value. A `Wire` replies to a request, by what has
been sent before and by the request itself. A `Library` checks whether a JSON value is an answer, and
has room for so many levels of nested JSON.
-/

namespace KeypadCalc

/-- What comes of a request. -/
inductive Remote.Reply where
  /-- No answer came, for a reason. -/
  | lost (reason : String)
  /-- The request could not even be made, as when there is no such address. -/
  | unmade
  | delivered (status : Nat) (body : ByteArray)

/-- What a client asks: the text as the one parameter of an address. -/
structure Remote.Request where
  url : String
  query : String
  timeout : Float
  deriving DecidableEq

/-- What comes of a request, given those before it, and the requests so far, those included that
could not be made. -/
structure Remote.Wire where
  reply : List Remote.Request → Remote.Request → Remote.Reply := fun _ _ => .lost "no reply"
  sent : List Remote.Request := []

/-- An answer as a remote calculator gives it; its texts may be torn. -/
structure RawAnswer where
  expression : RawText
  result : Number
  display : RawText
  deriving DecidableEq

/-- The answer of a calculator at hand, among those that may come from afar. -/
def Answer.raw (a : Answer) : RawAnswer :=
  ⟨a.expression, a.result, a.display⟩

def RawAnswer.toJson (a : RawAnswer) : Json :=
  .object [("expression", .string a.expression), ("result", a.result.toJson),
    ("display", .string a.display)]

/-- Why a calculator, near or far, ends without an answer. -/
inductive Breakdown where
  /-- A refusal with a cause that a client is told. -/
  | refused (error : CalculatorError)
  /-- The remote answer was JSON but no answer of a calculator. -/
  | unfit (issues : List Issue)
  /-- The remote answer was nested too deep to be read. -/
  | overNested
  /-- The request to the remote calculator could not be made. -/
  | unmade

/-- An answer, perhaps torn, or why there is none. -/
abbrev Outcome := Except Breakdown RawAnswer

namespace Remote

/-- What a client is built on. -/
structure Library where
  /-- The levels of nested lists and objects that the stack has room for. -/
  nesting : Nat
  /-- The answer that a JSON value holds, if it is one. -/
  validate : Json → Checked RawAnswer

/-- What a calculator at hand answers, in JSON, is an answer to the library. -/
structure Library.Lawful (library : Library) : Prop where
  validate_raw : ∀ a : Answer, library.validate a.raw.toJson = .ok a.raw

namespace Wire

/-- Replies that come one after the other, whatever is asked; the last one repeats. -/
def ofReplies (replies : List Reply) : Wire where
  reply sent _ := (replies[sent.length]?).getD (replies.getLastD (.lost "no reply"))

/-- Hands a request over, and takes what comes of it. -/
def exchange (w : Wire) (request : Request) : Reply × Wire :=
  (w.reply w.sent request, { w with sent := w.sent ++ [request] })

end Wire

/-- A client of a remote calculator: the address that routes are appended to, and how many seconds
it waits. -/
structure Client where
  baseUrl : String
  timeout : Float := 5.0

/-- The address that requests go to. -/
def Client.url (client : Client) : String :=
  client.baseUrl ++ "/calc"

/-- The message and the type in the body of a refusal: those of its `error` object, if it has
one. -/
def refusal (status : Nat) (payload : Json) : RemoteFault :=
  match payload.field? "error" with
  | some (.object fields) =>
    .refused status (fields.lookup (.whole "message")) ((fields.lookup (.whole "type")).getD .null)
  | _ => .refused status none .null

/-- The outcome for a status and a body, which may not be JSON. -/
def interpret (library : Library) (status : Nat) (payload : Except Json.ReadFault Json) : Outcome :=
  match payload with
  | .error .tooDeep => .error .overNested
  | .error (.malformed _) =>
    .error (.refused (.remote (if status = 200 then .notJson else .refused status none .null)))
  | .ok json =>
    if status = 200 then (library.validate json).mapError .unfit
    else .error (.refused (.remote (refusal status json)))

/-- What a reply comes to. -/
def Reply.outcome (library : Library) : Reply → Outcome
  | .lost _ => .error (.refused (.remote .unavailable))
  | .unmade => .error .unmade
  | .delivered status body => interpret library status (Json.ofBytes library.nesting body)

/-- The request for a text. -/
def Client.request (client : Client) (query : String) : Request :=
  ⟨client.url, query, client.timeout⟩

/-- What a client does with a text: it refuses blanks, and sends anything else. -/
inductive Attempt where
  | refused
  | answered (reply : Reply)

def Attempt.outcome (library : Library) : Attempt → Outcome
  | .refused => .error (.refused .emptyExpression)
  | .answered reply => reply.outcome library

/-- Sends a text without the blanks around it, unless nothing is left of it. -/
def Client.attempt (client : Client) (text : String) (w : Wire) : Attempt × Wire :=
  let query := Text.trim text
  if query.isEmpty then (.refused, w)
  else
    let (reply, w) := w.exchange (client.request query)
    (.answered reply, w)

/-! ## A library -/

namespace Library

/-- A number in an answer: an integer, a floating-point number, or a truth value or text read as a
floating-point number. What is none of these is at fault as either kind of number. -/
def checkNumber (name : String) : Json → Checked Number
  | .int n => .ok (.int n)
  | .float x => .ok (.float x)
  | .bool b => .ok (.float (if b then 1.0 else 0.0))
  | .string s =>
    match Text.float? s.shown with
    | some x => .ok (.float x)
    | none => .error [⟨.floatParsing, [.field name, .field "float"]⟩,
        ⟨.intParsing, [.field name, .field "int"]⟩]
  | _ => .error [⟨.floatType, [.field name, .field "float"]⟩,
      ⟨.intType, [.field name, .field "int"]⟩]

/-- The answer in the fields of an object; fields that an answer does not have are passed over. -/
def answerOf : Json → Checked RawAnswer
  | .object fields =>
    (Checked.both (Issue.required fields "expression" Issue.checkText)
      (Checked.both (Issue.required fields "result" checkNumber)
        (Issue.required fields "display" Issue.checkText))).map
      fun (expression, result, display) => ⟨expression, result, display⟩
  | _ => .error [⟨.modelType, []⟩]

/-- A library that takes a number from a truth value or a text too, on a stack with room for some
hundreds of levels. -/
def usual : Library where
  nesting := 950
  validate := answerOf

/-- What is answered here is taken for an answer, with an integer as with a double. -/
theorem lawful_usual : usual.Lawful where
  validate_raw a := by
    obtain ⟨expression, result, display⟩ := a
    cases result <;> rfl

end Library

end Remote

end KeypadCalc

import KeypadCalc.Http.Message

/-!
# KeypadCalc — routes

Five routes lead to what the server does: to evaluate an expression, to read, press and drop a
keypad, and to ask whether the server is up. A route is a path and a method. A request with another
method on a known path is refused with the method of the first route there. A path that is known
but for the slashes at its end is answered with the address of the known one.
-/

namespace KeypadCalc.Http

inductive Route where
  | calculate
  | keypadState (id : String)
  | keypadPress (id : String)
  | keypadReset (id : String)
  | health
  deriving DecidableEq, Repr

namespace Route

def method : Route → String
  | .calculate => "GET"
  | .keypadState _ => "GET"
  | .keypadPress _ => "POST"
  | .keypadReset _ => "DELETE"
  | .health => "GET"

/-- Whether a path, or what is left of one, is the given text; a line feed may stand behind it. -/
def isPath (expected : String) (cs : List Char) : Bool :=
  cs == expected.toList || cs == expected.toList ++ ['\n']

def keypads : List Char := "/keypad/".toList

/-- The id of a session in a path and what stands behind it; an id holds at least one character and
no slash. -/
def keypadPath? (cs : List Char) : Option (String × List Char) :=
  if keypads.isPrefixOf cs then
    let tail := cs.drop keypads.length
    match tail.takeWhile (· != '/') with
    | [] => none
    | id => some (String.ofList id, tail.dropWhile (· != '/'))
  else none

/-- The routes on a path, in order. -/
def onPath (path : String) : List Route :=
  if isPath "/calc" path.toList then [.calculate]
  else if isPath "/health" path.toList then [.health]
  else match keypadPath? path.toList with
    | some (id, []) => [.keypadState id, .keypadReset id]
    | some (id, rest) => if isPath "/press" rest then [.keypadPress id] else []
    | none => []

/-- A path without the slashes at its end, or with one added where there is none. -/
def otherEnding (path : String) : String :=
  match path.toList.reverse with
  | '/' :: rest => String.ofList (rest.dropWhile (· == '/')).reverse
  | _ => path ++ "/"

end Route

inductive Resolution where
  | found (route : Route)
  /-- The path is known, but not with this method. -/
  | otherMethod (allowed : String)
  /-- Another path is known, which differs by slashes at the end. -/
  | moved (path : String)
  | unknown
  deriving DecidableEq, Repr

def Resolution.of (method path : String) : Resolution :=
  match Route.onPath path with
  | first :: more =>
    match (first :: more).find? (·.method == method) with
    | some route => .found route
    | none => .otherMethod first.method
  | [] =>
    let other := Route.otherEnding path
    if path = "/" || (Route.onPath other).isEmpty then .unknown else .moved other

example : Resolution.of "GET" "/keypad/x" = .found (.keypadState "x") ∧
    Resolution.of "PUT" "/keypad/x/press" = .otherMethod "POST" ∧
    Resolution.of "POST" "/calc//" = .moved "/calc" ∧
    Resolution.of "GET" "/keypad//press" = .unknown := by decide +kernel

end KeypadCalc.Http

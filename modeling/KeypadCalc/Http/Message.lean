import KeypadCalc.Issue

/-!
# KeypadCalc — requests and responses

What the server is asked and what it says. A path is held in plain characters, a query as it was
sent, and a body in bytes. The names of headers do not tell upper from lower case.
-/

namespace KeypadCalc.Http

/-- Names and values, in order. -/
abbrev Headers := List (String × String)

namespace Headers

/-- Whether a header has a name, which is given in lower case. -/
def isNamed (name : String) (header : String × String) : Bool :=
  String.ofList (header.1.toList.map Char.toLower) == name

/-- The value of the first header with a name. -/
def get? (headers : Headers) (name : String) : Option String :=
  (headers.find? (isNamed name)).map (·.2)

/-- Headers with one of them set: in the place of the first one with its name, and of any other, or
else at the end. -/
def set (name value : String) : Headers → Headers
  | [] => [(name, value)]
  | header :: rest =>
    if isNamed name header then (name, value) :: rest.filter (!isNamed name ·)
    else header :: set name value rest

/-- A header that has been set is found, whatever stood there. -/
theorem get?_set {name : String} (value : String) (hname : isNamed name (name, value) = true)
    (headers : Headers) : (headers.set name value).get? name = some value := by
  induction headers with
  | nil => simp [set, get?, hname]
  | cons header rest ih =>
    by_cases h : isNamed name header = true
    · simp [set, get?, h, hname]
    · simpa [set, get?, h] using ih

example : Headers.set "allow" "GET" [("Allow", "PUT"), ("server", "x"), ("ALLOW", "")] =
    [("allow", "GET"), ("server", "x")] := by decide

end Headers

/-- What a client sends. -/
structure Request where
  method : String
  path : String
  query : String := ""
  headers : Headers := []
  body : ByteArray := .empty

/-- What stands in a response. -/
inductive Body where
  | json (value : Json)
  | text (text : String)
  /-- The issues for which a request was turned away. -/
  | invalid (issues : List Issue)

/-- What the server sends back. -/
structure Response where
  status : Nat
  headers : Headers := []
  body : Body

namespace Response

def json (status : Nat) (value : Json) : Response :=
  { status, body := .json value }

def text (status : Nat) (text : String) : Response :=
  { status, body := .text text }

/-- A line in the shape of the framework's own answers. -/
def detail (status : Nat) (line : String) : Response :=
  json status (.ofFields [("detail", .string line)])

/-- A request that was turned away for its parts. -/
def invalid (issues : List Issue) : Response :=
  { status := 422, body := .invalid issues }

/-- A response with headers added behind its own. -/
def withHeaders (response : Response) (headers : Headers) : Response :=
  { response with headers := response.headers ++ headers }

/-- A response with one header set. -/
def setHeader (response : Response) (name value : String) : Response :=
  { response with headers := response.headers.set name value }

end Response

end KeypadCalc.Http

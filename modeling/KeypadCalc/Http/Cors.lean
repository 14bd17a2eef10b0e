import KeypadCalc.Http.Message

/-!
# KeypadCalc — requests from other origins

A page in a browser may call the server if the origin of the page is on a list; a star on the list
stands for every origin. A browser asks beforehand whether a call is allowed, by a preflight: a
request that is answered here and reaches no route. The response to any other request from an
origin says whether the page may read it.
-/

namespace KeypadCalc.Http.Cors

def methods : List String :=
  ["DELETE", "GET", "HEAD", "OPTIONS", "PATCH", "POST", "PUT", "QUERY"]

def allows (origins : List String) (origin : String) : Bool :=
  origins.contains "*" || origins.contains origin

/-- The header that names an origin as allowed, where it is. -/
def allowedOrigin (origins : List String) (origin : String) : Headers :=
  if allows origins origin then [("access-control-allow-origin", origin)] else []

/-- The headers on every response to an origin: calls may carry credentials. -/
def originHeaders (origins : List String) (origin : String) : Headers :=
  ("access-control-allow-credentials", "true") :: allowedOrigin origins origin

def refusals (origins : List String) (origin method : String) : List String :=
  (if allows origins origin then [] else ["origin"])
    ++ (if methods.contains method then [] else ["method"])

/-- The response to a preflight. The headers that the call wants to send are all allowed. -/
def preflight (origins : List String) (origin method : String) (wanted : Option String) :
    Response :=
  let headers := originHeaders origins origin
    ++ [("access-control-allow-methods", ", ".intercalate methods)]
    ++ (wanted.map fun names => ("access-control-allow-headers", names)).toList
  match refusals origins origin method with
  | [] => (Response.text 200 "OK").withHeaders headers
  | faults =>
    (Response.text 400 ("Disallowed CORS " ++ ", ".intercalate faults)).withHeaders headers

def preflight? (origins : List String) (request : Request) : Option Response := do
  let origin ← request.headers.get? "origin"
  let method ← request.headers.get? "access-control-request-method"
  if request.method = "OPTIONS" && !origins.isEmpty then
    preflight origins origin method (request.headers.get? "access-control-request-headers")
  else none

/-- The headers for the origin of a request, on any response but that to a preflight. Without an
origin on the list, origins are not looked at. -/
def marks (origins : List String) (request : Request) : Headers :=
  match request.headers.get? "origin" with
  | some origin =>
    if origins.isEmpty || (preflight? origins request).isSome then []
    else originHeaders origins origin
  | none => []

end KeypadCalc.Http.Cors

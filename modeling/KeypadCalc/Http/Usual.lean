import KeypadCalc.Http.Cors
import KeypadCalc.Http.Percent
import KeypadCalc.Http.Route
import KeypadCalc.Http.Server
import KeypadCalc.Json.Encoding

/-!
# KeypadCalc — a framework

A `Framework` without pages of its own: preflights are answered before any route is looked for, a
query is read leniently, and a body by what its header says that it is. This is the framework of
`Platform.usual`.
-/

namespace KeypadCalc.Http.Usual

/-! ## Addresses -/

/-- The host that a request names, and its path behind it. Tabs and line ends do not count in an
address. -/
def address (request : Request) : List Char :=
  let named := (request.headers.get? "host").getD ""
  (named ++ request.path).toList.filter fun c => c != '\t' && c != '\n' && c != '\r'

/-- The path in the address of a request, up to where a query or a fragment would start. A bracket
around the host that has no other half is no address. -/
def path? (request : Request) : Option String :=
  let authority := (address request).takeWhile fun c => c != '/' && c != '?' && c != '#'
  let rest := (address request).drop authority.length
  if authority.contains '[' != authority.contains ']' then none
  else some (String.ofList (rest.takeWhile fun c => c != '?' && c != '#'))

/-- The address of another path on the host of a request. -/
def location (request : Request) (path : String) : String :=
  let host := (request.headers.get? "host").elim "" ("http://" ++ ·)
  let behind := if request.query.isEmpty then "" else "?" ++ request.query
  String.ofList (Percent.encode (host ++ path ++ behind).toList)

example : path? ⟨"GET", "/a?b", "", [("Host", "[::1]:80")], .empty⟩ = some "/a" ∧
    path? ⟨"GET", "/a", "", [("Host", "[")], .empty⟩ = none := by decide +kernel

/-! ## The parts of a request -/

def queryOf (request : Request) : Input String :=
  match Query.value? request.query "query" with
  | some text => .given text
  | none => .unfit (some (.invalid [⟨.missing, [.field "query", .field "query"]⟩]))

/-- Whether a body is JSON by what its header says, or for want of a header. -/
def isJson (contentType : String) : Bool :=
  let kind := Text.trimChars (contentType.toList.takeWhile (· != ';'))
  match Text.split '/' (kind.map Char.toLower) with
  | [main, sub] =>
    main == "application".toList && (sub == "json".toList || "+json".toList.isSuffixOf sub)
  | _ => contentType.isEmpty

/-- The value that the bytes of a body write. -/
def valueOf (nesting : Nat) (body : ByteArray) : Except Response Json :=
  let unparsed := Response.detail 400 "There was an error parsing the body"
  match Json.Encoding.decode? body with
  | none => .error unparsed
  | some points =>
    match Json.ofPoints nesting points with
    | .ok value => .ok value
    | .error .tooDeep => .error unparsed
    | .error (.malformed rest) => .error (.invalid
        [⟨.jsonInvalid, [.field "body", .index (points.length - rest.length)]⟩])

def keyIn : Json → Checked Keypad.Key
  | .object fields =>
    match fields.lookup (.whole "key") with
    | none => .error [⟨.missing, [.field "body", .field "key"]⟩]
    | some value =>
      (Keypad.Key.ofJson? value).elim (.error [⟨.enum, [.field "body", .field "key"]⟩]) .ok
  | _ => .error [⟨.modelAttributesType, [.field "body"]⟩]

/-- The key that a body names. What cannot be parsed is turned away as unread. -/
def keyOf (nesting : Nat) (request : Request) : Input Keypad.Key :=
  if request.body.isEmpty then .unfit (some (.invalid [⟨.missing, [.field "body"]⟩]))
  else if isJson ((request.headers.get? "content-type").getD "") then
    match valueOf nesting request.body with
    | .error answer => .unread (some answer)
    | .ok value =>
      match keyIn value with
      | .ok key => .given key
      | .error issues => .unfit (some (.invalid issues))
  else .unfit (some (.invalid [⟨.modelAttributesType, [.field "body"]⟩]))

example : isJson "" = true ∧ isJson "Application/json; charset=utf-8" = true ∧
    isJson "application/problem+json" = true ∧ isJson "text/plain" = false := by decide +kernel

/-! ## What a request is for -/

def callOf (nesting : Nat) (request : Request) : Route → Call
  | .calculate => .calculate (queryOf request)
  | .keypadState id => .keypadState id
  | .keypadPress id => .keypadPress id (keyOf nesting request)
  | .keypadReset id => .keypadReset id
  | .health => .health

def call (nesting : Nat) (origins : List String) (request : Request) : Call :=
  match Cors.preflight? origins request with
  | some response => .unrouted (some response)
  | none =>
    match Resolution.of request.method request.path with
    | .found route => callOf nesting request route
    | .otherMethod allowed =>
      .unrouted (some ((Response.detail 405 "Method Not Allowed").withHeaders [("allow", allowed)]))
    | .moved path =>
      .unrouted (some ((Response.text 307 "").withHeaders [("location", location request path)]))
    | .unknown => .unrouted (some (.detail 404 "Not Found"))

/-- The framework, on a stack with room for so many levels of nested JSON. -/
def framework (nesting : Nat) : Framework where
  path? := path?
  call := call nesting
  marks origins request _ := Cors.marks origins request
  writes := Json.isPlain

theorem lawful_framework (nesting : Nat) : (framework nesting).Lawful :=
  ⟨fun h => h⟩

end KeypadCalc.Http.Usual

namespace KeypadCalc.Http

/-- A platform on which expressions nest as deep as the settings allow. -/
def Platform.usual : Platform where
  stack := .usual
  library := .usual
  framework := Usual.framework Remote.Library.usual.nesting

end KeypadCalc.Http

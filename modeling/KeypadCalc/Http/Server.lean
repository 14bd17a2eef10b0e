import KeypadCalc.Http.Framework
import KeypadCalc.Session
import KeypadCalc.Settings

/-!
# KeypadCalc — the server

The server keeps the sessions of the keypads and answers one request after the other. Around every
answer stands the same frame: the id of the request is at hand while it is answered and restored
afterwards, its start and its end are noted, and the response carries the id. Inside the frame a
request follows its `Call`.

A handler ends in one of three ways. It answers; or it fails with a cause that the client is told in
the shape of `Failure.payload`; or it breaks down for a reason that is none of the client's, which
leaves the client with a bare status. The settings are read anew from the environment by every
request that needs them, except for the origins and the level of the journal, which are fixed when
the server starts.
-/

namespace KeypadCalc.Http

/-- What the program runs on: the stack of the machine, the library of its client, and the framework
of its server. -/
structure Platform where
  stack : Evaluator.Stack
  library : Remote.Library
  framework : Framework

inductive Ending where
  | answered (response : Response)
  | failed (failure : Failure)
  | brokenDown

namespace Ending

def ofBreakdown : Breakdown → Ending
  | .refused error => .failed error.failure
  | .unfit _ | .overNested | .unmade => .brokenDown

/-- How a request ends that the framework answers by itself. -/
def ofOwn : Option Response → Ending
  | some response => .answered response
  | none => .brokenDown

end Ending

/-- A value as the response to a request. It can break down over writing it, when all else has been
done. -/
def Framework.written (framework : Framework) (status : Nat) (json : Json) : Ending :=
  if framework.writes json then .answered (.json status json) else .brokenDown

/-- What a handler goes to work with: a part of its request, and what it needs besides. -/
def Input.gather {α β : Type} (needs : Except Ending β) : Input α → Except Ending (β × α)
  | .unread answer => .error (.ofOwn answer)
  | .unfit answer => do
    let _ ← needs
    .error (.ofOwn answer)
  | .given value => do
    return (← needs, value)

/-- The settings that a handler works under, read anew. -/
def settingsFor (environment : Settings.Environment) : Except Ending Settings :=
  (Settings.ofEnvironment environment).mapError fun _ => .brokenDown

section

variable (platform : Platform) (environment : Settings.Environment) (store : Session.Store)

/-! ## Evaluating an expression -/

def calculate (query : Input String) : Work Ending :=
  match query.gather (settingsFor environment) with
  | .error ending => return ending
  | .ok (settings, text) => do
    match ← Calculator.localService (settings.limits platform.stack) text with
    | .ok answer => return platform.framework.written 200 answer.toJson
    | .error breakdown => return .ofBreakdown breakdown

/-! ## Keypads -/

def sessionNotFound (id : String) : Failure :=
  ⟨.sessionNotFound, .string ("Keypad session '" ++ id ++ "' does not exist."),
    [("sessionId", .string id)]⟩

def showKeypad (id : String) : Ending :=
  match store.get? id with
  | some state => platform.framework.written 200 state.toJson
  | none => .failed (sessionNotFound id)

/-- What a keypad works with: a calculator and the cap on the digits of an operand. -/
structure Workings where
  service : Calculator.Service
  maxDigits : Int

def workings : Except Ending Workings := do
  let settings ← settingsFor environment
  if settings.usesRemote then
    match settings.client with
    | .error error => .error (.failed error.failure)
    | .ok client => .ok ⟨client.service platform.library, settings.keypadMaxDigits⟩
  else
    .ok ⟨Calculator.localService (settings.limits platform.stack), settings.keypadMaxDigits⟩

/-- Presses a key with the id of the session at hand, and answers the new state. The state is saved
before it is written. -/
def pressKey (id : String) (key : Input Keypad.Key) : Work (Ending × Session.Store) :=
  match key.gather (workings platform environment) with
  | .error ending => return (ending, store)
  | .ok (workings, key) => do
    let token ← Work.setId .sessionId (some id)
    let (result, store) ← store.update id fun state =>
      Keypad.press workings.service workings.maxDigits state key
    Work.resetId .sessionId token
    match result with
    | .ok state => return (platform.framework.written 200 state.toJson, store)
    | .error breakdown => return (.ofBreakdown breakdown, store)

/-! ## Requests -/

def Call.serve : Call → Work (Ending × Session.Store)
  | .calculate query => return (← Http.calculate platform environment query, store)
  | .keypadState id => return (showKeypad platform store id, store)
  | .keypadPress id key => pressKey platform environment store id key
  | .keypadReset id => return (.answered (.text 204 ""), (store.clear id).2)
  | .health => return (.answered (.json 200 (.ofFields [("status", .string "ok")])), store)
  | .unrouted answer => return (.ofOwn answer, store)

end

/-- The response of a handler, if there is one. A failure is noted, and reported with the id of the
request. -/
def Ending.response? (framework : Framework) (path : String) : Ending → Work (Option Response)
  | .answered response => return some response
  | .failed failure => do
    Work.note (.failureReported failure.kind.type path)
    let payload := failure.payload (← get).context.requestId
    return if framework.writes payload then some (.json failure.kind.status payload) else none
  | .brokenDown => return none

/-! ## The server -/

/-- A server: what it runs on and in, the origins fixed at its start, the sessions, and the
surroundings. -/
structure Server where
  platform : Platform
  environment : Settings.Environment
  origins : List String
  store : Session.Store := {}
  surroundings : Surroundings := {}

/-- What is sent where a request breaks down. -/
def breakdownResponse : Response :=
  .text 500 "Internal Server Error"

/-- The name of the header with the id of a request. -/
def idHeader : String := "x-request-id"

namespace Server

inductive StartFault where
  | settings (fault : Settings.Fault)
  /-- The level set for the journal is none. -/
  | unknownLevel (name : String)

/-- A server at its start, without sessions. -/
def start (platform : Platform) (environment : Settings.Environment)
    (surroundings : Surroundings) : Except StartFault Server := do
  let settings ← (Settings.ofEnvironment environment).mapError .settings
  match Log.Level.ofName? (Text.upper settings.logLevel) with
  | none => .error (.unknownLevel settings.logLevel)
  | some level =>
    .ok ⟨platform, environment, settings.resolvedOrigins, {}, { surroundings with threshold := level }⟩

/-- The response to a request with a path, if there is one, and the sessions behind it. -/
def respond (server : Server) (path : String) (request : Request) :
    Work (Option Response × Session.Store) := do
  let framework := server.platform.framework
  let (ending, store) ←
    (framework.call server.origins request).serve server.platform server.environment server.store
  let response? ← ending.response? framework path
  return (response?.map fun r => r.withHeaders (framework.marks server.origins request r), store)

/-- Answers a request within its frame. The response carries the id that the request brought, or
else the one that was made for it. An address that cannot be taken apart is met when the id is set
already, and before anything looks after restoring it. -/
def frame (server : Server) (request : Request) : Work (Response × Session.Store) := do
  let given := request.headers.get? idHeader
  let token ← Work.setRequestId given
  match server.platform.framework.path? request with
  | none => return (breakdownResponse, server.store)
  | some path =>
    Work.note (.requestStarted request.method path)
    let (response?, store) ← server.respond path request
    let current := (← get).context.requestId
    Work.note (.requestEnded request.method path
      (response?.elim breakdownResponse.status (·.status)))
    Work.resetId .requestId token
    let id := (given.filter (!·.isEmpty)).getD (current.getD "")
    return ((response?.map (·.setHeader idHeader id)).getD breakdownResponse, store)

/-- The response to a request, and the server after it. -/
def handle (server : Server) (request : Request) : Response × Server :=
  let ((response, store), surroundings) := (server.frame request).run server.surroundings
  (response, { server with store, surroundings })

end Server

end KeypadCalc.Http

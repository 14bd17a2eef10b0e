import KeypadCalc.Http.Server
import KeypadCalc.Proofs.Work

/-!
# KeypadCalc — what the frame leaves of an answer

Around the handler of a request the server notes, adds headers and restores the id of the request.
None of this touches what the handler decided:

* **`handle_eq`** — the response is what the handler's ending reports (`Ending.reported?`) with
  headers added, and the sessions behind a request are those that the handler left. A request whose
  address cannot be taken apart comes to no handler.
* **`handle_conveys`** — so the status and the body of a response are told by the ending alone, but
  for the id in the report of a failure.

All of it is stated for the surroundings in which the handler ran (`Server.inside`), which the frame
has noted in before, and for any framework.
-/

namespace KeypadCalc.Http

/-! ## Reports -/

/-- The response for how a handler ended, if there is one: a failure is reported with an id, and a
report that cannot be written is none. -/
def Ending.reported? (framework : Framework) (traceId : Option String) : Ending → Option Response
  | .answered response => some response
  | .failed failure =>
    if framework.writes (failure.payload traceId) then
      some (.json failure.kind.status (failure.payload traceId))
    else none
  | .brokenDown => none

/-- To report an ending gives the response for it with the id at hand. A failure is noted first,
which changes no id. -/
theorem response?_run (framework : Framework) (path : String) (ending : Ending)
    (w : Surroundings) :
    ((ending.response? framework path).run w).1 =
      ending.reported? framework w.context.requestId := by
  cases ending with
  | answered response => rfl
  | failed failure =>
    have hcontext := w.note_context (.failureReported failure.kind.type path)
    change (if framework.writes (failure.payload
      (w.note (.failureReported failure.kind.type path)).context.requestId) then _ else _) = _
    rw [hcontext]
    rfl
  | brokenDown => rfl

/-- A response says what another one does, whatever the headers of the two are, or what is sent in
place of none. -/
structure Response.Says (response : Response) (said? : Option Response) : Prop where
  status_eq : response.status = (said?.getD breakdownResponse).status
  body_eq : response.body = (said?.getD breakdownResponse).body

/-- What a response says of how a handler ended. The id of the request, which stands in the report
of a failure, is left open. -/
def Response.Conveys (framework : Framework) (response : Response) (ending : Ending) : Prop :=
  ∃ traceId, response.Says (ending.reported? framework traceId)

theorem Response.says_map {said? : Option Response} {f : Response → Response}
    (hf : ∀ r : Response, (f r).status = r.status ∧ (f r).body = r.body) :
    ((said?.map f).getD breakdownResponse).Says said? := by
  cases said? with
  | none => exact ⟨rfl, rfl⟩
  | some r => exact ⟨(hf r).1, (hf r).2⟩

/-! ## What a handler needs -/

theorem settingsFor_eq_ok {environment : Settings.Environment} {settings : Settings}
    (h : Settings.ofEnvironment environment = .ok settings) :
    settingsFor environment = .ok settings := by
  rw [settingsFor, h]
  rfl

/-- A handler goes to work if it is given what it takes, and all that it needs is there. -/
theorem gather_eq_ok_iff {α β : Type} {input : Input α} {needs : Except Ending β} {b : β} {a : α} :
    input.gather needs = .ok (b, a) ↔ input = .given a ∧ needs = .ok b := by
  constructor
  · intro h
    cases input with
    | unread answer => cases h
    | unfit answer => cases needs <;> cases h
    | given value =>
      cases needs with
      | error ending => cases h
      | ok found =>
        cases h
        exact ⟨rfl, rfl⟩
  · rintro ⟨rfl, rfl⟩
    rfl

/-! ## The frame -/

namespace Server

section

variable (server : Server) (request : Request)

/-- What a request is for: nothing, where its address cannot be taken apart. -/
def call : Call :=
  match server.platform.framework.path? request with
  | some _ => server.platform.framework.call server.origins request
  | none => .unrouted none

/-- The surroundings in which the handler of a request runs: the id of the request is at hand, and
its start has been noted. -/
def inside : Surroundings :=
  let w := ((Work.setRequestId (request.headers.get? idHeader)).run server.surroundings).2
  (server.platform.framework.path? request).elim w fun path =>
    w.note (.requestStarted request.method path)

/-- How the handler of a request ends, and what it leaves of the sessions and of the surroundings. -/
def handling : (Ending × Session.Store) × Surroundings :=
  ((server.call request).serve server.platform server.environment server.store).run
    (server.inside request)

/-- How the handler of a request ends. -/
abbrev ending : Ending :=
  (server.handling request).1.1

/-- The response of the handler of a request, before the id of the request is set in it. -/
def answer? : Option Response :=
  ((server.ending request).reported? server.platform.framework
      (server.handling request).2.context.requestId).map
    fun r => r.withHeaders (server.platform.framework.marks server.origins request r)

end

variable {server : Server} {request : Request}

/-- A request without a path is not handled at all, and the id that has been set for it stays. -/
theorem frame_run_of_unread (hpath : server.platform.framework.path? request = none) :
    (server.frame request).run server.surroundings =
      ((breakdownResponse, server.store), server.inside request) := by
  unfold frame inside
  rw [hpath, run_bind]
  rfl

/-- What is done for a request with a path: its handler runs inside, its ending is reported, and its
end is noted before the id is restored. -/
theorem frame_run_of_path {path : String}
    (hpath : server.platform.framework.path? request = some path) :
    (server.frame request).run server.surroundings =
      ((((server.answer? request).map (·.setHeader idHeader
              (((request.headers.get? idHeader).filter (!·.isEmpty)).getD
                ((((server.ending request).response? server.platform.framework path).run
                  (server.handling request).2).2.context.requestId.getD "")))).getD
            breakdownResponse,
          (server.handling request).1.2),
        ((Work.resetId .requestId
            ((Work.setRequestId (request.headers.get? idHeader)).run server.surroundings).1).run
          ((((server.ending request).response? server.platform.framework path).run
            (server.handling request).2).2.note (.requestEnded request.method path
              ((server.answer? request).elim breakdownResponse.status (·.status))))).2) := by
  -- with an address that is read, the request is noted and its call is the framework's
  have hinside : server.inside request =
      ((Work.setRequestId (request.headers.get? idHeader)).run server.surroundings).2.note
        (.requestStarted request.method path) := by
    rw [inside, hpath]
    rfl
  have hcall : server.call request = server.platform.framework.call server.origins request := by
    rw [call, hpath]
  unfold frame respond answer?
  rw [← response?_run _ path]
  simp only [run_bind, Work.note_run, hpath, ending, handling, hinside, hcall]
  rfl

/-- **The response is what the ending reports, with headers added, and the sessions are those that
the handler left.** -/
theorem handle_eq (server : Server) (request : Request) :
    ∃ (id : String) (surroundings : Surroundings),
      (server.handle request).1 =
        ((server.answer? request).map (·.setHeader idHeader id)).getD breakdownResponse ∧
      (server.handle request).2 =
        { server with store := (server.handling request).1.2, surroundings } := by
  unfold handle
  cases hpath : server.platform.framework.path? request with
  | none =>
    -- no handler is called, and no sessions are changed
    have hcall : server.call request = .unrouted none := by
      rw [call, hpath]
    have hhandling : server.handling request =
        ((.brokenDown, server.store), server.inside request) := by
      rw [handling, hcall]
      rfl
    rw [frame_run_of_unread hpath, answer?, ending, hhandling]
    exact ⟨"", _, rfl, rfl⟩
  | some path =>
    rw [frame_run_of_path hpath]
    exact ⟨_, _, rfl, rfl⟩

/-- **A response conveys how the handler of its request ended.** -/
theorem handle_conveys (server : Server) (request : Request) :
    (server.handle request).1.Conveys server.platform.framework (server.ending request) := by
  obtain ⟨id, _, hresponse, -⟩ := server.handle_eq request
  refine ⟨(server.handling request).2.context.requestId, ?_⟩
  rw [hresponse, answer?, Option.map_map]
  exact Response.says_map fun r => ⟨rfl, rfl⟩

/-- **The sessions after a request are those that its handler leaves.** -/
theorem handle_store (server : Server) (request : Request) :
    (server.handle request).2.store = (server.handling request).1.2 := by
  obtain ⟨_, _, -, hserver⟩ := server.handle_eq request
  rw [hserver]

theorem handling_of_call {call : Call} (h : server.call request = call) :
    server.handling request =
      (call.serve server.platform server.environment server.store).run (server.inside request) := by
  rw [handling, h]

end Server

end KeypadCalc.Http

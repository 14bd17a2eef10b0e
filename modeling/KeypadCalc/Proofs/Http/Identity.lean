import KeypadCalc.Proofs.Http.Records

/-!
# KeypadCalc — the identity of requests

A request is answered under the id that it brings, or else under a fresh one (`idFor`). The frame
sets this id, and restores what was at hand before when the request has been answered
(`handle_settles`); the response names the id that the frame has set (`handle_response`). Two things
come in between. A handler may break down, and then the response names no id; and the address of a
request may not be taken apart, and then the id that has been set stays.

* **`identity_is_consistent`** — behind any requests, a request is answered under one id, which its
  header, its report of a failure and its press go by, and the ids at hand are again what they were
  before, exactly if its address can be taken apart and its handler comes to a response. What holds of
  the other requests is told as well.

The invariant is that no token has been used that was not given out (`Context.WellFormed`): without
it the token of a request might restore nothing. One request keeps it as all that settles does, and
by induction any number of requests do (`handleAll_surroundings`).
-/

namespace KeypadCalc.Http

open Keypad (Key State)

/-! ## The frame -/

/-- The id that a request brings. -/
def Request.givenId? (request : Request) : Option String :=
  (request.headers.get? idHeader).filter (!·.isEmpty)

section Choosing

variable (w : Surroundings) (request : Request)

/-- The id under which a request is answered: the one that it brings, or else a fresh one. -/
def idFor : String :=
  request.givenId?.getD (w.freshId w.idsIssued)

/-- Surroundings in which the id of a request has been chosen. -/
def chosen : Surroundings :=
  { w with idsIssued := w.idsIssued + if request.givenId?.isNone then 1 else 0 }

/-- To set the id of a request is to choose it first, and then to set it. -/
theorem setRequestId_run :
    (Work.setRequestId (request.headers.get? idHeader)).run w =
      (Work.setId .requestId (some (idFor w request))).run (chosen w request) := by
  unfold idFor chosen Request.givenId?
  cases request.headers.get? idHeader with
  | none => rfl
  | some id =>
    rw [Work.setRequestId, Option.filter_some]
    cases id.isEmpty <;> rfl

end Choosing

namespace Server

section

variable (server : Server) (request : Request)

/-- The surroundings in which the id of a request has been set. -/
abbrev named : Surroundings :=
  ((Work.setId .requestId (some (idFor server.surroundings request))).run
    (chosen server.surroundings request)).2

/-- The ids at hand while a request is answered. -/
abbrev idsFor : Ids :=
  Function.update server.surroundings.context.get .requestId
    (some (idFor server.surroundings request))

/-- With a path the start of the request is noted under its id. -/
theorem inside_of_path {path : String}
    (hpath : server.platform.framework.path? request = some path) :
    server.inside request = (server.named request).note (.requestStarted request.method path) := by
  rw [inside, hpath, setRequestId_run]
  rfl

theorem inside_of_unread (hpath : server.platform.framework.path? request = none) :
    server.inside request = server.named request := by
  rw [inside, hpath, setRequestId_run]
  rfl

theorem context_inside : (server.inside request).context = (server.named request).context := by
  cases hpath : server.platform.framework.path? request with
  | none => rw [server.inside_of_unread request hpath]
  | some path => rw [server.inside_of_path request hpath, Surroundings.note_context]

/-- Inside the frame the id of the request is at hand. -/
theorem get_context_inside : (server.inside request).context.get = server.idsFor request := by
  rw [context_inside]
  exact Work.get_setId _ _ (chosen server.surroundings request)

end

variable {server : Server} (request : Request)

theorem wellFormed_inside (hwell : server.surroundings.context.WellFormed) :
    (server.inside request).context.WellFormed := by
  rw [context_inside]
  exact Context.WellFormed.set hwell .requestId _

/-- What the handler of a request does settles inside the frame. -/
theorem handling_settles (hwell : server.surroundings.context.WellFormed) :
    (server.inside request).Settles (Files (server.call request).pressed? (server.idsFor request))
      (server.handling request).2 := by
  have hsettles := serve_settles server.platform server.environment server.store
    (server.call request) (server.inside request) (wellFormed_inside request hwell)
  rwa [get_context_inside] at hsettles

theorem get_context_handling (hwell : server.surroundings.context.WellFormed) :
    (server.handling request).2.context.get = server.idsFor request :=
  (handling_settles request hwell).context.get_eq.trans (server.get_context_inside request)

/-- So does the report of how it has ended. -/
theorem reporting_settles (hwell : server.surroundings.context.WellFormed) (path : String) :
    (server.inside request).Settles (Files (server.call request).pressed? (server.idsFor request))
      (((server.ending request).response? server.platform.framework path).run
        (server.handling request).2).2 := by
  have hhandling := handling_settles request hwell
  have hreport := response?_settles server.platform.framework path (server.ending request)
    (server.call request).pressed? (server.handling request).2
    ((wellFormed_inside request hwell).of_settles hhandling.context)
  rw [get_context_handling request hwell] at hreport
  exact hhandling.trans hreport

/-- **What a request does settles**, but for the fresh id that is taken where it brings none. -/
theorem handle_settles (hwell : server.surroundings.context.WellFormed) {path : String}
    (hpath : server.platform.framework.path? request = some path) :
    (chosen server.surroundings request).Settles
      (Files (server.call request).pressed? (server.idsFor request))
      (server.handle request).2.surroundings := by
  have hinner := reporting_settles request hwell path
  have hids := server.get_context_inside request
  show (chosen server.surroundings request).Settles _
    ((server.frame request).run server.surroundings).2
  rw [frame_run_of_path hpath, setRequestId_run]
  have hchosen : (chosen server.surroundings request).context.WellFormed := hwell
  -- inside the frame the start is noted, then what the request does, and then the end
  refine Surroundings.Settles.restored hchosen ?_
  refine Surroundings.Settles.trans ?_ (hinner.trans ?_)
  · rw [server.inside_of_path request hpath]
    refine Surroundings.settles_note _ (.of_not_calculation rfl ?_)
    have hset : (server.named request).context.get = server.idsFor request :=
      Work.get_setId _ _ (chosen server.surroundings request)
    rw [← hset]
    exact .of _ _
  · refine Surroundings.settles_note _ (.of_not_calculation rfl ?_)
    rw [← hids, ← hinner.context.get_eq]
    exact .of _ _

/-- The response names the id of the request. -/
theorem handle_response (hwell : server.surroundings.context.WellFormed) {path : String}
    (hpath : server.platform.framework.path? request = some path) :
    (server.handle request).1 = ((server.answer? request).map
      (·.setHeader idHeader (idFor server.surroundings request))).getD breakdownResponse := by
  have hids := (reporting_settles request hwell path).context.get_eq.trans
    (server.get_context_inside request)
  have hid : (((server.ending request).response? server.platform.framework path).run
      (server.handling request).2).2.context.requestId =
        some (idFor server.surroundings request) := congrFun hids .requestId
  -- the header prefers the id that was brought, which is then the one at hand
  have hsame : request.givenId?.getD (idFor server.surroundings request) =
      idFor server.surroundings request := by
    unfold idFor
    cases request.givenId? <;> rfl
  have hframe := congrArg (·.1.1) (frame_run_of_path hpath)
  rw [hid, Option.getD_some] at hframe
  exact hframe.trans (congrArg (fun id =>
    ((server.answer? request).map (·.setHeader idHeader id)).getD breakdownResponse) hsame)

/-- A request without a path leaves its id set, and nothing else. -/
theorem handle_of_unread (hpath : server.platform.framework.path? request = none) :
    server.handle request =
      (breakdownResponse, { server with surroundings := server.named request }) := by
  rw [handle, frame_run_of_unread hpath, server.inside_of_unread request hpath]

/-! ## One request -/

/-- A press of a key in a session works in surroundings in which the session and an id are at hand:
what the handler comes to, and the journal that it leaves, are what the press comes to in such
surroundings. -/
def PressesUnder (server : Server) (request : Request) (id session : String) (ws : Workings)
    (k : Key) : Prop :=
  ∃ w : Surroundings, w.context.get .sessionId = some session ∧
    w.context.get .requestId = some id ∧
    let updated := (server.store.update session fun state =>
      Keypad.press ws.service ws.maxDigits state k).run w
    (server.handling request).1 =
        (.ofPress server.platform.framework updated.1.1, updated.1.2) ∧
      (server.handling request).2.journal = updated.2.journal

/-- A press that is given a key, in a keypad that has something to work with, works with its session
at hand and the id of the request. -/
def Presses (server : Server) (request : Request) (id : String) : Prop :=
  ∀ (session : String) (ws : Workings) (k : Key),
    server.call request = .keypadPress session (.given k) →
    workings server.platform server.environment = .ok ws →
      server.PressesUnder request id session ws k

/-- What was at hand before a request is at hand after it. -/
def Restores (server : Server) (request : Request) : Prop :=
  ∀ v, (server.handle request).2.surroundings.context.get v =
    server.surroundings.context.get v

/-- How a server answers a request under an id. -/
structure AnswersUnder (server : Server) (request : Request) (id : String) : Prop where
  /-- The response names the id. -/
  header : (server.handle request).1.headers.get? idHeader = some id
  /-- The body of a failed request is the report of the failure, with the id in it. -/
  report : ∀ failure, server.ending request = .failed failure →
    (server.handle request).1.status = failure.kind.status ∧
    (server.handle request).1.body = .json (.object [("error", .ofFields
      ([("type", .string failure.kind.type), ("message", failure.message)]
        ++ (if failure.details.isEmpty then [] else [("details", .ofFields failure.details)])
        ++ [("traceId", .string id)]))])
  press : server.Presses request id
  restored : server.Restores request

/-- The handler of a request comes to a response: it answers, or it fails in a way that can be
reported with an id. -/
def Concludes (server : Server) (request : Request) (id : String) : Prop :=
  (∃ response, server.ending request = .answered response) ∨
    ∃ failure, server.ending request = .failed failure ∧
      server.platform.framework.writes (failure.payload (some id)) = true

/-- The report of a failure ends with the id, unless this is empty. -/
theorem payload_of_ne {id : String} (hid : id ≠ "") (failure : Failure) :
    failure.payload (some id) = .object [("error", .ofFields
      ([("type", .string failure.kind.type), ("message", failure.message)]
        ++ (if failure.details.isEmpty then [] else [("details", .ofFields failure.details)])
        ++ [("traceId", .string id)]))] := by
  have hempty : ¬ id.isEmpty = true := fun h => hid (String.isEmpty_iff.1 h)
  unfold Failure.payload
  dsimp only
  rw [if_neg hempty]

variable {request}

/-- The report of a failure is made with the id of the request. -/
theorem answer?_eq (hwell : server.surroundings.context.WellFormed) :
    server.answer? request = ((server.ending request).reported? server.platform.framework
        (some (idFor server.surroundings request))).map
      fun r => r.withHeaders (server.platform.framework.marks server.origins request r) := by
  have hid : (server.handling request).2.context.requestId =
      some (idFor server.surroundings request) :=
    congrFun (get_context_handling request hwell) .requestId
  rw [answer?, hid]

/-- There is a response exactly if the handler comes to one. -/
theorem exists_answer?_iff (hwell : server.surroundings.context.WellFormed) :
    (∃ response, server.answer? request = some response) ↔
      server.Concludes request (idFor server.surroundings request) := by
  rw [answer?_eq hwell, Concludes]
  cases hending : server.ending request with
  | answered response => simp [Ending.reported?]
  | failed failure =>
    cases hwrites : server.platform.framework.writes
      (failure.payload (some (idFor server.surroundings request))) <;>
        simp [Ending.reported?, hwrites]
  | brokenDown => simp [Ending.reported?]

/-- A press works under the id of its request, whether its outcome can be written or not. -/
theorem presses_idFor (server : Server) (request : Request) :
    server.Presses request (idFor server.surroundings request) := by
  intro session ws k hcall hworkings
  have hids := Work.get_setId .sessionId (some session) (server.inside request)
  rw [get_context_inside] at hids
  refine ⟨_, congrFun hids .sessionId, congrFun hids .requestId, ?_⟩
  rw [handling_of_call hcall, Call.serve,
    pressKey_run_of_gather (gather_eq_ok_iff.2 ⟨rfl, hworkings⟩)]
  exact ⟨rfl, Work.journal_resetId _ _ _⟩

theorem restores_of_path (hwell : server.surroundings.context.WellFormed) {path : String}
    (hpath : server.platform.framework.path? request = some path) : server.Restores request :=
  fun v => congrFun (handle_settles request hwell hpath).context.get_eq v

/-- **A request whose address can be taken apart, and whose handler comes to a response, is answered
under its id.** -/
theorem answersUnder_of_concludes (hwell : server.surroundings.context.WellFormed)
    (hid : idFor server.surroundings request ≠ "") {path : String}
    (hpath : server.platform.framework.path? request = some path)
    (hconcludes : server.Concludes request (idFor server.surroundings request)) :
    server.AnswersUnder request (idFor server.surroundings request) := by
  have hresponse := handle_response request hwell hpath
  refine ⟨?_, fun failure hfailed => ?_, presses_idFor server request,
    restores_of_path hwell hpath⟩
  · -- the header is set in whatever response there is
    obtain ⟨response, hanswer⟩ := (exists_answer?_iff hwell).2 hconcludes
    rw [hresponse, hanswer]
    have hname (value : String) : Headers.isNamed idHeader (idHeader, value) = true := by
      show Headers.isNamed idHeader (idHeader, "") = true
      decide
    exact Headers.get?_set _ (hname _) response.headers
  · rcases hconcludes with ⟨response, hanswered⟩ | ⟨_, hfailed', hwrites⟩
    · rw [hfailed] at hanswered
      cases hanswered
    · rw [hfailed] at hfailed'
      cases hfailed'
      -- the headers that are added leave the report as it is
      rw [hresponse, answer?_eq hwell, hfailed, Ending.reported?, if_pos hwrites]
      exact ⟨rfl, congrArg Body.json (payload_of_ne hid failure)⟩

/-- Where no response comes about, none names an id. -/
theorem handle_fst_of_not_concludes (hwell : server.surroundings.context.WellFormed)
    (h : ¬ ((∃ path, server.platform.framework.path? request = some path) ∧
      server.Concludes request (idFor server.surroundings request))) :
    (server.handle request).1 = breakdownResponse := by
  cases hpath : server.platform.framework.path? request with
  | none => rw [handle_of_unread request hpath]
  | some path =>
    have hnone : server.answer? request = none := by
      refine Option.eq_none_iff_forall_ne_some.2 fun response hresponse => h ⟨⟨path, hpath⟩, ?_⟩
      exact (exists_answer?_iff hwell).1 ⟨response, hresponse⟩
    rw [handle_response request hwell hpath, hnone]
    rfl

/-! ## Many requests -/

variable (server)

/-- The id of a request that comes behind others, of which those that bring none have taken a fresh
one each. -/
def idBehind (before : List Request) (request : Request) : String :=
  request.givenId?.getD (server.surroundings.freshId
    (server.surroundings.idsIssued + before.countP (·.givenId?.isNone)))

/-- What one request leaves of the surroundings, whether it is read or not. -/
theorem handle_surroundings (hwell : server.surroundings.context.WellFormed) (request : Request) :
    (server.handle request).2.surroundings.context.WellFormed ∧
      (server.handle request).2.surroundings.freshId = server.surroundings.freshId ∧
      (server.handle request).2.surroundings.idsIssued =
        server.surroundings.idsIssued + if request.givenId?.isNone then 1 else 0 := by
  cases hpath : server.platform.framework.path? request with
  | none =>
    rw [handle_of_unread request hpath]
    exact ⟨Context.WellFormed.set hwell .requestId _, rfl, rfl⟩
  | some path =>
    have hsettles := handle_settles request hwell hpath
    exact ⟨Context.WellFormed.of_settles hwell hsettles.context, hsettles.freshId,
      hsettles.idsIssued⟩

/-- What is left of requests: fresh ids have been taken, and the ids at hand are what they were if
every address could be taken apart. Induction on the requests. -/
theorem handleAll_surroundings (hwell : server.surroundings.context.WellFormed)
    (before : List Request) :
    (server.handleAll before).surroundings.context.WellFormed ∧
      (server.handleAll before).surroundings.freshId = server.surroundings.freshId ∧
      (server.handleAll before).surroundings.idsIssued =
        server.surroundings.idsIssued + before.countP (·.givenId?.isNone) ∧
      ((∀ r ∈ before, (server.platform.framework.path? r).isSome = true) → ∀ v,
        (server.handleAll before).surroundings.context.get v =
          server.surroundings.context.get v) := by
  induction before generalizing server with
  | nil => exact ⟨hwell, rfl, rfl, fun _ _ => rfl⟩
  | cons request rest ih =>
    obtain ⟨hnext, hfresh, hissued⟩ := server.handle_surroundings hwell request
    obtain ⟨hrest, hfresh', hissued', hget⟩ := ih (server.handle request).2 hnext
    refine ⟨hrest, hfresh'.trans hfresh, hissued'.trans ?_, fun hread v => ?_⟩
    · rw [hissued, List.countP_cons]
      omega
    · -- the first request restores the ids if it has a path, and the others do by induction
      obtain ⟨hfirst, hlater⟩ := List.forall_mem_cons.1 hread
      obtain ⟨path, hpath⟩ := Option.isSome_iff_exists.1 hfirst
      exact (hget hlater v).trans (restores_of_path hwell hpath v)

variable {server}

/-- **Where a request comes to a response its identity is consistent, and does not leak.** Behind any
requests, a request has the id that it brings, or else the next fresh id, which is taken for it
alone:

* header, report and press go by this id, and what was at hand is restored (`AnswersUnder`), exactly
  if the address of the request can be taken apart and its handler comes to a response;
* where the address can be taken apart, what is at hand is restored in any case, the press goes by
  the id, and the records of the request show it;
* where no response comes about, a bare status is sent, which names no id;
* where the address cannot be taken apart, nothing else is done, and the id stays at hand;
* so the ids at hand between the requests are those from before, if all addresses can be. -/
theorem identity_is_consistent (hfresh : ∀ n, server.surroundings.freshId n ≠ "")
    (hwell : server.surroundings.context.WellFormed) (before : List Request) (request : Request) :
    let later := server.handleAll before
    let id := server.idBehind before request
    id ≠ "" ∧
    (later.AnswersUnder request id ↔
      (∃ path, later.platform.framework.path? request = some path) ∧
        later.Concludes request id) ∧
    ((∃ path, later.platform.framework.path? request = some path) →
      later.Restores request ∧ later.Presses request id ∧
      ∃ records, (later.handle request).2.surroundings.journal =
          later.surroundings.journal ++ records ∧
        ∀ r ∈ records, Files (later.call request).pressed?
          (Function.update later.surroundings.context.get .requestId (some id)) r) ∧
    (¬ ((∃ path, later.platform.framework.path? request = some path) ∧
        later.Concludes request id) → (later.handle request).1 = breakdownResponse) ∧
    (later.platform.framework.path? request = none →
      (later.handle request).2.store = later.store ∧
      (later.handle request).2.surroundings.journal = later.surroundings.journal ∧
      (later.handle request).2.surroundings.context.get =
        Function.update later.surroundings.context.get .requestId (some id)) ∧
    later.surroundings.idsIssued =
      server.surroundings.idsIssued + before.countP (·.givenId?.isNone) ∧
    ((∀ r ∈ before, (server.platform.framework.path? r).isSome = true) → ∀ v,
      later.surroundings.context.get v = server.surroundings.context.get v) := by
  dsimp only
  obtain ⟨hlater, hsupply, hissued, hget⟩ := server.handleAll_surroundings hwell before
  have hid : idFor (server.handleAll before).surroundings request =
      server.idBehind before request := by
    rw [idFor, hsupply, hissued]
    rfl
  have hne : server.idBehind before request ≠ "" := by
    rw [idBehind, Request.givenId?]
    cases hgiven : (request.headers.get? idHeader).filter (!·.isEmpty) with
    | none => exact hfresh _
    | some id =>
      rintro rfl
      have hfilter := (Option.filter_eq_some_iff.1 hgiven).2
      exact absurd hfilter (by decide)
  rw [← hid] at hne ⊢
  -- from here on only the one request counts
  generalize server.handleAll before = later at hlater hissued hget hne ⊢
  refine ⟨hne, ⟨fun hanswers => ?_, ?_⟩, ?_, handle_fst_of_not_concludes hlater, fun hpath => ?_,
    hissued, hget⟩
  · -- a response that names the id is no bare status
    refine Classical.byContradiction fun hneither => ?_
    have hheader := hanswers.header
    rw [handle_fst_of_not_concludes hlater hneither] at hheader
    cases hheader
  · rintro ⟨⟨path, hpath⟩, hconcludes⟩
    exact answersUnder_of_concludes hlater hne hpath hconcludes
  · rintro ⟨path, hpath⟩
    exact ⟨restores_of_path hlater hpath, presses_idFor later request,
      (handle_settles request hlater hpath).journal⟩
  · rw [handle_of_unread request hpath]
    exact ⟨rfl, rfl, Work.get_setId _ _ (chosen later.surroundings request)⟩

/-- A server with a keypad on which a seven has been typed. -/
def ofSeven : Server where
  platform := .usual
  environment := []
  origins := []
  store := ⟨[("a", ⟨"a", "7", "7", "", false⟩)]⟩

/-- A request to read a session that is not there, with an empty id. -/
def readingUnnamed : Request :=
  { Request.reading "b" with headers := [("X-Request-ID", "")] }

/-- Behind a press without an id, an empty id is replaced by the second fresh one. -/
theorem empty_id_is_replaced :
    (∀ n, ofSeven.surroundings.freshId n ≠ "") ∧ ofSeven.surroundings.context.WellFormed ∧
      (ofSeven.handleAll [.pressing "a" "="]).AnswersUnder readingUnnamed "id-1" ∧
      ((ofSeven.handleAll [.pressing "a" "="]).handle readingUnnamed).1.status = 404 := by
  have hfresh : ∀ n, ofSeven.surroundings.freshId n ≠ "" := by
    intro n h
    change "id-" ++ toString n = "" at h
    have hlength := congrArg String.length h
    rw [String.length_append] at hlength
    have hstart : "id-".length = 3 := rfl
    have hnone : "".length = 0 := rfl
    omega
  have hwell : ofSeven.surroundings.context.WellFormed := fun _ h => absurd h List.not_mem_nil
  -- the press has taken the first fresh id
  have hid : ofSeven.idBehind [.pressing "a" "="] readingUnnamed = "id-1" := by decide +kernel
  obtain ⟨-, hanswers, -⟩ :=
    identity_is_consistent hfresh hwell [.pressing "a" "="] readingUnnamed
  rw [hid] at hanswers
  -- the session is not there, so the request fails, with a report that can be written
  have hending : (ofSeven.handleAll [.pressing "a" "="]).ending readingUnnamed =
      .failed (sessionNotFound "b") := by
    have hcall : (ofSeven.handleAll [.pressing "a" "="]).call readingUnnamed =
        .keypadState "b" := by
      have hshown : (Usual.path? readingUnnamed).isSome = true := by decide +kernel
      have hfound : Resolution.of readingUnnamed.method readingUnnamed.path =
          .found (.keypadState "b") := by decide +kernel
      exact call_of_found rfl hshown hfound
    have hnone : (ofSeven.handleAll [.pressing "a" "="]).store.get? "b" = none := by
      decide +kernel
    rw [ending, handling_of_call hcall]
    show showKeypad _ _ "b" = _
    rw [showKeypad, hnone]
  have hpath : (ofSeven.handleAll [.pressing "a" "="]).platform.framework.path? readingUnnamed =
      some "/keypad/b" := by decide +kernel
  have hwrites : (ofSeven.handleAll [.pressing "a" "="]).platform.framework.writes
      ((sessionNotFound "b").payload (some "id-1")) = true := by decide +kernel
  exact ⟨hfresh, hwell,
    hanswers.2 ⟨⟨"/keypad/b", hpath⟩, .inr ⟨sessionNotFound "b", hending, hwrites⟩⟩,
    by decide +kernel⟩

/-- A request with an id, over which a handler breaks down, is answered without the id; and one with
an id and half a bracket for a host leaves its id at hand. -/
theorem id_is_lost_or_stays :
    ((serverOfReply "null").handle
        { Request.pressing "a" "=" with headers := [("X-Request-ID", "A")] }).1.headers.get?
          idHeader = none ∧
      (ofSeven.handle { Request.reading "a" with
          headers := [("X-Request-ID", "A"), ("Host", "[")] }).2.surroundings.context.get
            .requestId = some "A" ∧
      ofSeven.surroundings.context.get .requestId = none := by
  refine ⟨?_, ?_, ?_⟩ <;> decide +kernel

end Server

end KeypadCalc.Http

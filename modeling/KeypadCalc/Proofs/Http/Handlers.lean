import KeypadCalc.Proofs.Http.Frame

/-!
# KeypadCalc — what the handlers of keypads come to

To read a keypad answers its state, field by field, or that there is none (`Response.Shows`), unless
the state cannot be written (`Server.handle_reads`). To press a key is to update the session with
its id at hand, if the key is given and the keypad has what it works with
(`pressKey_run_of_gather`).
-/

namespace KeypadCalc.Http

open Keypad (Key State)

/-! ## Reading -/

/-- What a response shows of a session: its state, or that there is none. The report that there is
none may hold more, such as the id of the request. -/
inductive Response.Shows (id : String) (response : Response) : Option State → Prop where
  | state {s : State} (hstatus : response.status = 200)
      (hbody : response.body = .json (.object
        [("sessionId", .string s.sessionId), ("expression", .string s.expression),
          ("equation", .string s.equation), ("answer", .string s.answer),
          ("waitingForSqrt", .bool s.waitingForRoot)])) :
      Shows id response (some s)
  | notFound (more : List (RawText × Json)) (hstatus : response.status = 404)
      (hbody : response.body = .json (.object [("error", .object
        (("type", .string "KEYPAD_SESSION_NOT_FOUND")
          :: ("message", .string ("Keypad session '" ++ id ++ "' does not exist."))
          :: ("details", .object [("sessionId", .string id)]) :: more))])) :
      Shows id response none

theorem Response.Shows.status_eq_iff {id : String} {response : Response} {kept : Option State}
    (h : response.Shows id kept) : response.status = 404 ↔ kept = none := by
  cases h with
  | notFound _ hstatus _ => simp [hstatus]
  | state hstatus _ => simp [hstatus]

/-- A state can be written if its answer is whole; the other texts of a state always are. -/
theorem isPlain_toJson (s : State) : s.toJson.isPlain = s.answer.isWhole := by
  simp [State.toJson, Json.isPlain, Json.arePlainFields]

/-- What is said of a session that is read: what is kept of it, unless that is a state that cannot be
written. -/
inductive Response.Reads (framework : Framework) (id : String) (response : Response)
    (kept : Option State) : Prop where
  | shown (hshows : response.Shows id kept)
  | unwritten {s : State} (hkept : kept = some s) (hwrites : framework.writes s.toJson = false)
      (hstatus : response.status = 500) (hbody : response.body = .text "Internal Server Error")

/-- A failure whose message and details can be written can be reported. -/
theorem isPlain_payload {failure : Failure} (hmessage : failure.message.isPlain = true)
    (hdetails : ∀ f ∈ failure.details, f.2.isPlain = true) (traceId : Option String) :
    (failure.payload traceId).isPlain = true := by
  have hmore : (Json.ofFields failure.details).isPlain = true := by
    rw [Json.isPlain_ofFields, List.all_eq_true]
    exact hdetails
  -- details and trace id are each left out or one field
  have hfields : ∀ details trace : List (String × Json),
      (details = [] ∨ details = [("details", Json.ofFields failure.details)]) →
      (trace = [] ∨ ∃ id : String, trace = [("traceId", .string id)]) →
      (Json.ofFields ([("type", .string failure.kind.type), ("message", failure.message)] ++ details
        ++ trace)).isPlain = true := by
    intro details trace hdetails htrace
    rw [Json.isPlain_ofFields]
    rcases hdetails with rfl | rfl <;> rcases htrace with rfl | ⟨id, rfl⟩ <;>
      simp [Json.isPlain, hmessage, hmore]
  unfold Failure.payload
  simp only [Json.isPlain, Json.arePlainFields, RawText.isWhole_whole, Bool.true_and, Bool.and_true]
  refine hfields _ _ ?_ ?_
  · split
    · exact .inl rfl
    · exact .inr rfl
  · cases traceId with
    | none => exact .inl rfl
    | some id =>
      dsimp only
      split
      · exact .inl rfl
      · exact .inr ⟨id, rfl⟩

/-- The report that there is no session can be written. -/
theorem sessionNotFound_payload (id : String) (traceId : Option String) :
    ((sessionNotFound id).payload traceId).isPlain = true ∧
      ∃ more, (sessionNotFound id).payload traceId = .object [("error", .object
        (("type", .string "KEYPAD_SESSION_NOT_FOUND")
          :: ("message", .string ("Keypad session '" ++ id ++ "' does not exist."))
          :: ("details", .object [("sessionId", .string id)]) :: more))] := by
  refine ⟨isPlain_payload rfl (fun f hf => ?_) traceId, _, rfl⟩
  rw [List.mem_singleton.1 hf]
  rfl

section

variable {framework : Framework} {id : String} {response : Response} {s : State}

/-- A state that is answered is shown, unless it cannot be written. -/
theorem Response.Conveys.reads_state
    (h : response.Conveys framework (framework.written 200 s.toJson)) :
    response.Reads framework id (some s) := by
  obtain ⟨traceId, hstatus, hbody⟩ := h
  unfold Framework.written at hstatus hbody
  cases hwrites : framework.writes s.toJson with
  | true =>
    rw [if_pos hwrites] at hstatus hbody
    exact .shown (.state hstatus hbody)
  | false =>
    rw [if_neg (Bool.eq_false_iff.1 hwrites)] at hstatus hbody
    exact .unwritten rfl hwrites hstatus hbody

theorem Response.Reads.shows (h : response.Reads framework id (some s))
    (hwrites : framework.writes s.toJson = true) : response.Shows id (some s) := by
  cases h with
  | shown hshows => exact hshows
  | unwritten hkept hunwritten =>
    cases hkept
    rw [hwrites] at hunwritten
    cases hunwritten

end

/-- **To read a session answers what is kept of it.** -/
theorem Server.handle_reads (server : Server) (hlawful : server.platform.framework.Lawful)
    {request : Request} {id : String} (hcall : server.call request = .keypadState id) :
    (server.handle request).1.Reads server.platform.framework id (server.store.get? id) := by
  have hconveys := server.handle_conveys request
  have hending : server.ending request = showKeypad server.platform server.store id := by
    rw [ending, handling_of_call hcall]
    rfl
  rw [hending, showKeypad] at hconveys
  cases hget : server.store.get? id with
  | some s =>
    rw [hget] at hconveys
    exact hconveys.reads_state
  | none =>
    rw [hget] at hconveys
    -- the report of a session that is not there is plain, so it is written
    obtain ⟨traceId, hstatus, hbody⟩ := hconveys
    obtain ⟨hplain, more, hpayload⟩ := sessionNotFound_payload id traceId
    rw [Ending.reported?, if_pos (hlawful.writes_of_isPlain hplain)] at hstatus hbody
    refine .shown (.notFound more hstatus (hbody.trans ?_))
    show Body.json _ = _
    rw [hpayload]

/-! ## Pressing -/

/-- How a press ends for the client. -/
def Ending.ofPress (framework : Framework) : Except Breakdown State → Ending
  | .ok state => framework.written 200 state.toJson
  | .error breakdown => .ofBreakdown breakdown

section

variable {platform : Platform} {environment : Settings.Environment} {id : String}
  {key : Input Key} {ws : Workings} {k : Key}

/-- A press that goes to work runs with the id of the session at hand, which is restored then. -/
theorem pressKey_run_of_gather (h : key.gather (workings platform environment) = .ok (ws, k))
    (store : Session.Store) (id : String) (w : Surroundings) :
    (pressKey platform environment store id key).run w =
      let bound := (Work.setId .sessionId (some id)).run w
      let updated := (store.update id fun state =>
        Keypad.press ws.service ws.maxDigits state k).run bound.2
      ((.ofPress platform.framework updated.1.1, updated.1.2),
        ((Work.resetId .sessionId bound.1).run updated.2).2) := by
  unfold pressKey
  rw [h]
  dsimp only
  rw [run_bind, run_bind]
  -- whatever the update comes to, the id of the session is reset behind it
  generalize (store.update id fun state => Keypad.press ws.service ws.maxDigits state k).run
    ((Work.setId .sessionId (some id)).run w).2 = updated
  obtain ⟨⟨result, after⟩, w'⟩ := updated
  cases result <;> rfl

/-- A press that does not go to work touches nothing. -/
theorem pressKey_run_of_refused {ending : Ending}
    (h : key.gather (workings platform environment) = .error ending)
    (store : Session.Store) (id : String) (w : Surroundings) :
    (pressKey platform environment store id key).run w = ((ending, store), w) := by
  unfold pressKey
  rw [h]
  rfl

end

end KeypadCalc.Http

import KeypadCalc.Proofs.Http.Sessions
import KeypadCalc.Proofs.Remote.Contract

/-!
# KeypadCalc — presses that are refused

A press that does not answer a state leaves no trace among the sessions, but in one case. Its body
may be turned away or no calculator be there, and then nothing has been touched; or the calculator
breaks down in the middle of an update, which has made a session where there was none. But a keypad
that is new has nothing to ask: every calculator refuses blanks (`RefusesBlanks`), so a press that
does break down has found its session there. The one case is a press that has led to a state
(`Server.PressLeadsTo`), which is saved before it turns out that it cannot be written.

* `handling_press` — a press leads to a state, which is saved, or leaves the sessions as they are.
* **`refused_press_changes_nothing`** — after a press that is not answered with a state every session
  reads as before, exactly if the press has led to no new state; otherwise the one session is in a
  state that cannot be written, and all others read as before.
-/

namespace KeypadCalc

/-- A calculator that refuses what is blank. -/
def RefusesBlanks (service : Calculator.Service) : Prop :=
  ∀ text w, (Text.trim text).isEmpty = true →
    ((service text).run w).1 = .error (.refused .emptyExpression)

theorem refusesBlanks_localService (limits : Limits) :
    RefusesBlanks (Calculator.localService limits) := by
  intro text w hblank
  rw [Calculator.localService_run, Calculator.evaluate_of_blank hblank]
  rfl

theorem refusesBlanks_client (library : Remote.Library) (client : Remote.Client) :
    RefusesBlanks (client.service library) := by
  intro text w hblank
  rw [Remote.service_outcome, if_pos hblank]

namespace Keypad

/-- Every key leads on from a blank keypad, to a state with a whole answer. -/
theorem exists_press_blank {service : Calculator.Service} (h : RefusesBlanks service)
    (maxDigits : Int) (id : String) (k : Key) (w : Surroundings) :
    ∃ t : State, ((press service maxDigits (.blank id) k).run w).1 = .ok t ∧
      t.answer.isWhole = true := by
  by_cases hk : k = .equals
  · subst hk
    obtain ⟨before, -, hpress⟩ := press_run_equals_of_service service maxDigits (.blank id) w
    have hnothing : (Text.trim "").isEmpty = true := by decide
    have hrefused : ((service (State.blank id).closeRoot.expression).run before).1 =
        .error (.refused .emptyExpression) := h "" before hnothing
    rw [hpress, hrefused]
    exact ⟨_, rfl, rfl⟩
  · rw [press_run_of_ne hk]
    exact ⟨_, rfl, State.isWhole_edit rfl k⟩

end Keypad

namespace Http

open Keypad (Key State)

section

variable {platform : Platform} {environment : Settings.Environment} {ws : Workings}

/-- A keypad works with the calculator of this program or with a remote one. -/
theorem service_of_workings (h : workings platform environment = .ok ws) :
    (∃ limits, ws.service = Calculator.localService limits) ∨
      ∃ client : Remote.Client, ws.service = client.service platform.library := by
  obtain ⟨settings, -, h⟩ := bind_eq_ok_iff.1 h
  split at h
  · split at h
    · cases h
    · next client _ =>
      obtain rfl := Except.ok.inj h
      exact .inr ⟨client, rfl⟩
  · obtain rfl := Except.ok.inj h
    left
    dsimp only
    exact ⟨settings.limits platform.stack, rfl⟩

/-- Whatever a keypad works with, near or far, refuses blanks. -/
theorem refusesBlanks_workings (h : workings platform environment = .ok ws) :
    RefusesBlanks ws.service := by
  rcases service_of_workings h with ⟨limits, hservice⟩ | ⟨client, hservice⟩
  · rw [hservice]
    exact refusesBlanks_localService limits
  · rw [hservice]
    exact refusesBlanks_client platform.library client

theorem workings_of_remote {settings : Settings} {client : Remote.Client}
    (hsettings : Settings.ofEnvironment environment = .ok settings)
    (hremote : settings.usesRemote = true) (hclient : settings.client = .ok client) :
    workings platform environment =
      .ok ⟨client.service platform.library, settings.keypadMaxDigits⟩ := by
  unfold workings
  rw [settingsFor_eq_ok hsettings, ok_bind, if_pos hremote, hclient]

end

variable {server : Server} {request : Request} {id : String} {t : State}

/-- A press leads its session to a state: it is given a key, the keypad has something to work with,
and with the id of the session at hand the key leads to this state. -/
def Server.PressLeadsTo (server : Server) (request : Request) (id : String) (t : State) : Prop :=
  ∃ (ws : Workings) (k : Key), server.call request = .keypadPress id (.given k) ∧
    workings server.platform server.environment = .ok ws ∧
    ((Keypad.press ws.service ws.maxDigits ((server.store.get? id).getD (.blank id)) k).run
      ((Work.setId .sessionId (some id)).run (server.inside request)).2).1 = .ok t

/-- **A press leads to a state, which is answered and saved, or leaves the sessions as they are.** -/
theorem handling_press {key : Input Key} (hcall : server.call request = .keypadPress id key) :
    (∃ t, server.PressLeadsTo request id t ∧
      (server.handling request).1 = (server.platform.framework.written 200 t.toJson,
        (server.store.getOrCreate id).2.save t)) ∨
    (∀ t, ¬ server.PressLeadsTo request id t) ∧
      (server.handling request).1.2 = server.store := by
  rw [Server.handling_of_call hcall, Call.serve]
  -- without a key or a service the handler ends before it opens the session
  cases hgather : key.gather (workings server.platform server.environment) with
  | error ending =>
    right
    rw [pressKey_run_of_refused hgather]
    refine ⟨?_, rfl⟩
    rintro t ⟨ws, k, hgiven, hworkings, -⟩
    cases hcall.symm.trans hgiven
    rw [gather_eq_ok_iff.2 ⟨rfl, hworkings⟩] at hgather
    cases hgather
  | ok gathered =>
    obtain ⟨ws, k⟩ := gathered
    obtain ⟨rfl, hworkings⟩ := gather_eq_ok_iff.1 hgather
    rw [pressKey_run_of_gather hgather]
    dsimp only
    rcases hpress : (Keypad.press ws.service ws.maxDigits
      ((server.store.get? id).getD (.blank id)) k).run
        ((Work.setId .sessionId (some id)).run (server.inside request)).2 with ⟨result, after⟩
    cases result with
    | ok t =>
      left
      rw [Session.Store.update_run_of_ok hpress]
      exact ⟨t, ⟨ws, k, hcall, hworkings, by rw [hpress]⟩, rfl⟩
    | error breakdown =>
      right
      constructor
      · rintro t ⟨ws', k', hgiven, hworkings', hled⟩
        cases hcall.symm.trans hgiven
        cases hworkings.symm.trans hworkings'
        rw [hpress] at hled
        cases hled
      · -- a press that broke down saved nothing: the session it opened was blank or had been there
        have hfailed : ((server.store.update id fun state => Keypad.press ws.service ws.maxDigits
            state k).run ((Work.setId .sessionId (some id)).run (server.inside request)).2).1.1 =
              .error breakdown := by
          rw [Session.Store.update_run, hpress]
        obtain ⟨new, hnew, -⟩ := Keypad.exists_press_blank (refusesBlanks_workings hworkings)
          ws.maxDigits id k ((Work.setId .sessionId (some id)).run (server.inside request)).2
        exact Session.Store.update_run_of_error ⟨new, hnew⟩ hfailed

/-- A press in a session that is not there leads to a state with a whole answer. -/
theorem Server.PressLeadsTo.isWhole (h : server.PressLeadsTo request id t)
    (hnone : server.store.get? id = none) : t.answer.isWhole = true := by
  obtain ⟨ws, k, -, hworkings, hled⟩ := h
  obtain ⟨new, hnew, hwhole⟩ := Keypad.exists_press_blank (refusesBlanks_workings hworkings)
    ws.maxDigits id k ((Work.setId .sessionId (some id)).run (server.inside request)).2
  rw [hnone, Option.getD_none, hnew] at hled
  cases hled
  exact hwhole

/-- A press keeps to the session that its state carries. -/
theorem Server.PressLeadsTo.sessionId_eq (h : server.PressLeadsTo request id t) {s : State}
    (hkept : server.store.get? id = some s) : t.sessionId = s.sessionId := by
  obtain ⟨ws, k, -, -, hled⟩ := h
  rw [hkept] at hled
  obtain ⟨answer, rfl⟩ := Keypad.press_eq_ok hled
  exact State.edit_sessionId ws.maxDigits s k

/-- What a press leaves behind that has led to a state and is not answered with it. -/
structure Server.Unwritten (server : Server) (request : Request) (id : String) (t : State) :
    Prop where
  /-- The state cannot be written. -/
  writes : server.platform.framework.writes t.toJson = false
  /-- The session was there before. -/
  exists_kept : ∃ s, server.store.get? id = some s ∧ t.sessionId = s.sessionId
  saved : (server.handle request).2.store.get? t.sessionId = some t
  others : ∀ other, other ≠ t.sessionId →
    (server.handle request).2.store.get? other = server.store.get? other

theorem unwritten_of_leadsTo (hlawful : server.platform.framework.Lawful)
    (hrefused : ¬ ∃ s : State, (server.handle request).1.status = 200 ∧
      (server.handle request).1.body = .json s.toJson)
    (hled : server.PressLeadsTo request id t)
    (hhandling : (server.handling request).1 = (server.platform.framework.written 200 t.toJson,
      (server.store.getOrCreate id).2.save t)) : server.Unwritten request id t := by
  have hwrites : server.platform.framework.writes t.toJson = false := by
    refine Bool.eq_false_iff.2 fun hwrites => hrefused ⟨t, ?_⟩
    obtain ⟨traceId, hstatus, hbody⟩ := server.handle_conveys request
    rw [Server.ending, hhandling, Framework.written, if_pos hwrites] at hstatus hbody
    exact ⟨hstatus, hbody⟩
  cases hkept : server.store.get? id with
  | none =>
    -- the state of a new session has a whole answer, so it would have been written
    have hplain : t.toJson.isPlain = true := by
      rw [isPlain_toJson]
      exact hled.isWhole hkept
    rw [hlawful.writes_of_isPlain hplain] at hwrites
    cases hwrites
  | some s =>
    have hstore : (server.handle request).2.store = server.store.save t := by
      rw [server.handle_store, hhandling, Session.Store.getOrCreate, hkept]
    refine ⟨hwrites, ⟨s, hkept, hled.sessionId_eq hkept⟩, ?_, fun other hother => ?_⟩
    · rw [hstore, Session.Store.get?_save_self]
    · rw [hstore, Session.Store.get?_save_of_ne _ hother]

/-- **A press that is refused changes nothing, unless it has led to a state that cannot be
written.** Where a press is not answered with a state, whatever the reason and whichever calculator
the server has:

* all sessions are as before exactly if every state that the press has led to was there already;
* a press that has led to a state has found its session there, and leaves it in that state, which
  cannot be written, and all other sessions as before;
* a session reads as what is kept of it, before the press and after it; so a press in a session that
  was not there changes nothing, and the session is still not found. -/
theorem refused_press_changes_nothing {key : Input Key}
    (hlawful : server.platform.framework.Lawful)
    (hcall : server.call request = .keypadPress id key)
    (hrefused : ¬ ∃ s : State, (server.handle request).1.status = 200 ∧
      (server.handle request).1.body = .json s.toJson) :
    ((∀ other, (server.handle request).2.store.get? other = server.store.get? other) ↔
      ∀ t, server.PressLeadsTo request id t → server.store.get? t.sessionId = some t) ∧
    (∀ t, server.PressLeadsTo request id t → server.Unwritten request id t) ∧
    ∀ (other : String) (reading : Request), server.call reading = .keypadState other →
      (server.handle reading).1.Reads server.platform.framework other (server.store.get? other) ∧
      ((server.handle request).2.handle reading).1.Reads server.platform.framework other
        ((server.handle request).2.store.get? other) ∧
      (server.store.get? id = none →
        (server.handle request).2.store.get? other = server.store.get? other ∧
        (server.store.get? other = none →
          ((server.handle request).2.handle reading).1.status = 404)) := by
  -- a press that leads to a state had it saved, so the refusal came from writing it
  have hunwritten : ∀ t, server.PressLeadsTo request id t → server.Unwritten request id t := by
    intro t hled
    rcases handling_press hcall with ⟨t', hled', hhandling⟩ | ⟨hnone, -⟩
    · have hsame : t' = t := by
        obtain ⟨ws, k, hgiven, hworkings, hrun⟩ := hled
        obtain ⟨ws', k', hgiven', hworkings', hrun'⟩ := hled'
        cases hgiven.symm.trans hgiven'
        cases hworkings.symm.trans hworkings'
        exact Except.ok.inj (hrun'.symm.trans hrun)
      subst hsame
      exact unwritten_of_leadsTo hlawful hrefused hled hhandling
    · exact absurd hled (hnone t)
  have hsame : (∀ t, server.PressLeadsTo request id t →
      server.store.get? t.sessionId = some t) → ∀ other,
        (server.handle request).2.store.get? other = server.store.get? other := by
    intro hthere other
    rcases handling_press hcall with ⟨t, hled, -⟩ | ⟨-, hstore⟩
    · by_cases hother : other = t.sessionId
      · rw [hother, (hunwritten t hled).saved, hthere t hled]
      · exact (hunwritten t hled).others other hother
    · rw [server.handle_store, hstore]
  refine ⟨⟨fun hall t hled => ?_, hsame⟩, hunwritten, fun other reading hreading => ?_⟩
  · rw [← hall, (hunwritten t hled).saved]
  · have hafter := (server.handle request).2.handle_reads hlawful hreading
    refine ⟨server.handle_reads hlawful hreading, hafter, fun hnone => ?_⟩
    -- a session that was not there has no state that is kept, so the press led to none
    have hkept := hsame (fun t hled => by
      obtain ⟨s, hs, -⟩ := (hunwritten t hled).exists_kept
      rw [hnone] at hs
      cases hs) other
    refine ⟨hkept, fun habsent => ?_⟩
    rw [hkept, habsent] at hafter
    cases hafter with
    | shown hshows => exact hshows.status_eq_iff.2 rfl
    | unwritten hsome => cases hsome

/-- A server with a keypad on which a seven has been typed, and a remote calculator that gives the
same reply to everything that it is asked. -/
def serverOfReply (body : String) : Server where
  platform := .usual
  environment := [("CALC_TOOL_MODE", "http"), ("CALC_HTTP_BASE_URL", "http://remote.test")]
  origins := []
  store := ⟨[("a", ⟨"a", "7", "7", "", false⟩)]⟩
  surroundings := { wire := .ofReplies [.delivered 200 body.toUTF8] }

/-- Over a reply that is no answer a press breaks down, and leaves the seven on the one keypad and no
other keypad. -/
theorem null_reply_changes_nothing :
    ((serverOfReply "null").handle (.pressing "a" "=")).1.status = 500 ∧
      ∀ other, ((serverOfReply "null").handle (.pressing "a" "=")).2.store.get? other =
        (serverOfReply "null").store.get? other := by
  have hstatus : ((serverOfReply "null").handle (.pressing "a" "=")).1.status = 500 := by
    decide +kernel
  have hrefused : ¬ ∃ s : State,
      ((serverOfReply "null").handle (.pressing "a" "=")).1.status = 200 ∧
        ((serverOfReply "null").handle (.pressing "a" "=")).1.body = .json s.toJson := by
    rintro ⟨s, h, -⟩
    rw [hstatus] at h
    cases h
  have hsession : IsSessionId "a" := ⟨by decide, by decide⟩
  have hcall : (serverOfReply "null").call (.pressing "a" "=") =
      .keypadPress "a" (.given .equals) := (calls_own rfl hsession .equals).2.2
  obtain ⟨hunchanged, -, -⟩ :=
    refused_press_changes_nothing (Usual.lawful_framework _) hcall hrefused
  refine ⟨hstatus, hunchanged.2 fun t hled => ?_⟩
  -- the press has led to no state at all
  obtain ⟨ws, k, hgiven, hworkings, hrun⟩ := hled
  cases hcall.symm.trans hgiven
  have hsettings : Settings.ofEnvironment (serverOfReply "null").environment =
      .ok { toolMode := "http", remoteBaseUrl := some "http://remote.test" } := by decide +kernel
  have hsame : workings .usual (serverOfReply "null").environment =
      .ok ⟨Remote.Client.service .usual ⟨"http://remote.test", 5.0⟩, 15⟩ :=
    workings_of_remote hsettings (by decide +kernel) rfl
  cases hworkings.symm.trans hsame
  have hnothing : ((Keypad.press (Remote.Client.service .usual ⟨"http://remote.test", 5.0⟩) 15
      ⟨"a", "7", "7", "", false⟩ .equals).run ((Work.setId .sessionId (some "a")).run
        ((serverOfReply "null").inside (.pressing "a" "="))).2).1.toOption = none := by
    decide +kernel
  cases (congrArg Except.toOption hrun).symm.trans hnothing

/-- Over an answer whose display is half of a surrogate pair a press breaks down as well, but the
keypad has the answer, and cannot be read any more. -/
theorem torn_reply_changes_session :
    let server := serverOfReply
      "\x7b\"expression\":\"7\",\"result\":7,\"display\":\"\\ud800\"\x7d"
    (server.handle (.reading "a")).1.status = 200 ∧
      (server.handle (.pressing "a" "=")).1.status = 500 ∧
      (server.handle (.pressing "a" "=")).2.store.get? "a" ≠ server.store.get? "a" ∧
      ((server.handle (.pressing "a" "=")).2.handle (.reading "a")).1.status = 500 := by
  refine ⟨?_, ?_, ?_, ?_⟩ <;> decide +kernel

end Http

end KeypadCalc

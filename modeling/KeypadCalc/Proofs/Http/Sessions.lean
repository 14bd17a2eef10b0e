import KeypadCalc.Proofs.Http.Handlers
import KeypadCalc.Proofs.Http.Usual
import KeypadCalc.Proofs.Keypad.Answer
import KeypadCalc.Proofs.Session

/-!
# KeypadCalc — sessions over many requests

A server that calculates itself answers requests one after the other, for any number of sessions in
any order. `keysSince` picks from what the requests are for the keys that count for one session:
those that were given for its presses since it was last reset. The main result says that nothing else
counts:

* **`session_is_keys_since_reset`** — a session reads as its keys make of a blank keypad, and it is
  not found where there are none; a press that is given a key answers the state that the key leads on
  to, and one that is given none is turned away.

The invariant is `Store.Tracks`: every session is where the keys that count for it lead. It has to
speak of all sessions at once, since a state is saved under the id that it carries, and that this is
the id of the session pressed is known from its keys. A press goes on from what its session tracks
(`exists_pressed`), and a request that does not touch a session leaves it as it is
(`get?_of_not_touches`). So every request keeps the invariant (`tracks_handle`), and by induction
every run does (`tracks_handleAll`).
-/

namespace KeypadCalc

namespace Keypad

variable {limits : Limits} {maxDigits : Int} {s : State}

/-- A key by itself leaves the answer as it is, or clears it. -/
theorem State.isWhole_edit (h : s.answer.isWhole = true) (k : Key) :
    (s.edit maxDigits k).answer.isWhole = true := by
  cases k <;>
    simp only [State.edit, blank, append, closeRoot, appendZeros, appendDigits] <;>
    repeat' split
  all_goals first | exact h | rfl

/-- No key tears the answer, with the calculator at hand. -/
theorem State.isWhole_pressed (h : s.answer.isWhole = true) (k : Key) :
    (s.pressed limits maxDigits k).answer.isWhole = true := by
  by_cases hk : k = .equals
  · subst hk
    rw [answer_pressed_equals]
    rfl
  · rw [pressed_of_ne hk]
    exact isWhole_edit h k

theorem isWhole_of_leads {id : String} {keys : List Key}
    (h : Leads (Calculator.localService limits) maxDigits (.blank id) keys s) :
    s.answer.isWhole = true := by
  have hpressed := State.leads_pressedAll limits maxDigits (.blank id) keys
  cases (h {}).symm.trans (hpressed {})
  induction keys using List.reverseRecOn with
  | nil => rfl
  | append_singleton ks k ih =>
    rw [State.pressedAll_snoc]
    have hleads := State.leads_pressedAll limits maxDigits (.blank id) ks
    exact State.isWhole_pressed (ih hleads hleads) k

end Keypad

namespace Http

open Keypad (Key State Leads)

/-- The keys that count for a session behind a call, where some count in front of it; a session
without a press has none. -/
def Call.keysBehind (id : String) (keys : Option (List Key)) : Call → Option (List Key)
  | .keypadPress other (.given k) => if other = id then some (keys.getD [] ++ [k]) else keys
  | .keypadReset other => if other = id then none else keys
  | _ => keys

/-- The keys that have been pressed in a session since it was last reset. -/
def keysSince (id : String) (calls : List Call) : Option (List Key) :=
  calls.foldl (Call.keysBehind id) none

/-- A server after requests, one after the other. -/
def Server.handleAll (server : Server) (requests : List Request) : Server :=
  requests.foldl (fun server request => (server.handle request).2) server

/-! ## What a request does to a session -/

/-- A call changes a session: it presses a key in it, or resets it. -/
inductive Call.Touches (id : String) : Call → Prop where
  | press (k : Key) : Touches id (.keypadPress id (.given k))
  | reset : Touches id (.keypadReset id)

theorem keysBehind_of_not_touches {call : Call} {id : String} (h : ¬ call.Touches id)
    (keys : Option (List Key)) : call.keysBehind id keys = keys := by
  unfold Call.keysBehind
  split
  · next other k =>
    refine if_neg ?_
    rintro rfl
    exact h (.press k)
  · next other =>
    refine if_neg ?_
    rintro rfl
    exact h .reset
  · rfl

/-- A session for which some keys count: nothing is kept of it without any, and else it is in the
state that they lead to from a blank keypad. -/
inductive Tracks (limits : Limits) (maxDigits : Int) (id : String) :
    Option (List Key) → Option State → Prop where
  | absent : Tracks limits maxDigits id none none
  | present {keys : List Key} {s : State}
      (hleads : Leads (Calculator.localService limits) maxDigits (.blank id) keys s) :
      Tracks limits maxDigits id (some keys) (some s)

/-- Every session is where the keys that count for it lead. -/
def Store.Tracks (limits : Limits) (maxDigits : Int) (keys : String → Option (List Key))
    (store : Session.Store) : Prop :=
  ∀ id, Http.Tracks limits maxDigits id (keys id) (store.get? id)

section

variable {limits : Limits} {maxDigits : Int} {id : String} {keys : Option (List Key)}
  {kept : Option State}

/-- A session that is where keys lead can be written, so it is shown when it is read. -/
theorem Tracks.shows {framework : Framework} (hlawful : framework.Lawful) {response : Response}
    (h : Tracks limits maxDigits id keys kept) (hreads : response.Reads framework id kept) :
    response.Shows id kept := by
  cases h with
  | absent =>
    cases hreads with
    | shown hshows => exact hshows
    | unwritten hkept => cases hkept
  | present hleads =>
    refine hreads.shows (hlawful.writes_of_isPlain ?_)
    rw [isPlain_toJson]
    exact Keypad.isWhole_of_leads hleads

/-- Something is kept of a session exactly if some keys count for it. -/
theorem Tracks.eq_none_iff (h : Tracks limits maxDigits id keys kept) :
    kept = none ↔ keys = none := by
  cases h <;> simp

/-- A key takes a session on from the keys that count for it. -/
theorem exists_pressed (h : Tracks limits maxDigits id keys kept) (k : Key) :
    ∃ t : State, t.sessionId = id ∧
      (∀ w, ((Keypad.press (Calculator.localService limits) maxDigits
        (kept.getD (.blank id)) k).run w).1 = .ok t) ∧
      Leads (Calculator.localService limits) maxDigits (.blank id) (keys.getD [] ++ [k]) t := by
  obtain ⟨t, ht⟩ := Keypad.exists_press_localService limits maxDigits (kept.getD (.blank id)) k
  have hleads : Leads (Calculator.localService limits) maxDigits (.blank id)
      (keys.getD [] ++ [k]) t := by
    cases h with
    | absent => exact (Leads.nil _ _ _).snoc ht
    | present hleads => exact hleads.snoc ht
  exact ⟨t, hleads.sessionId_eq, ht, hleads⟩

end

section

variable {server : Server} {settings : Settings} {request : Request} {id : String}

theorem workings_of_local {platform : Platform} {environment : Settings.Environment}
    (hsettings : Settings.ofEnvironment environment = .ok settings)
    (hlocal : settings.usesRemote = false) :
    workings platform environment = .ok ⟨Calculator.localService (settings.limits platform.stack),
      settings.keypadMaxDigits⟩ := by
  unfold workings
  rw [settingsFor_eq_ok hsettings, ok_bind]
  simp [hlocal]

/-- A press that is given a key answers the state that the key makes of the session, and saves it. -/
theorem handling_press_of_given
    (hsettings : Settings.ofEnvironment server.environment = .ok settings)
    (hlocal : settings.usesRemote = false) {k : Key}
    (hcall : server.call request = .keypadPress id (.given k)) {t : State}
    (ht : ∀ w, ((Keypad.press (Calculator.localService (settings.limits server.platform.stack))
      settings.keypadMaxDigits ((server.store.get? id).getD (.blank id)) k).run w).1 = .ok t) :
    (server.handling request).1 = (server.platform.framework.written 200 t.toJson,
      (server.store.getOrCreate id).2.save t) := by
  have hgather : (Input.given k).gather (workings server.platform server.environment) =
      .ok (⟨Calculator.localService (settings.limits server.platform.stack),
        settings.keypadMaxDigits⟩, k) :=
    gather_eq_ok_iff.2 ⟨rfl, workings_of_local hsettings hlocal⟩
  rw [Server.handling_of_call hcall, Call.serve, pressKey_run_of_gather hgather]
  dsimp only
  -- the ids and the log that the press starts from do not matter to its state
  generalize ((Work.setId .sessionId (some id)).run (server.inside request)) = bound
  rcases hpress : (Keypad.press (Calculator.localService (settings.limits server.platform.stack))
    settings.keypadMaxDigits ((server.store.get? id).getD (.blank id)) k).run bound.2 with
    ⟨result, after⟩
  have hresult : result = .ok t := by simpa [hpress] using ht bound.2
  subst hresult
  rw [Session.Store.update_run_of_ok hpress]
  rfl

/-- A press that is given no key leaves the sessions alone. -/
theorem handling_press_store_of_not_given {key : Input Key}
    (hcall : server.call request = .keypadPress id key) (h : ∀ k, key ≠ .given k) :
    (server.handling request).1.2 = server.store := by
  rw [Server.handling_of_call hcall, Call.serve]
  cases hgather : key.gather (workings server.platform server.environment) with
  | ok gathered => exact absurd (gather_eq_ok_iff.1 hgather).1 (h gathered.2)
  | error ending =>
    rw [pressKey_run_of_refused hgather]

/-- **A request leaves a session that it does not touch as it is.** -/
theorem get?_of_not_touches
    (hsettings : Settings.ofEnvironment server.environment = .ok settings)
    (hlocal : settings.usesRemote = false) {keys : String → Option (List Key)}
    (htracks : Store.Tracks (settings.limits server.platform.stack) settings.keypadMaxDigits keys
      server.store) (h : ¬ (server.call request).Touches id) :
    (server.handle request).2.store.get? id = server.store.get? id := by
  rw [server.handle_store]
  cases hcall : server.call request with
  | keypadReset other =>
    have hother : id ≠ other := by
      rintro rfl
      exact h (hcall ▸ .reset)
    rw [Server.handling_of_call hcall]
    show (server.store.clear other).2.get? id = _
    rw [Session.Store.get?_clear, if_neg hother]
  | keypadPress other key =>
    cases key with
    | given k =>
      have hother : id ≠ other := by
        rintro rfl
        exact h (hcall ▸ .press k)
      -- the state saved carries the id of the other session
      obtain ⟨t, hid, ht, -⟩ := exists_pressed (htracks other) k
      rw [handling_press_of_given hsettings hlocal hcall ht,
        Session.Store.get?_after_update hid, if_neg hother]
    | unread _ | unfit _ => rw [handling_press_store_of_not_given hcall nofun]
  | _ =>
    rw [Server.handling_of_call hcall]
    rfl

/-- Every request keeps the sessions where their keys lead. -/
theorem tracks_handle (hsettings : Settings.ofEnvironment server.environment = .ok settings)
    (hlocal : settings.usesRemote = false) {keys : String → Option (List Key)}
    (htracks : Store.Tracks (settings.limits server.platform.stack) settings.keypadMaxDigits keys
      server.store) (request : Request) :
    Store.Tracks (settings.limits server.platform.stack) settings.keypadMaxDigits
      (fun id => (server.call request).keysBehind id (keys id))
      (server.handle request).2.store := by
  intro id
  dsimp only
  -- only a press and a reset touch a session; each other call leaves it as it was
  by_cases htouches : (server.call request).Touches id
  · rw [server.handle_store]
    cases hcall : server.call request with
    | keypadPress other key =>
      rw [hcall] at htouches
      cases htouches with
      | press k =>
        obtain ⟨t, hid, ht, hleads⟩ := exists_pressed (htracks id) k
        rw [handling_press_of_given hsettings hlocal hcall ht, Session.Store.get?_after_update hid,
          if_pos rfl, Call.keysBehind, if_pos rfl]
        exact .present hleads
    | keypadReset other =>
      rw [hcall] at htouches
      cases htouches with
      | reset =>
        have hcleared : (server.handling request).1.2 = (server.store.clear id).2 := by
          rw [Server.handling_of_call hcall]
          rfl
        rw [hcleared, Session.Store.get?_clear, if_pos rfl, Call.keysBehind, if_pos rfl]
        exact .absent
    | _ =>
      rw [hcall] at htouches
      cases htouches
  · rw [keysBehind_of_not_touches htouches,
      get?_of_not_touches hsettings hlocal htracks htouches]
    exact htracks id

/-! ## Runs -/

/-- Every run keeps the sessions where their keys lead. Induction on the requests from the first
one: a request changes neither the settings nor what other requests are for. -/
theorem tracks_handleAll (hsettings : Settings.ofEnvironment server.environment = .ok settings)
    (hlocal : settings.usesRemote = false) {keys : String → Option (List Key)}
    (htracks : Store.Tracks (settings.limits server.platform.stack) settings.keypadMaxDigits keys
      server.store) (requests : List Request) :
    Store.Tracks (settings.limits server.platform.stack) settings.keypadMaxDigits
        (fun id => (requests.map server.call).foldl (Call.keysBehind id) (keys id))
        (server.handleAll requests).store ∧
      (server.handleAll requests).environment = server.environment ∧
      (server.handleAll requests).platform = server.platform ∧
      (server.handleAll requests).call = server.call := by
  induction requests generalizing server keys with
  | nil => exact ⟨htracks, rfl, rfl, rfl⟩
  | cons request requests ih =>
    have hnext := tracks_handle hsettings hlocal htracks request
    -- no request changes the environment, so the settings stay what they were
    have hsettings' : Settings.ofEnvironment (server.handle request).2.environment =
        .ok settings := hsettings
    obtain ⟨hlater, henvironment, hplatform, hcall⟩ := ih hsettings' hnext
    exact ⟨hlater, henvironment, hplatform, hcall⟩

end

/-- **A session is what the keys pressed in it since its last reset make of a blank keypad.** After
any requests, of which the framework tells what they are for:

* to read a session answers the state that these keys lead to, field by field, or that it is not
  found, and this exactly if there are none;
* a press that is given a key answers the state with that key added;
* a request that neither gives a key to a press in the session nor resets it, such as a press that
  the framework has refused, changes nothing about the session. -/
theorem session_is_keys_since_reset {server : Server} {settings : Settings}
    (hlawful : server.platform.framework.Lawful)
    (hsettings : Settings.ofEnvironment server.environment = .ok settings)
    (hlocal : settings.usesRemote = false) (hstore : server.store = {}) (requests : List Request)
    (id : String) :
    (∀ request : Request, server.call request = .keypadState id → ∃ kept : Option State,
      Tracks (settings.limits server.platform.stack) settings.keypadMaxDigits id
          (keysSince id (requests.map server.call)) kept ∧
        ((server.handleAll requests).handle request).1.Shows id kept ∧
        (((server.handleAll requests).handle request).1.status = 404 ↔
          keysSince id (requests.map server.call) = none)) ∧
    (∀ (request : Request) (k : Key), server.call request = .keypadPress id (.given k) →
      ∃ t : State, Leads (Calculator.localService (settings.limits server.platform.stack))
          settings.keypadMaxDigits (.blank id)
          ((keysSince id (requests.map server.call)).getD [] ++ [k]) t ∧
        ((server.handleAll requests).handle request).1.Shows id (some t)) ∧
    ∀ request : Request, ¬ (server.call request).Touches id →
      ((server.handleAll requests).handle request).2.store.get? id =
        (server.handleAll requests).store.get? id := by
  have hblank : Store.Tracks (settings.limits server.platform.stack) settings.keypadMaxDigits
      (fun _ => none) server.store := by
    intro id
    rw [hstore]
    exact .absent
  -- what the server keeps follows the keys since the last reset, request by request
  obtain ⟨htracks, henvironment, hplatform, hcalls⟩ :=
    tracks_handleAll hsettings hlocal hblank requests
  have hid : Tracks (settings.limits server.platform.stack) settings.keypadMaxDigits id
      (keysSince id (requests.map server.call)) ((server.handleAll requests).store.get? id) :=
    htracks id
  rw [← henvironment] at hsettings
  rw [← hplatform] at hlawful htracks hid ⊢
  rw [← hcalls] at hid ⊢
  -- from here on the earlier requests are nothing but the store they left
  generalize server.handleAll requests = later at htracks hsettings hlawful hid ⊢
  refine ⟨fun request hcall => ?_, fun request k hcall => ?_,
    fun request htouches => get?_of_not_touches hsettings hlocal htracks htouches⟩
  · have hshows := hid.shows hlawful (later.handle_reads hlawful hcall)
    exact ⟨_, hid, hshows, hshows.status_eq_iff.trans hid.eq_none_iff⟩
  · obtain ⟨t, -, ht, hleads⟩ := exists_pressed hid k
    have hconveys := later.handle_conveys request
    rw [Server.ending, handling_press_of_given hsettings hlocal hcall ht] at hconveys
    have htracked : Tracks (settings.limits later.platform.stack) settings.keypadMaxDigits id _
        (some t) := .present hleads
    exact ⟨t, hleads, htracked.shows hlawful hconveys.reads_state⟩

/-- Presses in two sessions in turns: the first takes two keys, and one that is unknown between them;
the second takes a key and is reset. -/
def pressesInTurns : List Request :=
  [.pressing "a" "7", .pressing "b" "√", .pressing "a" "%", .resetting "b", .pressing "a" "+"]

/-- A server in an environment in which nothing is set, at its start. -/
def freshServer : Server where
  platform := .usual
  environment := []
  origins := []

/-- The first of two sessions pressed in turns shows its two keys, and the second is not found. -/
theorem session_of_presses_in_turns :
    ((freshServer.handleAll pressesInTurns).handle (.reading "a")).1.Shows "a"
        (some ⟨"a", "7+", "7+", "", false⟩) ∧
      ((freshServer.handleAll pressesInTurns).handle (.reading "b")).1.status = 404 := by
  have hsettings : Settings.ofEnvironment freshServer.environment = .ok {} := by decide +kernel
  have hfirst : IsSessionId "a" := ⟨by decide, by decide⟩
  have hsecond : IsSessionId "b" := ⟨by decide, by decide⟩
  have ha : keysSince "a" (pressesInTurns.map freshServer.call) = some [.seven, .add] := by
    decide +kernel
  have hb : keysSince "b" (pressesInTurns.map freshServer.call) = none := by
    decide +kernel
  have hplayed : ((Keypad.pressAll
      (Calculator.localService (({} : Settings).limits freshServer.platform.stack)) 15 (.blank "a")
      [.seven, .add]).run {}).1 = .ok ⟨"a", "7+", "7+", "", false⟩ :=
    eq_ok_of_toOption (by decide +kernel)
  have hplatform : freshServer.platform = .usual := rfl
  have hlawful : freshServer.platform.framework.Lawful := Usual.lawful_framework _
  constructor
  · obtain ⟨hread, -, -⟩ :=
      session_is_keys_since_reset hlawful hsettings (by decide) rfl pressesInTurns "a"
    obtain ⟨kept, htracks, hshows, -⟩ :=
      hread _ (calls_own hplatform hfirst .seven).1
    rw [ha] at htracks
    cases htracks with
    | present hleads =>
      -- the keys lead to one state, the one played here
      cases (hleads {}).symm.trans hplayed
      exact hshows
  · obtain ⟨hread, -, -⟩ :=
      session_is_keys_since_reset hlawful hsettings (by decide) rfl pressesInTurns "b"
    obtain ⟨kept, -, -, hstatus⟩ :=
      hread _ (calls_own hplatform hsecond .seven).1
    exact hstatus.2 hb

end Http

end KeypadCalc

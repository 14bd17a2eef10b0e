import KeypadCalc.Proofs.Http.Usual
import KeypadCalc.Proofs.Keypad.Stroke
import KeypadCalc.Proofs.Remote.Service

/-!
# KeypadCalc — a keypad with a remote calculator

A keypad that calculates by a remote calculator, whose replies answer what it asks, goes through the
states of one with the calculator at hand (`remote_mirrors_local`). It asks once for every `=` on an
expression that is not empty, and for nothing else (`queries`).
-/

namespace KeypadCalc.Keypad

open Remote (Client Mirrors Wire requested)

/-! ## One answer -/

/-- Outcomes that mirror each other are shown alike. -/
theorem shownFor_of_mirrors {text : String} {near far : Outcome} (h : Mirrors text near far) :
    ∃ answer, shownFor near = .ok answer ∧ shownFor far = .ok answer := by
  cases h with
  | answer _ hdisplay =>
    refine ⟨_, rfl, ?_⟩
    rw [shownFor, hdisplay]
  | blank _ => exact ⟨_, rfl, rfl⟩
  | refusal _ _ _ => exact ⟨_, rfl, rfl⟩

/-! ## One press -/

/-- What a keypad asks about when a key is pressed. -/
def asked (s : State) (k : Key) : List String :=
  if k = .equals ∧ s.closeRoot.expression ≠ "" then [s.closeRoot.expression] else []

/-- An expression that keys have typed is requested as it stands. -/
theorem requested_of_scripted {s : State} (h : s.Scripted) :
    requested s.expression = if s.expression ≠ "" then [s.expression] else [] := by
  rw [requested, Text.trim_eq_self h.isBlank_eq_false]
  simp only [String.isEmpty_iff, ne_eq, ite_not]

section

variable {library : Remote.Library} {environment : Settings.Environment} {settings : Settings}
  {client : Client}

/-- Two keypads that agree still agree after a key, where a server answers what is asked. -/
theorem press_mirrors (hlibrary : library.Lawful)
    (hsettings : Settings.ofEnvironment environment = .ok settings) (stack : Evaluator.Stack)
    {s : State} (hs : s.Scripted) (maxDigits : Int) (k : Key) (near w : Surroundings)
    (hserves : w.wire.Serves library environment (client.baseUrl ++ "/calc") (asked s k)) :
    ∃ t, ((press (Calculator.localService (settings.limits stack)) maxDigits s k).run near).1 =
        .ok t ∧
      ((press (client.service library) maxDigits s k).run w).1 = .ok t ∧
      ((press (client.service library) maxDigits s k).run w).2.wire =
        w.wire.after (client.requests (asked s k)) := by
  by_cases hk : k = .equals
  · subst hk
    have hclosed : s.closeRoot.Scripted := hs.edit maxDigits .equals
    have hasked : asked s .equals = requested s.closeRoot.expression := by
      rw [requested_of_scripted hclosed, asked]
      simp only [true_and]
    rw [hasked] at hserves ⊢
    -- a key asks a service through its handler, which keeps the answer or shows the error
    obtain ⟨near', -, hnear, -⟩ := answerFor_of_service
      (Calculator.localService (settings.limits stack)) s.closeRoot.expression near
    obtain ⟨w', hw', hfar, hwire⟩ :=
      answerFor_of_service (client.service library) s.closeRoot.expression w
    rw [← hw'] at hserves ⊢
    obtain ⟨hmirrors, hafter⟩ := Remote.service_mirrors hlibrary hsettings stack client
      s.closeRoot.expression near' w' hserves
    obtain ⟨answer, hshown, hshown'⟩ := shownFor_of_mirrors hmirrors
    refine ⟨{ s.closeRoot with answer }, ?_, ?_, ?_⟩
    · rw [press_run_equals, hnear, hshown]
      rfl
    · rw [press_run_equals, hfar, hshown']
      rfl
    · rw [press_run_equals, hwire, hafter]
  · -- any other key asks nothing
    have hasked : asked s k = [] := if_neg fun h => hk h.1
    rw [press_run_of_ne hk, press_run_of_ne hk, hasked]
    exact ⟨s.edit maxDigits k, rfl, rfl, (Wire.after_nil _).symm⟩

/-! ## Runs -/

/-- What a keypad asks about while keys are pressed. -/
def queries (maxDigits : Int) : State → List Key → List String
  | _, [] => []
  | s, k :: ks => asked s k ++ queries maxDigits (s.edit maxDigits k) ks

theorem queries_append (maxDigits : Int) (s : State) (keys more : List Key) :
    queries maxDigits s (keys ++ more) =
      queries maxDigits s keys ++ queries maxDigits (s.typeAll maxDigits keys) more := by
  induction keys generalizing s with
  | nil => rfl
  | cons k ks ih =>
    rw [List.cons_append, queries, queries, ih, List.append_assoc]
    rfl

theorem asked_with_answer (s : State) (answer : RawText) (k : Key) :
    asked { s with answer } k = asked s k := by
  have hclose : ({ s with answer } : State).closeRoot.expression = s.closeRoot.expression := by
    unfold State.closeRoot
    split <;> rfl
  rw [asked, hclose]
  rfl

/-- What a keypad asks about does not depend on the answer shown. -/
theorem queries_with_answer (maxDigits : Int) (s : State) (answer : RawText) (keys : List Key) :
    queries maxDigits { s with answer } keys = queries maxDigits s keys := by
  induction keys generalizing s answer with
  | nil => rfl
  | cons k ks ih =>
    obtain ⟨answer', hedit⟩ := edit_with_answer maxDigits s answer k
    rw [queries, queries, asked_with_answer, hedit, ih]

theorem requests_append (texts more : List String) :
    client.requests (texts ++ more) = client.requests texts ++ client.requests more :=
  List.map_append

/-- Two keypads that agree still agree after any keys, where a server answers what is asked.
Induction on the keys from the first one: a press leaves the two in the same state. -/
theorem pressAll_mirrors (hlibrary : library.Lawful)
    (hsettings : Settings.ofEnvironment environment = .ok settings) (stack : Evaluator.Stack)
    {s : State} (hs : s.Scripted) (maxDigits : Int) (keys : List Key) (near w : Surroundings)
    (hserves : w.wire.Serves library environment (client.baseUrl ++ "/calc")
      (queries maxDigits s keys)) :
    ∃ t, ((pressAll (Calculator.localService (settings.limits stack)) maxDigits s keys).run
        near).1 = .ok t ∧
      ((pressAll (client.service library) maxDigits s keys).run w).1 = .ok t ∧
      ((pressAll (client.service library) maxDigits s keys).run w).2.wire =
        w.wire.after (client.requests (queries maxDigits s keys)) := by
  induction keys generalizing s near w with
  | nil => exact ⟨s, rfl, rfl, (Wire.after_nil _).symm⟩
  | cons k ks ih =>
    obtain ⟨next, hnear, hfar, hwire⟩ := press_mirrors hlibrary hsettings stack hs maxDigits k
      near w (hserves.mono (List.subset_append_left _ _))
    obtain ⟨answer, hnext⟩ := press_eq_ok hnear
    -- an answer changes neither the script nor what is asked next
    have hscripted : next.Scripted := by
      rw [hnext]
      exact (hs.edit maxDigits k).with_answer answer
    have hqueries : queries maxDigits next ks = queries maxDigits (s.edit maxDigits k) ks := by
      rw [hnext]
      exact queries_with_answer maxDigits _ answer ks
    -- the wire serves what is left after the requests of this key
    have hlater := (hserves.mono (List.subset_append_right _ _)).after
      (client.requests (asked s k))
    rw [pressAll_run_cons, pressAll_run_cons, queries, requests_append, Wire.after_append,
      ← hwire, ← hqueries]
    rw [← hwire, ← hqueries] at hlater
    rcases hrun : (press (Calculator.localService (settings.limits stack)) maxDigits s k).run near
      with ⟨result, near'⟩
    rcases hrun' : (press (client.service library) maxDigits s k).run w with ⟨result', w'⟩
    rw [hrun] at hnear
    rw [hrun'] at hfar hlater
    cases hnear
    cases hfar
    exact ih hscripted near' w' hlater

end

/-- **A remote calculator that answers as the one at hand can take its place.** For every text its
outcome mirrors that of the calculator at hand, and one request is sent, for the text without the
blanks around it, or none at all for blanks. For all keys, a keypad that calculates by it goes through
the same states, and one request is sent for every `=` on an expression that is not empty. The
server behind the address is any one in the same environment, on a machine of its own; what is known
of it is how it responds to the requests that are put on the wire. -/
theorem remote_mirrors_local {library : Remote.Library} (hlibrary : library.Lawful)
    {environment : Settings.Environment} {settings : Settings}
    (hsettings : Settings.ofEnvironment environment = .ok settings) (stack : Evaluator.Stack)
    (client : Client) :
    (∀ (text : String) (near w : Surroundings),
      w.wire.Serves library environment (client.baseUrl ++ "/calc") (requested text) →
        Mirrors text ((Calculator.localService (settings.limits stack) text).run near).1
            ((client.service library text).run w).1 ∧
          ((client.service library text).run w).2.wire.sent =
            w.wire.sent ++ client.requests (requested text)) ∧
    ∀ (maxDigits : Int) (id : String) (keys : List Key) (near w : Surroundings),
      w.wire.Serves library environment (client.baseUrl ++ "/calc")
          (queries maxDigits (.blank id) keys) →
        ∀ ks, ks <+: keys → ∃ s,
          ((pressAll (Calculator.localService (settings.limits stack)) maxDigits (.blank id)
            ks).run near).1 = .ok s ∧
          ((pressAll (client.service library) maxDigits (.blank id) ks).run w).1 = .ok s ∧
          ((pressAll (client.service library) maxDigits (.blank id) ks).run w).2.wire.sent =
            w.wire.sent ++ client.requests (queries maxDigits (.blank id) ks) := by
  constructor
  · intro text near w hserves
    obtain ⟨hmirrors, hwire⟩ :=
      Remote.service_mirrors hlibrary hsettings stack client text near w hserves
    rw [hwire]
    exact ⟨hmirrors, rfl⟩
  · rintro maxDigits id keys near w hserves ks ⟨more, rfl⟩
    -- what the first keys ask is among what all of them ask
    rw [queries_append] at hserves
    obtain ⟨s, hnear, hfar, hwire⟩ := pressAll_mirrors hlibrary hsettings stack
      (State.scripted_blank id) maxDigits ks near w
      (hserves.mono (List.subset_append_left _ _))
    rw [hwire]
    exact ⟨s, hnear, hfar, rfl⟩

/-- A request to a server for the value of `7+8`. -/
def askingForSum : Http.Request :=
  { method := "GET", path := "/calc", query := "query=7%2B8" }

/-- What the wire brings in answer to it. -/
def bodyOfSum : ByteArray :=
  "\x7b\"expression\":\"7+8\",\"result\":15,\"display\":\"15\"\x7d".toUTF8

/-- A wire behind which a server replies to requests for `7+8`, and to no other. -/
def wireOfSum : Wire where
  reply _ request :=
    if request.url = "http://calc/calc" ∧ request.query = "7+8" then .delivered 200 bodyOfSum
    else .lost "no route"

/-- The reply on that wire is the one of a server in an environment in which nothing is set. -/
theorem answersFor_sum :
    Remote.Reply.AnswersFor .usual [] "7+8" (.delivered 200 bodyOfSum) := by
  have hsettings : Settings.ofEnvironment [] = .ok {} := by decide +kernel
  have hvalue : Calculator.evaluate (({} : Settings).limits .usual) "7+8" =
      .ok ⟨"7+8", .int 15, "15"⟩ := eq_ok_of_toOption (by decide +kernel)
  -- the request is for the route of the calculator, with the sum as its query
  have hroute : Http.Resolution.of "GET" "/calc" = .found .calculate := by decide +kernel
  have hquery : Http.Usual.queryOf askingForSum = .given "7+8" :=
    Http.Input.eq_given (by decide +kernel)
  have hcall : (Http.Server.mk .usual [] [] {} {}).call askingForSum =
      .calculate (.given "7+8") := by
    rw [Http.call_of_found rfl (by decide +kernel) hroute, Http.Usual.callOf, hquery]
  obtain ⟨hstatus, hjson⟩ :=
    (Http.Server.mk .usual [] [] {} {}).handle_answer hsettings hcall hvalue (by decide +kernel)
  have hdecode : Json.Encoding.decode? bodyOfSum =
      some ("\x7b\"expression\":\"7+8\",\"result\":15,\"display\":\"15\"\x7d".toList.map
        .char) := by decide +kernel
  have hbody : Json.ofBytes Remote.Library.usual.nesting bodyOfSum =
      .ok (Answer.raw ⟨"7+8", .int 15, "15"⟩).toJson := by
    rw [Json.ofBytes, hdecode]
    rfl
  rw [← hstatus]
  exact .delivered _ askingForSum bodyOfSum _ rfl hcall hjson hbody

/-- A keypad asks a server for the value of `7+8` once, and shows the fifteen that it answers. -/
theorem remote_mirrors_local_sum :
    ∃ s, ((pressAll (Client.service .usual ⟨"http://calc", 5.0⟩) 15 (.blank "s")
        [.seven, .add, .eight, .equals]).run { wire := wireOfSum }).1 = .ok s ∧
      s.answer = "= 15" ∧
      ((pressAll (Client.service .usual ⟨"http://calc", 5.0⟩) 15 (.blank "s")
        [.seven, .add, .eight, .equals]).run { wire := wireOfSum }).2.wire.sent =
          [⟨"http://calc/calc", "7+8", 5.0⟩] := by
  have hsettings : Settings.ofEnvironment [] = .ok {} := by decide +kernel
  have hqueries : queries 15 (.blank "s") [.seven, .add, .eight, .equals] = ["7+8"] := by
    decide +kernel
  have hnear : ((pressAll (Calculator.localService (({} : Settings).limits .usual)) 15 (.blank "s")
      [.seven, .add, .eight, .equals]).run {}).1 = .ok ⟨"s", "7+8", "7+8", "= 15", false⟩ :=
    eq_ok_of_toOption (by decide +kernel)
  have hserves : wireOfSum.Serves .usual [] ("http://calc" ++ "/calc")
      (queries 15 (.blank "s") [.seven, .add, .eight, .equals]) := by
    rw [hqueries]
    -- the only request is the sum, and its reply does not depend on those before
    intro before request hurl hquery
    have hquery : request.query = "7+8" := List.mem_singleton.1 hquery
    have hsame : "http://calc" ++ "/calc" = "http://calc/calc" := by decide
    have hreply : wireOfSum.reply before request = .delivered 200 bodyOfSum :=
      if_pos ⟨hurl.trans hsame, hquery⟩
    rw [hreply, hquery]
    exact answersFor_sum
  obtain ⟨s, hs, hfar, hsent⟩ :=
    (remote_mirrors_local Remote.Library.lawful_usual hsettings .usual ⟨"http://calc", 5.0⟩).2 15
      "s" [.seven, .add, .eight, .equals] {} { wire := wireOfSum } hserves _ (List.prefix_refl _)
  rw [hnear] at hs
  cases hs
  rw [hqueries] at hsent
  exact ⟨_, hfar, rfl, hsent⟩

end KeypadCalc.Keypad

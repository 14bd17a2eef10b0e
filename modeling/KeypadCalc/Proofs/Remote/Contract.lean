import KeypadCalc.Proofs.Keypad.Run
import KeypadCalc.Proofs.Remote.Service

/-!
# KeypadCalc — the contract of a calculator, kept from afar

A calculator answers or refuses. A remote one can break down in another way, and the replies that
make it do so are told exactly. A reply fails (`Reply.Fails`) if nothing arrives, if the status is
not that of success, or if the body is no JSON; it fits (`Reply.Fits`) if it brings with success
what the library takes for an answer. A request that could not be made, JSON that is no answer, and a
body nested deeper than the library can read, do neither.

* **`contract_kept_iff`** — a client answers or refuses exactly if the text is blank, or the reply to
  its request fails or fits. A press ends in a state exactly then, or if it asks nothing, and after a
  failure the state shows an error.
-/

namespace KeypadCalc

/-- A calculator has kept to its contract: it has answered or refused. -/
def Outcome.Kept (outcome : Outcome) : Prop :=
  (∃ a, outcome = .ok a) ∨ ∃ error, outcome = .error (.refused error)

namespace Remote

/-! ## Replies -/

/-- A reply by which a remote calculator has failed: nothing arrived, the body is no JSON, or the
status is not that of success. -/
inductive Reply.Fails (library : Library) : Reply → Prop where
  | lost (reason : String) : Fails library (.lost reason)
  | notJson {status : Nat} {body : ByteArray} {rest : List Text.Point}
      (hbody : Json.ofBytes library.nesting body = .error (.malformed rest)) :
      Fails library (.delivered status body)
  | refused {status : Nat} {body : ByteArray} {json : Json}
      (hbody : Json.ofBytes library.nesting body = .ok json) (hstatus : status ≠ 200) :
      Fails library (.delivered status body)

/-- A reply that brings an answer. -/
inductive Reply.Fits (library : Library) : Reply → Prop where
  | answer {body : ByteArray} {json : Json} {a : RawAnswer}
      (hbody : Json.ofBytes library.nesting body = .ok json)
      (hanswer : library.validate json = .ok a) : Fits library (.delivered 200 body)

variable {library : Library} {reply : Reply}

/-- A failure is reported as one. -/
theorem Reply.Fails.outcome_eq (h : reply.Fails library) :
    ∃ error, reply.outcome library = .error (.refused error) := by
  cases h with
  | lost reason => exact ⟨_, rfl⟩
  | @notJson status body rest hbody =>
    refine ⟨.remote (if status = 200 then .notJson else .refused status none .null), ?_⟩
    rw [Reply.outcome, hbody]
    rfl
  | @refused status body json hbody hstatus =>
    refine ⟨.remote (refusal status json), ?_⟩
    rw [Reply.outcome, hbody]
    simp only [interpret, if_neg hstatus]

theorem Reply.Fits.outcome_eq (h : reply.Fits library) :
    ∃ a, reply.outcome library = .ok a := by
  cases h with
  | @answer body json a hbody hanswer =>
    refine ⟨a, ?_⟩
    rw [Reply.outcome, hbody, interpret, if_pos rfl, hanswer]
    rfl

theorem kept_error_iff {breakdown : Breakdown} :
    Outcome.Kept (.error breakdown) ↔ ∃ error, breakdown = .refused error := by
  constructor
  · rintro (⟨a, h⟩ | ⟨error, h⟩)
    · cases h
    · exact ⟨error, Except.error.inj h⟩
  · rintro ⟨error, rfl⟩
    exact .inr ⟨error, rfl⟩

/-- **A reply keeps the contract exactly if it fails or fits.** -/
theorem Reply.kept_iff (library : Library) (reply : Reply) :
    (reply.outcome library).Kept ↔ reply.Fails library ∨ reply.Fits library := by
  constructor
  · intro h
    cases reply with
    | lost reason => exact .inl (.lost reason)
    | unmade =>
      obtain ⟨error, herror⟩ := kept_error_iff.1 h
      cases herror
    | delivered status body =>
      rw [Reply.outcome] at h
      cases hbody : Json.ofBytes library.nesting body with
      | error fault =>
        cases fault with
        | malformed rest => exact .inl (.notJson hbody)
        | tooDeep =>
          rw [hbody] at h
          obtain ⟨error, herror⟩ := kept_error_iff.1 h
          cases herror
      | ok json =>
        by_cases hstatus : status = 200
        · subst hstatus
          rw [hbody, interpret, if_pos rfl] at h
          -- what is read with success is an answer, or else at fault for its fields
          cases hanswer : library.validate json with
          | ok a => exact .inr (.answer hbody hanswer)
          | error issues =>
            rw [hanswer] at h
            obtain ⟨error, herror⟩ := kept_error_iff.1 h
            cases herror
        · exact .inl (.refused hbody hstatus)
  · rintro (hfails | hfits)
    · exact .inr hfails.outcome_eq
    · exact .inl hfits.outcome_eq

/-! ## Clients -/

/-- What the wire replies to the request that a client sends for a text. -/
def Client.replyTo (client : Client) (text : String) (w : Wire) : Reply :=
  w.reply w.sent ⟨client.baseUrl ++ "/calc", Text.trim text, client.timeout⟩

/-- A client that is asked about blanks refuses by itself; about anything else it has the outcome of
the reply. -/
theorem service_outcome (library : Library) (client : Client) (text : String) (w : Surroundings) :
    ((client.service library text).run w).1 =
      if (Text.trim text).isEmpty then .error (.refused .emptyExpression)
      else (client.replyTo text w.wire).outcome library := by
  rw [(service_run library client text w).1, Client.attempt]
  split
  · rfl
  · rfl

theorem service_kept_iff (library : Library) (client : Client) (text : String) (w : Surroundings) :
    ((client.service library text).run w).1.Kept ↔
      (Text.trim text).isEmpty = true ∨ (client.replyTo text w.wire).Fails library ∨
        (client.replyTo text w.wire).Fits library := by
  rw [service_outcome]
  split
  · next hblank => exact iff_of_true (.inr ⟨_, rfl⟩) (.inl hblank)
  · next htext => simp [htext, Reply.kept_iff]

end Remote

namespace Keypad

open Remote (Client)

/-! ## Keypads -/

theorem exists_shownFor_iff {outcome : Outcome} :
    (∃ answer, shownFor outcome = .ok answer) ↔ outcome.Kept := by
  constructor
  · rintro ⟨answer, h⟩
    match outcome, h with
    | .ok a, _ => exact .inl ⟨a, rfl⟩
    | .error (.refused error), _ => exact .inr ⟨error, rfl⟩
  · rintro (⟨a, rfl⟩ | ⟨error, rfl⟩)
    · exact ⟨_, rfl⟩
    · exact ⟨_, rfl⟩

/-- What `=` leads to is shown by the outcome for the closed expression, which is asked for on the
wire as it is. -/
theorem press_run_equals_of_service (service : Calculator.Service) (maxDigits : Int) (s : State)
    (w : Surroundings) :
    ∃ before : Surroundings, before.wire = w.wire ∧
      ((press service maxDigits s .equals).run w).1 =
        (shownFor ((service s.closeRoot.expression).run before).1).map fun answer =>
          { s.closeRoot with answer } := by
  obtain ⟨before, hwire, hshown, -⟩ := answerFor_of_service service s.closeRoot.expression w
  refine ⟨before, hwire, ?_⟩
  rw [press_run_equals, hshown]

/-- A press of `=` ends in a state exactly if the calculator keeps to its contract. -/
theorem exists_press_equals_iff {service : Calculator.Service} {maxDigits : Int} {s : State}
    {w before : Surroundings}
    (h : ((press service maxDigits s .equals).run w).1 =
      (shownFor ((service s.closeRoot.expression).run before).1).map fun answer =>
        { s.closeRoot with answer }) :
    (∃ t, ((press service maxDigits s .equals).run w).1 = .ok t) ↔
      ((service s.closeRoot.expression).run before).1.Kept := by
  rw [h, ← exists_shownFor_iff]
  constructor
  · rintro ⟨t, ht⟩
    obtain ⟨answer, hanswer, -⟩ := map_eq_ok_iff.1 ht
    exact ⟨answer, hanswer⟩
  · rintro ⟨answer, hanswer⟩
    exact ⟨_, map_eq_ok_iff.2 ⟨answer, hanswer, rfl⟩⟩

/-- **A remote calculator keeps to the contract exactly if the reply to its request fails or fits.**
Then a press of `=` ends in a state, which shows an error after a failure; any other key asks
nothing. -/
theorem contract_kept_iff (library : Remote.Library) (client : Client) :
    (∀ (text : String) (w : Surroundings), ((client.service library text).run w).1.Kept ↔
      (Text.trim text).isEmpty = true ∨ (client.replyTo text w.wire).Fails library ∨
        (client.replyTo text w.wire).Fits library) ∧
    ∀ (maxDigits : Int) (s : State) (k : Key) (w : Surroundings),
      ((∃ t, ((press (client.service library) maxDigits s k).run w).1 = .ok t) ↔
        k ≠ .equals ∨ (Text.trim s.closeRoot.expression).isEmpty = true ∨
          (client.replyTo s.closeRoot.expression w.wire).Fails library ∨
          (client.replyTo s.closeRoot.expression w.wire).Fits library) ∧
      ((client.replyTo s.closeRoot.expression w.wire).Fails library →
        ((press (client.service library) maxDigits s .equals).run w).1 =
          .ok { s.closeRoot with answer := errorAnswer }) := by
  refine ⟨Remote.service_kept_iff library client, fun maxDigits s k w => ⟨?_, fun hfails => ?_⟩⟩
  · -- only `=` asks the service; every other key succeeds by itself
    by_cases hk : k = .equals
    · subst hk
      obtain ⟨before, hwire, hpress⟩ :=
        press_run_equals_of_service (client.service library) maxDigits s w
      rw [exists_press_equals_iff hpress, Remote.service_kept_iff, hwire]
      simp
    · rw [press_run_of_ne hk]
      exact iff_of_true ⟨_, rfl⟩ (.inl hk)
  · obtain ⟨before, hwire, hpress⟩ :=
      press_run_equals_of_service (client.service library) maxDigits s w
    -- a reply that fails is refused, and a refusal is an error on the display
    have hrefused : ∃ error, ((client.service library s.closeRoot.expression).run before).1 =
        .error (.refused error) := by
      rw [Remote.service_outcome, hwire]
      split
      · exact ⟨_, rfl⟩
      · exact hfails.outcome_eq
    obtain ⟨error, herror⟩ := hrefused
    rw [hpress, herror]
    rfl

/-- A calculator out of reach leaves an error on the display. -/
theorem press_of_lost_reply :
    ((press (Client.service .usual ⟨"http://remote.test", 5.0⟩) 15 ⟨"s", "7", "7", "", false⟩
      .equals).run { wire := .ofReplies [.lost "simulated"] }).1 =
        .ok ⟨"s", "7", "7", "= Error", false⟩ :=
  ((contract_kept_iff .usual ⟨"http://remote.test", 5.0⟩).2 15 ⟨"s", "7", "7", "", false⟩ .equals
    { wire := .ofReplies [.lost "simulated"] }).2 (.lost "simulated")

/-- A reply that is JSON but no answer breaks the contract, and the press that asked for it ends in
no state. -/
theorem contract_broken_by_null :
    ¬ (((Client.service .usual ⟨"http://remote.test", 5.0⟩) "7").run
        { wire := .ofReplies [.delivered 200 "null".toUTF8] }).1.Kept ∧
      ¬ ∃ t, ((press (Client.service .usual ⟨"http://remote.test", 5.0⟩) 15
        ⟨"s", "7", "7", "", false⟩ .equals).run
          { wire := .ofReplies [.delivered 200 "null".toUTF8] }).1 = .ok t := by
  have hdecode : Json.Encoding.decode? "null".toUTF8 = some ("null".toList.map .char) := by
    decide +kernel
  have hbody : Json.ofBytes Remote.Library.usual.nesting "null".toUTF8 = .ok .null := by
    rw [Json.ofBytes, hdecode]
    rfl
  -- in any surroundings with this wire: null is JSON, and no answer
  have hbroken : ∀ w : Surroundings, w.wire = .ofReplies [.delivered 200 "null".toUTF8] →
      ¬ ((Client.service .usual ⟨"http://remote.test", 5.0⟩ "7").run w).1.Kept := by
    intro w hwire
    have hreply : Client.replyTo ⟨"http://remote.test", 5.0⟩ "7" w.wire =
        .delivered 200 "null".toUTF8 := by
      rw [hwire]
      rfl
    rw [Remote.service_outcome, if_neg (by decide +kernel), hreply, Remote.Reply.outcome, hbody]
    intro hkept
    obtain ⟨error, herror⟩ := Remote.kept_error_iff.1 hkept
    cases herror
  refine ⟨hbroken _ rfl, ?_⟩
  obtain ⟨before, hwire, hpress⟩ :=
    press_run_equals_of_service (Client.service .usual ⟨"http://remote.test", 5.0⟩) 15
      ⟨"s", "7", "7", "", false⟩ { wire := .ofReplies [.delivered 200 "null".toUTF8] }
  rw [exists_press_equals_iff hpress]
  exact hbroken before hwire

end Keypad

end KeypadCalc

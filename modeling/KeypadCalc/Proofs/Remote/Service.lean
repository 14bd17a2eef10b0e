import KeypadCalc.Proofs.Remote.Reply

/-!
# KeypadCalc — a remote calculator in place of the one at hand

A client never asks about blanks, and it asks about any other text once, without the blanks around
it (`requested`). Where a server answers behind the address that it asks at (`Wire.Serves`), its
outcome mirrors that of the calculator at hand (`service_mirrors`).
-/

namespace KeypadCalc.Remote

/-- The texts that a client asks about for the sake of a text. -/
def requested (text : String) : List String :=
  if (Text.trim text).isEmpty then [] else [Text.trim text]

/-- What a client sends to ask about texts: each is the query of a request of its own, for the route
of the calculator at the address of the client. -/
def Client.requests (client : Client) (texts : List String) : List Request :=
  texts.map fun text => ⟨client.baseUrl ++ "/calc", text, client.timeout⟩

namespace Wire

/-- Behind an address a server answers: to every request there, whatever has been sent before, it
replies for the text in the query. Nothing is known about other addresses, nor about texts that are
not among those given. -/
def Serves (library : Library) (environment : Settings.Environment) (url : String)
    (texts : List String) (w : Wire) : Prop :=
  ∀ (before : List Request) (request : Request), request.url = url → request.query ∈ texts →
    (w.reply before request).AnswersFor library environment request.query

/-- A wire after requests, which change nothing about how it replies. -/
def after (requests : List Request) (w : Wire) : Wire :=
  { w with sent := w.sent ++ requests }

variable {library : Library} {environment : Settings.Environment} {url : String}
  {texts more : List String} {w : Wire}

theorem after_nil (w : Wire) : w.after [] = w := by
  rw [after, List.append_nil]

theorem after_append (requests later : List Request) (w : Wire) :
    w.after (requests ++ later) = (w.after requests).after later := by
  simp only [after, List.append_assoc]

theorem Serves.after (h : w.Serves library environment url texts) (requests : List Request) :
    (w.after requests).Serves library environment url texts :=
  h

theorem Serves.mono (h : w.Serves library environment url texts) (hsub : more ⊆ texts) :
    w.Serves library environment url more :=
  fun before request hurl hquery => h before request hurl (hsub hquery)

end Wire

/-- What a client leaves of the wire, and the outcome, for a text. -/
theorem service_run (library : Library) (client : Client) (text : String) (w : Surroundings) :
    ((client.service library text).run w).1 = (client.attempt text w.wire).1.outcome library ∧
      ((client.service library text).run w).2.wire = (client.attempt text w.wire).2 := by
  have hattempt : (modifyGet fun w : Surroundings =>
      ((client.attempt text w.wire).1, { w with wire := (client.attempt text w.wire).2 }) :
        Work Attempt).run w =
      ((client.attempt text w.wire).1, { w with wire := (client.attempt text w.wire).2 }) := rfl
  unfold Client.service
  rw [run_bind, hattempt]
  dsimp only
  generalize client.attempt text w.wire = result
  obtain ⟨attempt, wire⟩ := result
  -- only a lost reply is noted, which leaves the wire alone
  match attempt with
  | .refused => exact ⟨rfl, rfl⟩
  | .answered (.delivered status body) => exact ⟨rfl, rfl⟩
  | .answered .unmade => exact ⟨rfl, rfl⟩
  | .answered (.lost reason) => exact ⟨rfl, Surroundings.note_wire _ _⟩

/-- **The outcome of a remote calculator that is served mirrors that of the one at hand**, and what
the text requests is sent. -/
theorem service_mirrors {library : Library} (hlibrary : library.Lawful)
    {environment : Settings.Environment} {settings : Settings}
    (hsettings : Settings.ofEnvironment environment = .ok settings) (stack : Evaluator.Stack)
    (client : Client) (text : String) (near w : Surroundings)
    (hserves : w.wire.Serves library environment (client.baseUrl ++ "/calc") (requested text)) :
    Mirrors text ((Calculator.localService (settings.limits stack) text).run near).1
        ((client.service library text).run w).1 ∧
      ((client.service library text).run w).2.wire =
        w.wire.after (client.requests (requested text)) := by
  obtain ⟨houtcome, hwire⟩ := service_run library client text w
  rw [houtcome, hwire, Calculator.localService_run]
  cases hblank : (Text.trim text).isEmpty with
  | true =>
    have hnone : requested text = [] := by
      rw [requested, if_pos hblank]
    rw [hnone, Client.attempt, if_pos hblank, Calculator.evaluate_of_blank hblank]
    exact ⟨.blank hblank, (Wire.after_nil _).symm⟩
  | false =>
    have hone : requested text = [Text.trim text] := by
      rw [requested, if_neg (Bool.eq_false_iff.1 hblank)]
    rw [hone] at hserves ⊢
    rw [Client.attempt, if_neg (Bool.eq_false_iff.1 hblank)]
    -- the request that the client sends is one that is served
    have hreply := hserves w.wire.sent (client.request (Text.trim text)) rfl List.mem_cons_self
    exact ⟨mirrors_of_answersFor hlibrary hsettings stack hblank hreply, rfl⟩

end KeypadCalc.Remote

import KeypadCalc.Http.Usual
import KeypadCalc.Proofs.Http.Frame
import KeypadCalc.Proofs.Text.Ending

/-!
# KeypadCalc — requests on the usual platform

What requests are for in the framework of `Platform.usual`. A request with the path of a route, and
its method, is for that route (`call_of_found`); so the requests of a session, whose path holds its
id, are for that session, and a press whose body names a key is given the key (`calls_own`).
-/

namespace KeypadCalc.Http

/-! ## Routes -/

/-- A route is found by its own method. -/
theorem method_of_found {method path : String} {route : Route}
    (h : Resolution.of method path = .found route) : route.method = method := by
  unfold Resolution.of at h
  split at h
  · split at h
    · next hfind =>
      cases h
      simpa using List.find?_some hfind
    · cases h
  · dsimp only at h
    split at h <;> cases h

/-- No route takes the method of a preflight. -/
theorem preflight?_of_found {request : Request} {route : Route}
    (h : Resolution.of request.method request.path = .found route) (origins : List String) :
    Cors.preflight? origins request = none := by
  have hoptions : ¬ request.method = "OPTIONS" := by
    rw [← method_of_found h]
    cases route <;> simp [Route.method]
  unfold Cors.preflight?
  cases request.headers.get? "origin" with
  | none => rfl
  | some origin =>
    cases request.headers.get? "access-control-request-method" with
    | none => rfl
    | some method => simp [hoptions]

/-- A request that finds a route is for it, if its address can be taken apart. -/
theorem call_of_found {server : Server} (hplatform : server.platform = .usual) {request : Request}
    {route : Route} (hpath : (Usual.path? request).isSome = true)
    (h : Resolution.of request.method request.path = .found route) :
    server.call request = Usual.callOf Remote.Library.usual.nesting request route := by
  obtain ⟨path, hpath⟩ := Option.isSome_iff_exists.1 hpath
  have hread : server.platform.framework.path? request = some path := by
    rw [hplatform]
    exact hpath
  rw [Server.call, hread, hplatform]
  show Usual.call Remote.Library.usual.nesting server.origins request = _
  rw [Usual.call, preflight?_of_found h, h]

/-! ## The paths of a session -/

/-- What can stand for a session in a path. -/
def IsSessionId (id : String) : Prop :=
  id ≠ "" ∧ '/' ∉ id.toList

/-- A path is not the expected one if the two differ in their second characters. -/
theorem not_isPath {expected : String} {cs : List Char} (h : cs[1]? ≠ expected.toList[1]?)
    (hlen : 1 < expected.toList.length) : Route.isPath expected cs = false := by
  have happend : (expected.toList ++ ['\n'])[1]? = expected.toList[1]? :=
    List.getElem?_append_left hlen
  have hne : cs ≠ expected.toList := by
    rintro rfl
    exact h rfl
  have hne' : cs ≠ expected.toList ++ ['\n'] := by
    rintro rfl
    exact h happend
  simp [Route.isPath, hne, hne']

/-- The id in a path ends where a slash stands, or with the path. -/
theorem keypadPath?_append {id : String} (hid : IsSessionId id) {rest : List Char}
    (hrest : rest = [] ∨ ∃ tail, rest = '/' :: tail) :
    Route.keypadPath? (Route.keypads ++ (id.toList ++ rest)) = some (id, rest) := by
  -- the id ends at the first slash, and it has none of its own
  have hchars := Text.bne_of_not_mem hid.2
  have hends : Text.Ends (· != '/') rest := by
    rcases hrest with rfl | ⟨tail, rfl⟩
    · exact Text.ends_nil _
    · exact Text.ends_bne_cons '/' tail
  have hne : id.toList ≠ [] := fun h => hid.1 (String.toList_eq_nil_iff.1 h)
  unfold Route.keypadPath?
  rw [if_pos (by simp), List.drop_left]
  dsimp only
  rw [Text.takeWhile_of_ends hchars hends, Text.dropWhile_of_ends hchars hends]
  cases hcs : id.toList with
  | nil => exact absurd hcs hne
  | cons c cs =>
    show some (String.ofList (c :: cs), rest) = _
    rw [← hcs, String.ofList_toList]

/-- The routes on a path that starts as those of keypads do are told by its id. -/
theorem onPath_keypad {path id : String} (rest : List Char)
    (hpath : path.toList = Route.keypads ++ (id.toList ++ rest)) (hid : IsSessionId id)
    (hrest : rest = [] ∨ ∃ tail, rest = '/' :: tail) :
    Route.onPath path =
      if rest.isEmpty then [.keypadState id, .keypadReset id]
      else if Route.isPath "/press" rest then [.keypadPress id] else [] := by
  -- the second character tells the paths of keypads from the others
  have hk : (Route.keypads ++ (id.toList ++ rest))[1]? = some 'k' := by
    have hkeypads : Route.keypads = ['/', 'k', 'e', 'y', 'p', 'a', 'd', '/'] := by decide
    simp [hkeypads]
  have hcalc : Route.isPath "/calc" (Route.keypads ++ (id.toList ++ rest)) = false := by
    refine not_isPath ?_ (by decide)
    rw [hk]
    decide
  have hhealth : Route.isPath "/health" (Route.keypads ++ (id.toList ++ rest)) = false := by
    refine not_isPath ?_ (by decide)
    rw [hk]
    decide
  unfold Route.onPath
  rw [hpath, hcalc, hhealth, keypadPath?_append hid hrest]
  cases rest <;> rfl

/-! ## The requests of a session -/

/-- What is given, if anything is. -/
def Input.value? {α : Type} : Input α → Option α
  | .given a => some a
  | _ => none

theorem Input.eq_given {α : Type} {input : Input α} {a : α} (h : input.value? = some a) :
    input = .given a := by
  cases input with
  | given b => rw [Option.some.inj h]
  | _ => cases h

/-- A body that names a key by a label. -/
def bodyNaming (label : String) : ByteArray :=
  ("\x7b\"key\":\"" ++ label ++ "\"\x7d").toUTF8

/-- A request to press the key with a label in a session. -/
def Request.pressing (id label : String) : Request where
  method := "POST"
  path := "/keypad/" ++ id ++ "/press"
  body := bodyNaming label

/-- A request to read a session. -/
def Request.reading (id : String) : Request where
  method := "GET"
  path := "/keypad/" ++ id

/-- A request to reset a session. -/
def Request.resetting (id : String) : Request where
  method := "DELETE"
  path := "/keypad/" ++ id

/-- Without a header for the host nothing stands in front of a path, which cannot break its
address. -/
theorem isSome_path? {request : Request} {rest : List Char}
    (hhost : request.headers.get? "host" = none) (hpath : request.path.toList = '/' :: rest) :
    (Usual.path? request).isSome = true := by
  have haddress : ∃ behind, Usual.address request = '/' :: behind := by
    unfold Usual.address
    dsimp only
    rw [hhost, Option.getD_none, String.toList_append, hpath]
    exact ⟨_, rfl⟩
  obtain ⟨behind, haddress⟩ := haddress
  unfold Usual.path?
  rw [haddress]
  rfl

/-- A body that names a key by its label is taken for the key. -/
theorem keyOf_label (id : String) (k : Keypad.Key) :
    Usual.keyOf Remote.Library.usual.nesting (.pressing id k.label) = .given k := by
  have hvalue : (Usual.keyOf Remote.Library.usual.nesting (.pressing "" k.label)).value? =
      some k := by
    cases k <;> decide +kernel
  exact Input.eq_given hvalue

/-- The requests of a session are for it. -/
theorem calls_own {server : Server} (hplatform : server.platform = .usual) {id : String}
    (hid : IsSessionId id) (k : Keypad.Key) :
    server.call (.reading id) = .keypadState id ∧ server.call (.resetting id) = .keypadReset id ∧
      server.call (.pressing id k.label) = .keypadPress id (.given k) := by
  have hkeypads (rest : List Char) :
      Route.keypads ++ rest = '/' :: ("keypad/".toList ++ rest) := rfl
  have hpath : ("/keypad/" ++ id).toList = Route.keypads ++ (id.toList ++ []) := by
    rw [String.toList_append, List.append_nil]
    rfl
  have hlonger : ("/keypad/" ++ id ++ "/press").toList =
      Route.keypads ++ (id.toList ++ "/press".toList) := by
    rw [String.toList_append, String.toList_append, List.append_assoc]
    rfl
  -- the routes on the two paths, then the method that chooses among them
  have hown : Route.onPath ("/keypad/" ++ id) = [.keypadState id, .keypadReset id] :=
    onPath_keypad [] hpath hid (.inl rfl)
  have hpress : Route.onPath ("/keypad/" ++ id ++ "/press") = [.keypadPress id] :=
    onPath_keypad "/press".toList hlonger hid (.inr ⟨"press".toList, rfl⟩)
  have hreading : (Usual.path? (.reading id)).isSome = true :=
    isSome_path? rfl (hpath.trans (hkeypads _))
  have hresetting : (Usual.path? (.resetting id)).isSome = true :=
    isSome_path? rfl (hpath.trans (hkeypads _))
  have hpressing : (Usual.path? (.pressing id k.label)).isSome = true :=
    isSome_path? rfl (hlonger.trans (hkeypads _))
  have hread : Resolution.of "GET" ("/keypad/" ++ id) = .found (.keypadState id) := by
    rw [Resolution.of, hown]
    rfl
  have hreset : Resolution.of "DELETE" ("/keypad/" ++ id) = .found (.keypadReset id) := by
    rw [Resolution.of, hown]
    rfl
  have hpressed : Resolution.of "POST" ("/keypad/" ++ id ++ "/press") =
      .found (.keypadPress id) := by
    rw [Resolution.of, hpress]
    rfl
  refine ⟨call_of_found hplatform hreading hread, call_of_found hplatform hresetting hreset, ?_⟩
  rw [call_of_found hplatform hpressing hpressed, Usual.callOf, keyOf_label]

end KeypadCalc.Http

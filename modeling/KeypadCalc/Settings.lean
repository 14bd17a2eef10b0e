import KeypadCalc.Json.Reader
import KeypadCalc.Remote

/-!
# KeypadCalc — settings

Every setting has a default, which an environment variable of the same name replaces, and a value
given directly replaces both. The case of the name of a variable does not count. The values are
checked in the order of the settings, and all issues are reported together; only the list of
origins, which a variable writes in JSON, is refused at once where it is not JSON.

`resolvedOrigins` is the list of origins that browsers may call from: those of the list and then
the one of the front end, without the slashes at their ends, each once. An origin that is empty
is passed over.
-/

namespace KeypadCalc

/-- What the program can be told, with the values that it goes by otherwise. -/
structure Settings where
  apiTitle : String := "Keypad Calculator API"
  apiVersion : String := "0.1.0"
  logLevel : String := "INFO"
  /-- Whether keypads calculate here or by a remote calculator, which is chosen by `http`. -/
  toolMode : String := "local"
  remoteBaseUrl : Option String := none
  /-- The seconds that a remote calculator is waited for. -/
  remoteTimeout : Float := 5.0
  maxExpressionLength : Int := 1000
  maxNestingDepth : Int := 100
  keypadMaxDigits : Int := 15
  corsOrigins : List String := ["http://localhost:5173", "http://127.0.0.1:5173"]
  frontendOrigin : Option String := none
  deriving DecidableEq

namespace Settings

/-- The variables of an environment, in the order in which they were set. -/
abbrev Environment := List (String × String)

/-- Why there are no settings. -/
inductive Fault where
  /-- The variable with the list of origins is not JSON. -/
  | originsNotJson
  | invalid (issues : List Issue)
  deriving DecidableEq, Repr

/-- A name in lower case: variables are found whatever the case they are written in. -/
def lowerName (s : String) : String :=
  String.ofList (s.toList.map Char.toLower)

/-- The value of a variable; of names that differ in case alone, the one set last counts. -/
def valueIn? (env : Environment) (name : String) : Option String :=
  (env.reverse.find? fun v => lowerName v.1 == name).map (·.2)

/-- The variables that are read, in the order of the settings. -/
def variableNames : List String :=
  ["API_TITLE", "API_VERSION", "LOG_LEVEL", "CALC_TOOL_MODE", "CALC_HTTP_BASE_URL",
   "CALC_HTTP_TIMEOUT_SEC", "MAX_EXPRESSION_LENGTH", "MAX_NESTING_DEPTH", "KEYPAD_MAX_DIGITS",
   "CORS_ORIGINS", "FRONTEND_ORIGIN"]

/-- What is set: values given directly, and the environment. -/
structure Sources where
  given : List (String × Json) := []
  environment : Environment := []

/-- The value of a setting that a variable writes as plain text. -/
def Sources.value? (sources : Sources) (name : String) : Option Json :=
  (sources.given.lookup name).orElse fun _ => (valueIn? sources.environment name).map (.string ·)

/-- A setting, checked where it is set. -/
def Sources.read {α : Type} (sources : Sources) (name : String) (default : α)
    (check : String → Json → Checked α) : Checked α :=
  match sources.value? name with
  | some value => check name value
  | none => .ok default

/-- A setting that is an integer within bounds. -/
def Sources.readInt (sources : Sources) (name : String) (default least : Int)
    (greatest : Option Int) : Checked Int :=
  sources.read name default fun name value =>
    (Issue.checkInt name value).bind (Issue.checkBounds name least greatest)

/-- The items of a list of texts, from the one with a given index on. -/
def checkStrings (name : String) (index : Nat) : List Json → Checked (List String)
  | [] => .ok []
  | item :: rest =>
    let head : Checked String := match item with
      | .string s => .ok s.shown
      | _ => .error [⟨.stringType, [.field name, .index index]⟩]
    (Checked.both head (checkStrings name (index + 1) rest)).map fun (s, ss) => s :: ss

/-- A setting that is a list of texts. -/
def checkStringList (name : String) : Json → Checked (List String)
  | .array items => checkStrings name 0 items
  | _ => .error (Issue.inField .listType name)

/-- The list of origins that a variable writes in JSON; null is as good as none. -/
def originsVariable (env : Environment) : Except Fault (Option Json) :=
  match valueIn? env "cors_origins" with
  | none => .ok none
  | some text =>
    -- a text cannot be nested deeper than it is long
    match Json.ofText text.length text with
    | .error _ => .error .originsNotJson
    | .ok .null => .ok none
    | .ok value => .ok (some value)

/-- The list of origins, given directly or by a variable. -/
def checkOrigins (sources : Sources) (fromVariable : Option Json) (default : List String) :
    Checked (List String) :=
  match (sources.given.lookup "cors_origins").orElse fun _ => fromVariable with
  | some value => checkStringList "cors_origins" value
  | none => .ok default

/-- The name of the setting for the origin of the front end, by which issues call it; it may be
given in lower case too. -/
def frontendName : String := "FRONTEND_ORIGIN"

/-- The origin of the frontend, given by its own name or in the variable. -/
def checkFrontend (sources : Sources) : Checked (Option String) :=
  match ((sources.given.lookup frontendName).orElse fun _ =>
      sources.value? (lowerName frontendName)) with
  | some value => Issue.checkString? frontendName value
  | none => .ok none

/-- The checks of all settings, in order. -/
def check (sources : Sources) (fromVariable : Option Json) : Checked Settings :=
  let d : Settings := {}
  (Checked.both (sources.read "api_title" d.apiTitle Issue.checkString)
    (Checked.both (sources.read "api_version" d.apiVersion Issue.checkString)
    (Checked.both (sources.read "log_level" d.logLevel Issue.checkString)
    (Checked.both (sources.read "calc_tool_mode" d.toolMode Issue.checkString)
    (Checked.both (sources.read "calc_http_base_url" d.remoteBaseUrl Issue.checkString?)
    (Checked.both (sources.read "calc_http_timeout_sec" d.remoteTimeout Issue.checkFloat)
    (Checked.both (sources.readInt "max_expression_length" d.maxExpressionLength 1 none)
    (Checked.both (sources.readInt "max_nesting_depth" d.maxNestingDepth 1
      (some Evaluator.deepestSetting))
    (Checked.both (sources.readInt "keypad_max_digits" d.keypadMaxDigits 1 none)
    (Checked.both (checkOrigins sources fromVariable d.corsOrigins)
      (checkFrontend sources))))))))))).map
    fun (apiTitle, apiVersion, logLevel, toolMode, remoteBaseUrl, remoteTimeout,
        maxExpressionLength, maxNestingDepth, keypadMaxDigits, corsOrigins, frontendOrigin) =>
      { apiTitle, apiVersion, logLevel, toolMode, remoteBaseUrl, remoteTimeout,
        maxExpressionLength, maxNestingDepth, keypadMaxDigits, corsOrigins, frontendOrigin }

/-- The settings that come from their sources. -/
def read (sources : Sources) : Except Fault Settings := do
  let fromVariable ← originsVariable sources.environment
  (check sources fromVariable).mapError .invalid

/-- The settings that come from the environment alone. -/
def ofEnvironment (env : Environment) : Except Fault Settings :=
  read { environment := env }

/-! ## What follows from the settings -/

/-- An origin is compared and listed without the slashes at its end. -/
def dropFinalSlashes (s : String) : String :=
  String.ofList (s.toList.reverse.dropWhile (· == '/')).reverse

/-- The origins found so far, with one more unless it is empty or already there. -/
def addOrigin (found : List String) (origin : String) : List String :=
  if origin.isEmpty then found
  else
    let cleaned := dropFinalSlashes origin
    if found.contains cleaned then found else found ++ [cleaned]

/-- All origins that are named, each once and in the order of their first mention. -/
def resolvedOrigins (s : Settings) : List String :=
  (s.corsOrigins ++ s.frontendOrigin.toList).foldl addOrigin []

/-- The limits that the settings put on expressions. -/
def limits (s : Settings) (stack : Evaluator.Stack) : Limits :=
  ⟨stack, s.maxExpressionLength, s.maxNestingDepth⟩

/-- Whether keypads calculate by a remote calculator. -/
def usesRemote (s : Settings) : Bool :=
  lowerName s.toolMode == "http"

/-- The client of the remote calculator, if its address is set. -/
def client (s : Settings) : Except CalculatorError Remote.Client :=
  match s.remoteBaseUrl with
  | none => .error (.remote .notConfigured)
  | some url =>
    if url.isEmpty then .error (.remote .notConfigured)
    else .ok ⟨dropFinalSlashes url, s.remoteTimeout⟩

end Settings

end KeypadCalc

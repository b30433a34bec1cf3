import FlowEngine.Text.Blank
import FlowEngine.Time.Duration

/-!
# Settings

How long things may take, and where workflows are started. The environment can override the
defaults; a span is a positive number of seconds there, and anything else is ignored.

## Main definitions

* `PlatformSettings`, `EngineSettings`: the settings with their defaults.
* `PlatformSettings.ofEnvironment`: the defaults with what the environment overrides.
* `endpoint`: where a workflow is started.
-/

namespace FlowEngine

/-- How long data are kept by default. -/
def defaultTtl : Duration := .ofSeconds (24 * 60 * 60)

/-- The settings of the platform. -/
structure PlatformSettings where
  /-- Where workflows are started. -/
  triggerUrl : String := "http://127.0.0.1:8080"
  /-- How long the start of a workflow may take. -/
  triggerTimeout : Duration := .ofSeconds 10
  /-- How long a caller waits for an answer by default. -/
  callTimeout : Duration := .ofSeconds 30
  /-- How long a request to another system may take by default. -/
  httpTimeout : Duration := .ofSeconds 30
  /-- How long data are kept by default. -/
  storeTtl : Duration := defaultTtl
  deriving DecidableEq, Repr

/-- The settings of an engine. -/
structure EngineSettings where
  /-- How many nodes of a run may execute at once. -/
  maxParallel : Nat := 10
  platform : PlatformSettings := {}

/-- A text without its last characters, as far as they are slashes. -/
def withoutTrailingSlashes (s : String) : String :=
  String.ofList (s.toList.reverse.dropWhile (· == '/')).reverse

/-- Where a workflow is started. -/
def endpoint (baseUrl target : String) : String :=
  withoutTrailingSlashes baseUrl ++ "/api/v1/workflows/" ++ target ++ "/trigger"

namespace PlatformSettings

/-- The variable with the address. -/
def urlVariable : String := "MEL_TRIGGER_URL"

/-- The variables with spans of time, and what each of them sets. -/
def spanVariables : List (String × (PlatformSettings → Duration → PlatformSettings)) :=
  [("MEL_TRIGGER_TIMEOUT_SECS", fun s d => { s with triggerTimeout := d }),
    ("MEL_CALL_TIMEOUT_SECS", fun s d => { s with callTimeout := d }),
    ("MEL_HTTP_TIMEOUT_SECS", fun s d => { s with httpTimeout := d }),
    ("MEL_STORE_TTL_SECS", fun s d => { s with storeTtl := d })]

/-- All variables that are looked up. -/
def variableNames : List String := urlVariable :: spanVariables.map (·.1)

/-- A positive number of seconds between blanks. -/
def span? (text : String) : Option Duration :=
  ((Text.bounded? UInt64.size (Text.withoutPlus (Text.trim text.toList))).filter (0 < ·)).map
    Duration.ofSeconds

/-- The defaults with what an environment overrides. -/
def ofEnvironment (lookup : String → Option String) : PlatformSettings :=
  let located : PlatformSettings := match lookup urlVariable with
    | some url => { triggerUrl := withoutTrailingSlashes url }
    | none => {}
  spanVariables.foldl (fun settings (name, set) =>
    match (lookup name).bind span? with
    | some d => set settings d
    | none => settings) located

end PlatformSettings

end FlowEngine

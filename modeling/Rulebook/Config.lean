import Rulebook.Config.Engine
import Rulebook.Config.Reading

/-!
The configuration of the program. Each place that settings come from is laid over the ones before:
a file for all, a file for the environment, a file for the service, and environment variables.
-/

namespace Rulebook

structure Observability where
  serviceName : String := "unknown-service"
  logLevel : String := "info"
  jsonLogs : Bool := false
  metricsEnabled : Bool := true
  metricsPort : Nat := 9090
  deriving DecidableEq, Inhabited

structure Config where
  serviceName : String := ""
  environment : String := ""
  observability : Observability := {}
  engine : EngineSettings := {}
  apiKey : Option String := none
  deriving DecidableEq, Inhabited

namespace Config

/-! Reading -/

def readOption {α : Type} (reading : Setting → Except Problem α) (setting : Setting) :
    Except Problem (Option α) :=
  return some (← reading setting)

def observabilityNames : List String :=
  ["service_name", "log_level", "json_logs", "metrics_enabled", "metrics_port"]

def readObservability (setting : Setting) : Except Problem Observability := do
  let parts ← partsOf "ObservabilityConfig" observabilityNames setting
  let defaults : Observability := {}
  return {
    serviceName := ← read parts "service_name" readText defaults.serviceName
    logLevel := ← read parts "log_level" readText defaults.logLevel
    jsonLogs := ← read parts "json_logs" readFlag defaults.jsonLogs
    metricsEnabled := ← read parts "metrics_enabled" readFlag defaults.metricsEnabled
    metricsPort := ← read parts "metrics_port" readPort defaults.metricsPort }

def engineNames : List String :=
  ["script_timeout_ms", "max_operations", "max_string_size", "max_array_size", "max_map_size",
    "max_call_levels", "max_expr_depth", "evaluation_deadline_ms", "http_timeout_ms",
    "action_failure_policy", "analytics_retention_hours", "ast_cache_size",
    "max_concurrent_evaluations", "rules_file"]

def readPolicy : Setting → Except Problem FailurePolicy :=
  readChoice "ActionFailurePolicy" ([.goOn, .abort].map fun policy => (policy.code, policy))

def readEngine (setting : Setting) : Except Problem EngineSettings := do
  let parts ← partsOf "EngineConfig" engineNames setting
  let defaults : EngineSettings := {}
  let count (name : String) (default : Nat) := read parts name readWord default
  return {
    scriptTimeout := ← count "script_timeout_ms" defaults.scriptTimeout
    operations := ← count "max_operations" defaults.operations
    textSize := ← count "max_string_size" defaults.textSize
    listSize := ← count "max_array_size" defaults.listSize
    mapSize := ← count "max_map_size" defaults.mapSize
    callLevels := ← count "max_call_levels" defaults.callLevels
    expressionDepth := ← count "max_expr_depth" defaults.expressionDepth
    evaluationDeadline := ← count "evaluation_deadline_ms" defaults.evaluationDeadline
    httpTimeout := ← count "http_timeout_ms" defaults.httpTimeout
    failurePolicy := ← read parts "action_failure_policy" readPolicy defaults.failurePolicy
    retentionHours := ← count "analytics_retention_hours" defaults.retentionHours
    cacheSize := ← count "ast_cache_size" defaults.cacheSize
    concurrentEvaluations := ← count "max_concurrent_evaluations" defaults.concurrentEvaluations
    rulesFile := ← read parts "rules_file" (readOption readText) defaults.rulesFile }

def readKey (setting : Setting) : Except Problem (Option String) := do
  read (← partsOf "AuthConfig" ["api_key"] setting) "api_key" (readOption readText) none

def ofSetting (setting : Setting) : Except Problem Config := do
  let parts ← partsOf "AppConfig"
    ["service_name", "environment", "observability", "engine", "auth"] setting
  let serviceName ← read parts "service_name" readText ""
  let environment ← read parts "environment" readText ""
  let observability ← read parts "observability" readObservability {}
  let engine ← read parts "engine" readEngine {}
  let apiKey ← read parts "auth" readKey none
  return ⟨serviceName, environment, { observability with serviceName }, engine, apiKey⟩

/-! Loading -/

def fileFor (name : String) : String :=
  name ++ ".toml"

/-- The settings of a file. What has no name has no file, and a file need not be there. -/
def fileLayer (files : String → Option String) (name : String) : Except Problem Setting.Entries :=
  match if name.isEmpty then none else files (fileFor name) with
  | none => return []
  | some text =>
    match Toml.parse text with
    | .ok entries => return Setting.ofEntries (fileFor name) entries
    | .error complaint =>
      throw ⟨.unreadable (complaint.render text), none, some (fileFor name)⟩

def stageOf (environment : List (String × String)) : String :=
  (environment.lookup "RULE_ENGINE_ENV").getD "development"

/-- The configuration of a service. A key of the interface that no setting gives may stand in a
variable of its own. -/
def load (service : String) (files : String → Option String)
    (environment : List (String × String)) : Except Problem Config := do
  let stage := stageOf environment
  let named (name text : String) : String × Setting := (name, .scalar (.text text) none)
  let layers := [← fileLayer files "default", ← fileLayer files stage,
    ← fileLayer files service]
  let config ← ofSetting <| Setting.ofLayers <|
    [named "service_name" service, named "environment" stage] :: layers ++
      [Setting.ofVariables environment]
  let ownKey := (environment.lookup "API_KEY").filter fun key => !key.isEmpty
  return { config with apiKey := config.apiKey.or ownKey }

end Config

end Rulebook

import Rulebook.Config

/-!
A configuration as JSON, under the names of its settings.
-/

namespace Rulebook

def Json.ofOption {α : Type} (encode : α → Json) : Option α → Json
  | some value => encode value
  | none => .null

def FailurePolicy.name : FailurePolicy → String
  | .goOn => "Continue"
  | .abort => "AbortRemaining"

def EngineSettings.toJson (settings : EngineSettings) : Json :=
  .ofFields [("script_timeout_ms", .int settings.scriptTimeout),
    ("max_operations", .int settings.operations), ("max_string_size", .int settings.textSize),
    ("max_array_size", .int settings.listSize), ("max_map_size", .int settings.mapSize),
    ("max_call_levels", .int settings.callLevels),
    ("max_expr_depth", .int settings.expressionDepth),
    ("evaluation_deadline_ms", .int settings.evaluationDeadline),
    ("http_timeout_ms", .int settings.httpTimeout),
    ("action_failure_policy", .str settings.failurePolicy.name),
    ("analytics_retention_hours", .int settings.retentionHours),
    ("retention_seconds", .int settings.retention), ("ast_cache_size", .int settings.cacheSize),
    ("max_concurrent_evaluations", .int settings.concurrentEvaluations),
    ("rules_file", .ofOption .str settings.rulesFile)]

def Observability.toJson (observability : Observability) : Json :=
  .ofFields [("service_name", .str observability.serviceName),
    ("log_level", .str observability.logLevel), ("json_logs", .bool observability.jsonLogs),
    ("metrics_enabled", .bool observability.metricsEnabled),
    ("metrics_port", .int observability.metricsPort)]

def Config.toJson (config : Config) : Json :=
  .ofFields [("service_name", .str config.serviceName), ("environment", .str config.environment),
    ("api_key", .ofOption .str config.apiKey), ("engine", config.engine.toJson),
    ("observability", config.observability.toJson)]

end Rulebook

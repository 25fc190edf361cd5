import Rulebook.Json.Codec
import Rulebook.Script.Limits

/-!
Settings of the engine.
-/

namespace Rulebook

inductive FailurePolicy where
  | goOn
  | abort
  deriving DecidableEq, Inhabited

namespace FailurePolicy

def code : FailurePolicy → String
  | .goOn => "CONTINUE"
  | .abort => "ABORT_REMAINING"

def codec : Json.Codec FailurePolicy :=
  .choice ([.goOn, .abort].map fun policy => (policy.code, policy))

end FailurePolicy

/-- Times are in milliseconds unless they say otherwise. -/
structure EngineSettings where
  scriptTimeout : Nat := 100
  operations : Nat := 100000
  textSize : Nat := 65536
  listSize : Nat := 10000
  mapSize : Nat := 10000
  callLevels : Nat := 32
  expressionDepth : Nat := 64
  evaluationDeadline : Nat := 2000
  httpTimeout : Nat := 5000
  failurePolicy : FailurePolicy := .goOn
  retentionHours : Nat := 168
  cacheSize : Nat := 1024
  concurrentEvaluations : Nat := 64
  rulesFile : Option String := none
  deriving DecidableEq, Inhabited

namespace EngineSettings

def limits (settings : EngineSettings) : Script.Limits :=
  ⟨settings.scriptTimeout * 1000000, settings.operations, settings.textSize, settings.listSize,
    settings.mapSize, settings.callLevels, settings.expressionDepth⟩

/-- How long records are kept, in seconds, computed in words of 64 bits. -/
def retention (settings : EngineSettings) : Nat :=
  settings.retentionHours * 3600 % twoTo 64

def wordCodec (name : String) : Json.Codec Nat :=
  let whole := Json.Codec.integer name 0 (twoTo 64 - 1)
  { read := return (← whole.read).toNat
    convert := fun value => return (← whole.convert value).toNat }

def codec (defaults : EngineSettings) : Json.Codec EngineSettings :=
  let count := wordCodec "u64"
  let size := wordCodec "usize"
  .record "EngineConfig"
    (.field "script_timeout_ms" count (some defaults.scriptTimeout) <|
      .field "max_operations" count (some defaults.operations) <|
      .field "max_string_size" size (some defaults.textSize) <|
      .field "max_array_size" size (some defaults.listSize) <|
      .field "max_map_size" size (some defaults.mapSize) <|
      .field "max_call_levels" size (some defaults.callLevels) <|
      .field "max_expr_depth" size (some defaults.expressionDepth) <|
      .field "evaluation_deadline_ms" count (some defaults.evaluationDeadline) <|
      .field "http_timeout_ms" count (some defaults.httpTimeout) <|
      .field "action_failure_policy" FailurePolicy.codec (some defaults.failurePolicy) <|
      .field "analytics_retention_hours" count (some defaults.retentionHours) <|
      .field "ast_cache_size" size (some defaults.cacheSize) <|
      .field "max_concurrent_evaluations" size (some defaults.concurrentEvaluations) <|
      .field "rules_file" (.optional .text) (some defaults.rulesFile) .done)
    fun (scriptTimeout, operations, textSize, listSize, mapSize, callLevels, expressionDepth,
        evaluationDeadline, httpTimeout, failurePolicy, retentionHours, cacheSize,
        concurrentEvaluations, rulesFile, _) =>
      { scriptTimeout, operations, textSize, listSize, mapSize, callLevels, expressionDepth,
        evaluationDeadline, httpTimeout, failurePolicy, retentionHours, cacheSize,
        concurrentEvaluations, rulesFile }

end EngineSettings

end Rulebook

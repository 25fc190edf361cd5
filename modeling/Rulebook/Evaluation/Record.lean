import Rulebook.Rules.Entity
import Rulebook.Script.Fault

/-!
What is kept of judging one event by one rule.
-/

namespace Rulebook

inductive EvaluationStatus where
  | completed
  /-- The deadline passed before everything was done. -/
  | partiallyEvaluated
  deriving DecidableEq, Inhabited

structure TriggerOutcome where
  trigger : Uuid
  kind : TriggerKind
  fired : Bool
  error : Option Script.Failure
  deriving DecidableEq

structure ActionOutcome where
  action : Uuid
  trigger : Uuid
  /-- Skipped actions have an outcome, too. -/
  executed : Bool
  succeeded : Bool
  error : Option Script.Failure
  milliseconds : Float
  logs : List String

structure ExecutionRecord where
  id : Uuid
  event : Uuid
  rule : Uuid
  ruleName : String
  matched : Bool
  error : Option Script.Failure
  triggers : List TriggerOutcome
  actions : List ActionOutcome
  milliseconds : Float
  timestamp : Instant
  status : EvaluationStatus

def ActionOutcome.skipped (action trigger : Uuid) : ActionOutcome :=
  ⟨action, trigger, false, false, none, 0, []⟩

namespace ExecutionRecord

/-- All script failures of the record: the rule's own, then those of triggers and of actions. -/
def failures (record : ExecutionRecord) : List Script.Failure :=
  record.error.toList ++ record.triggers.filterMap (·.error) ++ record.actions.filterMap (·.error)

def hasError (record : ExecutionRecord) : Bool :=
  !record.failures.isEmpty

def firedTriggers (record : ExecutionRecord) : List TriggerOutcome :=
  record.triggers.filter (·.fired)

def executedActions (record : ExecutionRecord) : List ActionOutcome :=
  record.actions.filter (·.executed)

end ExecutionRecord

/-! JSON forms -/

namespace EvaluationStatus

def code : EvaluationStatus → String
  | .completed => "COMPLETED"
  | .partiallyEvaluated => "PARTIALLY_EVALUATED"

def codec : Json.Codec EvaluationStatus :=
  .choice ([completed, partiallyEvaluated].map fun status => (status.code, status))

end EvaluationStatus

namespace TriggerOutcome

def toJson (outcome : TriggerOutcome) : Json :=
  .ofFields <| Json.fieldOf "error" (outcome.error.map Script.Failure.toJson) ++
    [("trigger_id", outcome.trigger.toJson), ("kind", .str outcome.kind.code),
      ("fired", .bool outcome.fired)]

def codec : Json.Codec TriggerOutcome :=
  .record "TriggerOutcome"
    (.field "trigger_id" Uuid.codec none <| .field "kind" TriggerKind.codec none <|
      .field "fired" .flag none <| .field "error" (.optional Script.Failure.codec) none .done)
    fun (trigger, kind, fired, error, _) => ⟨trigger, kind, fired, error⟩

end TriggerOutcome

namespace ActionOutcome

def toJson (outcome : ActionOutcome) : Json :=
  let logs := if outcome.logs.isEmpty then none else some (.arr (outcome.logs.map .str))
  .ofFields <| Json.fieldOf "error" (outcome.error.map Script.Failure.toJson) ++
    Json.fieldOf "logs" logs ++
    [("action_id", outcome.action.toJson), ("trigger_id", outcome.trigger.toJson),
      ("executed", .bool outcome.executed), ("succeeded", .bool outcome.succeeded),
      ("duration_ms", .float outcome.milliseconds)]

def codec : Json.Codec ActionOutcome :=
  .record "ActionOutcome"
    (.field "action_id" Uuid.codec none <| .field "trigger_id" Uuid.codec none <|
      .field "executed" .flag none <| .field "succeeded" .flag none <|
      .field "error" (.optional Script.Failure.codec) none <|
      .field "duration_ms" .float none <| .field "logs" (.list .text) (some []) .done)
    fun (action, trigger, executed, succeeded, error, milliseconds, logs, _) =>
      ⟨action, trigger, executed, succeeded, error, milliseconds, logs⟩

end ActionOutcome

namespace ExecutionRecord

def toJson (record : ExecutionRecord) : Json :=
  .ofFields <| Json.fieldOf "error" (record.error.map Script.Failure.toJson) ++
    [("id", record.id.toJson), ("event_id", record.event.toJson), ("rule_id", record.rule.toJson),
      ("rule_name", .str record.ruleName), ("matched", .bool record.matched),
      ("triggers", .arr (record.triggers.map TriggerOutcome.toJson)),
      ("actions", .arr (record.actions.map ActionOutcome.toJson)),
      ("duration_ms", .float record.milliseconds), ("timestamp", record.timestamp.toJson),
      ("status", .str record.status.code)]

def codec : Json.Codec ExecutionRecord :=
  .record "ExecutionRecord"
    (.field "id" Uuid.codec none <| .field "event_id" Uuid.codec none <|
      .field "rule_id" Uuid.codec none <| .field "rule_name" .text none <|
      .field "matched" .flag none <| .field "error" (.optional Script.Failure.codec) none <|
      .field "triggers" (.list TriggerOutcome.codec) none <|
      .field "actions" (.list ActionOutcome.codec) none <|
      .field "duration_ms" .float none <| .field "timestamp" Instant.codec none <|
      .field "status" EvaluationStatus.codec none .done)
    fun (id, event, rule, ruleName, matched, error, triggers, actions, milliseconds, timestamp,
        status, _) =>
      ⟨id, event, rule, ruleName, matched, error, triggers, actions, milliseconds, timestamp,
        status⟩

end ExecutionRecord

end Rulebook

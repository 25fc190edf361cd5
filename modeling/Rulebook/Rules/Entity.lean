import Rulebook.Json.Path
import Rulebook.Time.Notation
import Rulebook.Uuid

/-!
Rules, their triggers, and actions; what is given to create them and to change them. A rule's
script decides whether an event matches; the triggers of a matching rule decide which actions run.
-/

namespace Rulebook

inductive TriggerKind where
  /-- Fires whenever its rule matches. -/
  | unconditional
  /-- Fires when its rule matches and its own condition holds. -/
  | conditional
  deriving DecidableEq, Inhabited

structure Rule where
  id : Uuid
  name : String
  script : String
  /-- Rules of higher priority come first. -/
  priority : Int
  enabled : Bool
  triggers : List Uuid
  actions : List Uuid
  createdAt : Instant
  updatedAt : Instant
  /-- Grows from rule to rule and decides between equal priorities. -/
  sequence : Nat
  deriving DecidableEq, Inhabited

structure Trigger where
  id : Uuid
  rule : Uuid
  kind : TriggerKind
  condition : Option String
  enabled : Bool
  createdAt : Instant
  updatedAt : Instant
  deriving DecidableEq, Inhabited

structure Action where
  id : Uuid
  name : Option String
  script : String
  enabled : Bool
  createdAt : Instant
  updatedAt : Instant
  deriving DecidableEq, Inhabited

structure NewRule where
  name : String
  script : String
  priority : Int
  enabled : Bool

structure RulePatch where
  name : Option String
  script : Option String
  priority : Option Int
  enabled : Option Bool

structure NewTrigger where
  rule : Uuid
  kind : TriggerKind
  condition : Option String
  enabled : Bool

structure TriggerPatch where
  condition : Option String
  enabled : Option Bool

structure NewAction where
  name : Option String
  script : String
  enabled : Bool

structure ActionPatch where
  name : Option String
  script : Option String
  enabled : Option Bool

structure RuleFilter where
  enabled : Option Bool
  limit : Option Nat
  offset : Nat

structure TriggerFilter where
  rule : Option Uuid
  enabled : Option Bool

structure ActionFilter where
  enabled : Option Bool

structure RuleDetail where
  rule : Rule
  triggers : List Trigger
  actions : List Action

structure RuleDeletion where
  rule : Uuid
  triggers : List Uuid
  actions : List Uuid
  deriving DecidableEq

/-- Something that happened, to be judged by the rules. -/
structure Event where
  id : Uuid
  payload : Json
  receivedAt : Instant

/-- A part of the payload, such as `sensor.reading.value` or `items.0.name`. -/
def Event.field? (event : Event) (path : String) : Option Json :=
  event.payload.find? path

def RulePatch.isEmpty (patch : RulePatch) : Bool :=
  patch.name.isNone && patch.script.isNone && patch.priority.isNone && patch.enabled.isNone

/-! JSON forms -/

namespace TriggerKind

def code : TriggerKind → String
  | .unconditional => "UNCONDITIONAL"
  | .conditional => "CONDITIONAL"

def codec : Json.Codec TriggerKind :=
  .choice ([unconditional, conditional].map fun kind => (kind.code, kind))

end TriggerKind

def priorityCodec : Json.Codec Int :=
  .integer "i32" (-2147483648) 2147483647

namespace Rule

def toJsonWith (rule : Rule) (triggers actions : Json) : Json :=
  .ofFields [("id", rule.id.toJson), ("name", .str rule.name), ("script", .str rule.script),
    ("priority", .int rule.priority), ("enabled", .bool rule.enabled), ("triggers", triggers),
    ("actions", actions), ("created_at", rule.createdAt.toJson),
    ("updated_at", rule.updatedAt.toJson)]

def toJson (rule : Rule) : Json :=
  rule.toJsonWith (Uuid.listToJson rule.triggers) (Uuid.listToJson rule.actions)

def codec : Json.Codec Rule :=
  .record "Rule"
    (.field "id" Uuid.codec none <| .field "name" .text none <| .field "script" .text none <|
      .field "priority" priorityCodec none <| .field "enabled" .flag none <|
      .field "triggers" (.list Uuid.codec) none <| .field "actions" (.list Uuid.codec) none <|
      .field "created_at" Instant.codec none <| .field "updated_at" Instant.codec none .done)
    fun (id, name, script, priority, enabled, triggers, actions, createdAt, updatedAt, _) =>
      ⟨id, name, script, priority, enabled, triggers, actions, createdAt, updatedAt, 0⟩

end Rule

namespace Trigger

def toJson (trigger : Trigger) : Json :=
  .ofFields <| Json.fieldOf "condition_script" (trigger.condition.map .str) ++
    [("id", trigger.id.toJson), ("rule_id", trigger.rule.toJson), ("type", .str trigger.kind.code),
      ("enabled", .bool trigger.enabled), ("created_at", trigger.createdAt.toJson),
      ("updated_at", trigger.updatedAt.toJson)]

def codec : Json.Codec Trigger :=
  .record "Trigger"
    (.field "id" Uuid.codec none <| .field "rule_id" Uuid.codec none <|
      .field "type" TriggerKind.codec none <|
      .field "condition_script" (.optional .text) none <| .field "enabled" .flag none <|
      .field "created_at" Instant.codec none <| .field "updated_at" Instant.codec none .done)
    fun (id, rule, kind, condition, enabled, createdAt, updatedAt, _) =>
      ⟨id, rule, kind, condition, enabled, createdAt, updatedAt⟩

end Trigger

namespace Action

def toJson (action : Action) : Json :=
  .ofFields <| Json.fieldOf "name" (action.name.map .str) ++
    [("id", action.id.toJson), ("script", .str action.script), ("enabled", .bool action.enabled),
      ("created_at", action.createdAt.toJson), ("updated_at", action.updatedAt.toJson)]

def codec : Json.Codec Action :=
  .record "Action"
    (.field "id" Uuid.codec none <| .field "name" (.optional .text) none <|
      .field "script" .text none <| .field "enabled" .flag none <|
      .field "created_at" Instant.codec none <| .field "updated_at" Instant.codec none .done)
    fun (id, name, script, enabled, createdAt, updatedAt, _) =>
      ⟨id, name, script, enabled, createdAt, updatedAt⟩

end Action

def RuleDetail.toJson (detail : RuleDetail) : Json :=
  detail.rule.toJsonWith (.arr (detail.triggers.map Trigger.toJson))
    (.arr (detail.actions.map Action.toJson))

def RuleDeletion.toJson (deletion : RuleDeletion) : Json :=
  .ofFields [("rule_id", deletion.rule.toJson),
    ("deleted_triggers", Uuid.listToJson deletion.triggers),
    ("deleted_actions", Uuid.listToJson deletion.actions)]

namespace Event

def toJson (event : Event) : Json :=
  .ofFields [("id", event.id.toJson), ("payload", event.payload),
    ("received_at", event.receivedAt.toJson)]

def codec : Json.Codec Event :=
  .record "Event"
    (.field "id" Uuid.codec none <| .field "payload" .json none <|
      .field "received_at" Instant.codec none .done)
    fun (id, payload, receivedAt, _) => ⟨id, payload, receivedAt⟩

end Event

def NewRule.codec : Json.Codec NewRule :=
  .record "NewRule"
    (.field "name" .text none <| .field "script" .text none <|
      .field "priority" priorityCodec (some 0) <| .field "enabled" .flag (some true) .done)
    fun (name, script, priority, enabled, _) => ⟨name, script, priority, enabled⟩

def NewTrigger.codec : Json.Codec NewTrigger :=
  .record "NewTrigger"
    (.field "rule_id" Uuid.codec none <| .field "type" TriggerKind.codec none <|
      .field "condition_script" (.optional .text) (some none) <|
      .field "enabled" .flag (some true) .done)
    fun (rule, kind, condition, enabled, _) => ⟨rule, kind, condition, enabled⟩

def NewAction.codec : Json.Codec NewAction :=
  .record "NewAction"
    (.field "name" (.optional .text) (some none) <| .field "script" .text none <|
      .field "enabled" .flag (some true) .done)
    fun (name, script, enabled, _) => ⟨name, script, enabled⟩

def RulePatch.codec (called : String) : Json.Codec RulePatch :=
  .record called
    (.field "name" (.optional .text) none <| .field "script" (.optional .text) none <|
      .field "priority" (.optional priorityCodec) none <|
      .field "enabled" (.optional .flag) none .done)
    fun (name, script, priority, enabled, _) => ⟨name, script, priority, enabled⟩

def TriggerPatch.codec (called : String) : Json.Codec TriggerPatch :=
  .record called
    (.field "condition_script" (.optional .text) none <|
      .field "enabled" (.optional .flag) none .done)
    fun (condition, enabled, _) => ⟨condition, enabled⟩

def ActionPatch.codec (called : String) : Json.Codec ActionPatch :=
  .record called
    (.field "name" (.optional .text) none <| .field "script" (.optional .text) none <|
      .field "enabled" (.optional .flag) none .done)
    fun (name, script, enabled, _) => ⟨name, script, enabled⟩

end Rulebook

import Rulebook.Service

/-!
Requests as they come from outside: the name of an operation, the identifiers that it is about, and
a body of JSON text. They are answered with JSON.
-/

namespace Rulebook.Service

structure Call where
  operation : String
  id : Option Uuid
  action : Option Uuid
  body : String
  /-- Whether a body is checked as soon as it is read. -/
  checked : Bool := true

namespace Call

variable {World : Type}

def read {α : Type} (call : Call) (codec : Json.Codec α) : EngineM World α :=
  MonadExcept.ofExcept ((codec.parse call.body).mapError Refusal.ofJson)

def readChecked {α : Type} (call : Call) (codec : Json.Codec α) (check : α → Check) :
    EngineM World α :=
  if call.checked then MonadExcept.ofExcept (parseRequest codec check call.body)
  else call.read codec

def unit (action : EngineM World Unit) : EngineM World Json := do
  action
  return .null

def withId (call : Call) (action : Uuid → EngineM World Json) : Option (EngineM World Json) :=
  call.id.map action

def withIds (call : Call) (action : Uuid → Uuid → EngineM World Json) :
    Option (EngineM World Json) := do
  return action (← call.id) (← call.action)

def ruleOperation (call : Call) : Option (EngineM World Json) :=
  match call.operation with
  | "create_rule" => some do
    return (← createRule (← call.readChecked RuleRequest.codec RuleRequest.check)).toJson
  | "list_rules" => some do
    let rules ← listRules (← call.readChecked RuleQuery.codec RuleQuery.check)
    return .arr (rules.map Rule.toJson)
  | "get_rule" => call.withId fun id => do return (← getRule id).toJson
  | "update_rule" => call.withId fun id => do
    let patch ← call.readChecked (RulePatch.codec "UpdateRuleRequest") RulePatch.check
    return (← updateRule id patch).toJson
  | "delete_rule" => call.withId fun id => do return (← Engine.deleteRule id).toJson
  | "add_rule_action" => call.withId fun id => do
    return (← Engine.addRuleAction id (← call.read attachmentCodec)).toJson
  | "remove_rule_action" => call.withIds fun rule action => do
    return (← Engine.removeRuleAction rule action).toJson
  | _ => none

def actionOperation (call : Call) : Option (EngineM World Json) :=
  match call.operation with
  | "create_action" => some do
    return (← createAction (← call.readChecked ActionRequest.codec ActionRequest.check)).toJson
  | "list_actions" => some do
    return .arr ((← listActions (← call.read ActionFilter.codec)).map Action.toJson)
  | "get_action" => call.withId fun id => do return (← getAction id).toJson
  | "update_action" => call.withId fun id => do
    let patch ← call.readChecked (ActionPatch.codec "UpdateActionRequest") ActionPatch.check
    return (← updateAction id patch).toJson
  | "delete_action" => call.withId fun id => unit (Engine.deleteAction id)
  | _ => none

def triggerOperation (call : Call) : Option (EngineM World Json) :=
  match call.operation with
  | "create_trigger" => some do
    return (← createTrigger (← call.readChecked TriggerRequest.codec TriggerRequest.check)).toJson
  | "list_triggers" => some do
    return .arr ((← listTriggers (← call.read TriggerFilter.codec)).map Trigger.toJson)
  | "get_trigger" => call.withId fun id => do return (← getTrigger id).toJson
  | "update_trigger" => call.withId fun id => do
    let patch ← call.readChecked (TriggerPatch.codec "UpdateTriggerRequest") TriggerPatch.check
    return (← updateTrigger id patch).toJson
  | "delete_trigger" => call.withId fun id => unit (Engine.deleteTrigger id)
  | "bind" => call.withId fun id => unit do Engine.bind id (← call.read attachmentCodec)
  | "unbind" => call.withIds fun trigger action => unit (Engine.unbind trigger action)
  | _ => none

def otherOperation (call : Call) : Option (EngineM World Json) :=
  match call.operation with
  | "evaluate" => some do
    return .arr ((← evaluate (← call.read EvaluationRequest.codec)).map ExecutionRecord.toJson)
  | "evaluate_script" => some do
    return (← tryScript (← call.readChecked ScriptRequest.codec ScriptRequest.check)).toJson
  | "dashboard" => some do return (← Engine.dashboard (← call.read dashboardCodec)).toJson
  | _ => none

/-- What is done for a call, if there is such an operation and it has its identifiers. -/
def perform (call : Call) : Option (EngineM World Json) :=
  call.ruleOperation <|> call.actionOperation <|> call.triggerOperation <|> call.otherOperation

end Call

def operations : List String :=
  ["create_rule", "list_rules", "get_rule", "update_rule", "delete_rule", "add_rule_action",
    "remove_rule_action", "create_action", "list_actions", "get_action", "update_action",
    "delete_action", "create_trigger", "list_triggers", "get_trigger", "update_trigger",
    "delete_trigger", "bind", "unbind", "evaluate", "evaluate_script", "dashboard"]

end Rulebook.Service

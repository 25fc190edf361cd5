import Rulebook.Rules.Graph

/-!
What clients send. A request is read from JSON text, and the lengths of its texts are checked
before it reaches the rules.
-/

namespace Rulebook

structure RuleRequest where
  name : String
  script : String
  priority : Int
  enabled : Option Bool

structure ActionRequest where
  name : Option String
  script : String
  enabled : Option Bool

structure TriggerRequest where
  rule : Uuid
  kind : TriggerKind
  condition : Option String
  enabled : Option Bool

structure RuleQuery where
  enabled : Option Bool
  limit : Option UInt64
  offset : UInt64

structure EvaluationRequest where
  eventId : Option Uuid
  event : Json

structure ScriptRequest where
  script : String
  context : Json

/-! Requests as what the rules take -/

def RuleRequest.toNew (request : RuleRequest) : NewRule :=
  ⟨request.name, request.script, request.priority, request.enabled.getD true⟩

def ActionRequest.toNew (request : ActionRequest) : NewAction :=
  ⟨request.name, request.script, request.enabled.getD true⟩

def TriggerRequest.toNew (request : TriggerRequest) : NewTrigger :=
  ⟨request.rule, request.kind, request.condition, request.enabled.getD true⟩

def RuleQuery.toFilter (query : RuleQuery) : RuleFilter :=
  let limit := query.limit.map fun limit => min limit.toNat RuleGraph.maxPageSize
  ⟨query.enabled, limit, query.offset.toNat⟩

/-! Checks -/

abbrev Check := Except Refusal Unit

/-- A text of the field has from one to `longest` characters. -/
def checkLength (field : String) (longest : Nat) (message text : String) : Check :=
  if 1 ≤ text.length ∧ text.length ≤ longest then .ok () else .error (.invalid field message)

def checkOptional (check : String → Check) : Option String → Check
  | some text => check text
  | none => .ok ()

def checkRuleName : String → Check :=
  checkLength "name" 255 "规则名称长度必须在1-255个字符之间"

def checkActionName : String → Check :=
  checkLength "name" 255 "动作名称长度必须在1-255个字符之间"

def checkScript : String → Check :=
  checkLength "script" 10000 "脚本长度必须在1-10000个字符之间"

def checkCondition : String → Check :=
  checkLength "condition_script" 10000 "条件脚本长度必须在1-10000个字符之间"

def RuleRequest.check (request : RuleRequest) : Check := do
  checkRuleName request.name
  checkScript request.script

def RulePatch.check (patch : RulePatch) : Check := do
  checkOptional checkRuleName patch.name
  checkOptional checkScript patch.script

def RuleQuery.check (query : RuleQuery) : Check :=
  match query.limit with
  | some limit =>
    if 1 ≤ limit.toNat ∧ limit.toNat ≤ RuleGraph.maxPageSize then .ok ()
    else .error (.invalid "limit" "limit 必须在1-1000之间")
  | none => .ok ()

def ActionRequest.check (request : ActionRequest) : Check := do
  checkOptional checkActionName request.name
  checkScript request.script

def ActionPatch.check (patch : ActionPatch) : Check := do
  checkOptional checkActionName patch.name
  checkOptional checkScript patch.script

def TriggerRequest.check (request : TriggerRequest) : Check :=
  checkOptional checkCondition request.condition

def TriggerPatch.check (patch : TriggerPatch) : Check :=
  checkOptional checkCondition patch.condition

def ScriptRequest.check (request : ScriptRequest) : Check :=
  checkScript request.script

/-! JSON forms -/

def RuleRequest.codec : Json.Codec RuleRequest :=
  .record "CreateRuleRequest"
    (.field "name" .text none <| .field "script" .text none <|
      .field "priority" priorityCodec (some 0) <| .field "enabled" (.optional .flag) none .done)
    fun (name, script, priority, enabled, _) => ⟨name, script, priority, enabled⟩

def ActionRequest.codec : Json.Codec ActionRequest :=
  .record "CreateActionRequest"
    (.field "name" (.optional .text) none <| .field "script" .text none <|
      .field "enabled" (.optional .flag) none .done)
    fun (name, script, enabled, _) => ⟨name, script, enabled⟩

def TriggerRequest.codec : Json.Codec TriggerRequest :=
  .record "CreateTriggerRequest"
    (.field "rule_id" Uuid.codec none <| .field "type" TriggerKind.codec none <|
      .field "condition_script" (.optional .text) none <|
      .field "enabled" (.optional .flag) none .done)
    fun (rule, kind, condition, enabled, _) => ⟨rule, kind, condition, enabled⟩

def RuleQuery.codec : Json.Codec RuleQuery :=
  .record "ListRulesQuery"
    (.field "enabled" (.optional .flag) none <|
      .field "limit" (.optional (.word64 "usize")) none <|
      .field "offset" (.word64 "usize") (some 0) .done)
    fun (enabled, limit, offset, _) => ⟨enabled, limit, offset⟩

def ActionFilter.codec : Json.Codec ActionFilter :=
  .record "ListActionsQuery" (.field "enabled" (.optional .flag) none .done)
    fun (enabled, _) => ⟨enabled⟩

def TriggerFilter.codec : Json.Codec TriggerFilter :=
  .record "ListTriggersQuery"
    (.field "rule_id" (.optional Uuid.codec) none <| .field "enabled" (.optional .flag) none .done)
    fun (rule, enabled, _) => ⟨rule, enabled⟩

def attachmentCodec : Json.Codec Uuid :=
  .record "AttachActionRequest" (.field "action_id" Uuid.codec none .done) fun (action, _) => action

def EvaluationRequest.codec : Json.Codec EvaluationRequest :=
  .record "EvaluateRequest"
    (.field "event_id" (.optional Uuid.codec) none <| .field "event" .json none .done)
    fun (eventId, event, _) => ⟨eventId, event⟩

def ScriptRequest.codec : Json.Codec ScriptRequest :=
  .record "EvaluateScriptRequest"
    (.field "script" .text none <| .field "context" .json (some .null) .done)
    fun (script, context, _) => ⟨script, context⟩

def dashboardCodec : Json.Codec String :=
  .record "DashboardQuery" (.field "time_range" .text (some "") .done) fun (range, _) => range

/-- Reads a request and checks it; what is not even JSON counts as a bad body. -/
def parseRequest {α : Type} (codec : Json.Codec α) (check : α → Check) (text : String) :
    Except Refusal α :=
  match codec.parse text with
  | .error failure => .error (.invalid "body" s!"请求体格式错误: {failure.message}")
  | .ok request => do
    check request
    return request

end Rulebook

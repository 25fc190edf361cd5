import Rulebook.Engine
import Rulebook.Rules.Request

/-!
What clients can ask of an engine. They have to bring the key of the service first; requests that
change something are checked before they get to the rules.
-/

namespace Rulebook.Service

variable {World α : Type}

/-- The header in which clients bring their key. -/
def keyHeader : String := "X-API-Key"

/-- A service without a key lets nobody in. -/
def authorize (configured provided : Option String) : Except Refusal Unit :=
  match configured, provided with
  | some expected, some key =>
    if !expected.isEmpty ∧ key = expected then .ok () else .error .unauthorized
  | _, _ => .error .unauthorized

/-- Does something for a request that passes its check. -/
def whenValid (check : Check) (action : EngineM World α) : EngineM World α := do
  MonadExcept.ofExcept check
  action

/-! Rules -/

def createRule (request : RuleRequest) : EngineM World Rule :=
  whenValid request.check (Engine.createRule request.toNew)

def listRules (query : RuleQuery) : EngineM World (List Rule) :=
  whenValid query.check (Engine.look fun graph => .ok (graph.listRules query.toFilter))

def getRule (id : Uuid) : EngineM World RuleDetail :=
  Engine.look fun graph => graph.ruleDetail id

def updateRule (id : Uuid) (patch : RulePatch) : EngineM World Rule :=
  whenValid patch.check (Engine.updateRule id patch)

/-! Actions -/

def createAction (request : ActionRequest) : EngineM World Action :=
  whenValid request.check (Engine.createAction request.toNew)

def listActions (filter : ActionFilter) : EngineM World (List Action) :=
  Engine.look fun graph => .ok (graph.listActions filter)

def getAction (id : Uuid) : EngineM World Action :=
  Engine.look fun graph => graph.action id

def updateAction (id : Uuid) (patch : ActionPatch) : EngineM World Action :=
  whenValid patch.check (Engine.updateAction id patch)

/-! Triggers -/

def createTrigger (request : TriggerRequest) : EngineM World Trigger :=
  whenValid request.check (Engine.createTrigger request.toNew)

def listTriggers (filter : TriggerFilter) : EngineM World (List Trigger) :=
  Engine.look fun graph => .ok (graph.listTriggers filter)

def getTrigger (id : Uuid) : EngineM World Trigger :=
  Engine.look fun graph => graph.trigger id

def updateTrigger (id : Uuid) (patch : TriggerPatch) : EngineM World Trigger :=
  whenValid patch.check (Engine.updateTrigger id patch)

/-! Events and scripts -/

def evaluate (request : EvaluationRequest) : EngineM World (List ExecutionRecord) := do
  Engine.evaluate (← Engine.receive request.eventId request.event)

def tryScript (request : ScriptRequest) : EngineM World ScriptTrial :=
  whenValid request.check (Engine.tryScript request.script request.context)

/-! Responses -/

/-- What a client gets to see. -/
structure Response where
  status : Nat
  success : Bool
  code : String
  message : String
  data : Option Json

def Response.ofResult (result : Except Refusal Json) : Response :=
  match result with
  | .ok data => ⟨200, true, "SUCCESS", "操作成功", some data⟩
  | .error refusal => ⟨refusal.status, false, refusal.code, refusal.message, none⟩

/-- The body of a response. -/
def Response.toJson (response : Response) : Json :=
  .ofFields ([("success", .bool response.success), ("code", .str response.code),
    ("message", .str response.message)] ++ Json.fieldOf "data" response.data)

end Rulebook.Service

import Rulebook.Engine

/-!
Rules to start with, as one JSON text. Actions go by keys of their own, by which the rules and
triggers of the text refer to them. Loading stops at the first thing that is refused.
-/

namespace Rulebook

structure SeedAction where
  key : String
  name : Option String
  script : String
  enabled : Bool

structure SeedTrigger where
  kind : TriggerKind
  condition : Option String
  enabled : Bool
  actions : List String

structure SeedRule where
  name : String
  script : String
  priority : Int
  enabled : Bool
  actions : List String
  triggers : List SeedTrigger

structure Seed where
  actions : List SeedAction
  rules : List SeedRule

structure SeedSummary where
  actions : Nat
  rules : Nat
  triggers : Nat
  deriving DecidableEq

namespace Seed

/-! JSON forms -/

def actionCodec : Json.Codec SeedAction :=
  .record "SeedAction"
    (.field "key" .text none <| .field "name" (.optional .text) (some none) <|
      .field "script" .text none <| .field "enabled" .flag (some true) .done)
    fun (key, name, script, enabled, _) => ⟨key, name, script, enabled⟩

def triggerCodec : Json.Codec SeedTrigger :=
  .record "SeedTrigger"
    (.field "type" TriggerKind.codec none <|
      .field "condition_script" (.optional .text) (some none) <|
      .field "enabled" .flag (some true) <| .field "actions" (.list .text) (some []) .done)
    fun (kind, condition, enabled, actions, _) => ⟨kind, condition, enabled, actions⟩

def ruleCodec : Json.Codec SeedRule :=
  .record "SeedRule"
    (.field "name" .text none <| .field "script" .text none <|
      .field "priority" priorityCodec (some 0) <| .field "enabled" .flag (some true) <|
      .field "actions" (.list .text) (some []) <|
      .field "triggers" (.list triggerCodec) (some []) .done)
    fun (name, script, priority, enabled, actions, triggers, _) =>
      ⟨name, script, priority, enabled, actions, triggers⟩

def codec : Json.Codec Seed :=
  .record "SeedFile"
    (.field "actions" (.list actionCodec) (some []) <|
      .field "rules" (.list ruleCodec) (some []) .done)
    fun (actions, rules, _) => ⟨actions, rules⟩

/-! Loading -/

abbrev Keys := List (String × Uuid)

variable {World : Type}

def resolve (keys : Keys) (key : String) : Except Refusal Uuid :=
  match keys.lookup key with
  | some id => .ok id
  | none => .error (.notFound "action" key)

/-- An action without a name goes by its key. -/
def newAction (action : SeedAction) : NewAction :=
  ⟨some (action.name.getD action.key), action.script, action.enabled⟩

def loadActions (keys : Keys) : List SeedAction → EngineM World Keys
  | [] => return keys
  | action :: rest => do
    if (keys.lookup action.key).isSome then
      throw (.invalid "actions.key" s!"重复的动作 key: {action.key}")
    let created ← Engine.createAction (newAction action)
    loadActions ((action.key, created.id) :: keys) rest

def loadTrigger (keys : Keys) (rule : Uuid) (trigger : SeedTrigger) : EngineM World Unit := do
  let created ←
    Engine.createTrigger ⟨rule, trigger.kind, trigger.condition, trigger.enabled⟩
  trigger.actions.forM fun key => do
    let action ← MonadExcept.ofExcept (resolve keys key)
    Engine.bind created.id action

def loadRule (keys : Keys) (rule : SeedRule) : EngineM World Unit := do
  let created ← Engine.createRule ⟨rule.name, rule.script, rule.priority, rule.enabled⟩
  rule.actions.forM fun key => do
    let action ← MonadExcept.ofExcept (resolve keys key)
    let _ ← Engine.addRuleAction created.id action
  rule.triggers.forM (loadTrigger keys created.id)

def summary (seed : Seed) : SeedSummary :=
  ⟨seed.actions.length, seed.rules.length, (seed.rules.flatMap (·.triggers)).length⟩

def load (seed : Seed) : EngineM World SeedSummary := do
  let keys ← loadActions [] seed.actions
  seed.rules.forM (loadRule keys)
  return seed.summary

def loadText (text : String) : EngineM World SeedSummary := do
  let seed ← MonadExcept.ofExcept ((codec.parse text).mapError Refusal.ofJson)
  seed.load

def unreadable (path reason : String) : Refusal :=
  .internal s!"无法读取规则文件 {path}: {reason}"

end Seed

end Rulebook

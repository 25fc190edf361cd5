import Rulebook.Rules.Graph
import Rulebook.Text.Blank

/-!
Changes of a rule graph. A change goes through whole, or it is refused and there is no new graph.
New entities get an identifier and a time from outside.
-/

namespace Rulebook

abbrev ScriptCheck := String → Except Script.Fault Unit

abbrev Change (α : Type) := StateT RuleGraph (Except Refusal) α

def longestName : Nat := 255

def longestScript : Nat := 10000

namespace Change

def published {α : Type} (change : Change α) : Change α := do
  let value ← change
  modify fun graph => { graph with version := graph.version + 1 }
  return value

/-! What can be stored -/

/-- A text that is not blank and no longer than so many characters. -/
def requireText (field : String) (longest : Nat) (text : String) : Change Unit :=
  if (Text.trim text).isEmpty ∨ longest < text.length then
    throw (.invalid field s!"长度必须在 1 到 {longest} 个字符之间")
  else pure ()

def requireName (name : String) : Change Unit :=
  requireText "name" longestName name

def requireScript (check : ScriptCheck) (field script : String) : Change Unit := do
  requireText field longestScript script
  match check script with
  | .ok _ => pure ()
  | .error fault => throw (.ofScript field fault)

def whenGiven (requirement : String → Change Unit) : Option String → Change Unit
  | some text => requirement text
  | none => pure ()

/-- Only conditional triggers have a condition, and they do have one. -/
def requireCondition (check : ScriptCheck) (new : NewTrigger) : Change Unit :=
  match new.kind, new.condition with
  | .conditional, some script => requireScript check "condition_script" script
  | .conditional, none =>
    throw (.invalid "condition_script" "CONDITIONAL 触发器必须提供条件脚本")
  | .unconditional, some _ =>
    throw (.invalid "condition_script" "UNCONDITIONAL 触发器不能包含条件脚本")
  | .unconditional, none => pure ()

/-! Parts of changes -/

def nextSequence : Change Nat := do
  modify fun graph => { graph with lastSequence := graph.lastSequence + 1 }
  return (← get).lastSequence

def findRule (id : Uuid) : Change Rule := do
  MonadExcept.ofExcept ((← get).rule id)

def findTrigger (id : Uuid) : Change Trigger := do
  MonadExcept.ofExcept ((← get).trigger id)

def findAction (id : Uuid) : Change Action := do
  MonadExcept.ofExcept ((← get).action id)

def putRule (rule : Rule) : Change Unit :=
  modify fun graph => { graph with rules := graph.rules.put rule.id rule }

def putTrigger (trigger : Trigger) : Change Unit :=
  modify fun graph => { graph with triggers := graph.triggers.put trigger.id trigger }

def putAction (action : Action) : Change Unit :=
  modify fun graph => { graph with actions := graph.actions.put action.id action }

/-! Rules -/

def createRule (check : ScriptCheck) (id : Uuid) (now : Instant) (new : NewRule) :
    Change Rule := do
  requireName new.name
  requireScript check "script" new.script
  published do
    let sequence ← nextSequence
    let rule : Rule :=
      ⟨id, new.name, new.script, new.priority, new.enabled, [], [], now, now, sequence⟩
    putRule rule
    return rule

def applyRulePatch (patch : RulePatch) (now : Instant) (rule : Rule) : Rule :=
  { rule with
    name := patch.name.getD rule.name
    script := patch.script.getD rule.script
    priority := patch.priority.getD rule.priority
    enabled := patch.enabled.getD rule.enabled
    updatedAt := now }

/-- A patch without any field changes nothing, not even the time of the last change. -/
def updateRule (check : ScriptCheck) (now : Instant) (id : Uuid) (patch : RulePatch) :
    Change Rule := do
  whenGiven requireName patch.name
  whenGiven (requireScript check "script") patch.script
  if patch.isEmpty then findRule id
  else published do
    let rule := applyRulePatch patch now (← findRule id)
    putRule rule
    return rule

def dropTriggers (triggers : List Uuid) (graph : RuleGraph) : RuleGraph :=
  { graph with
    triggers := triggers.foldl (fun table trigger => table.erase trigger) graph.triggers
    bindings := graph.bindings.filter fun binding => !triggers.contains binding.trigger }

/-- Drops those of the actions that nothing needs any more. -/
def dropUnreferenced (candidates : List Uuid) (graph : RuleGraph) : List Uuid × RuleGraph :=
  let dropped := candidates.eraseDups.filter fun action =>
    !graph.isReferenced action && graph.actions.contains action
  (dropped, { graph with
    actions := dropped.foldl (fun table action => table.erase action) graph.actions })

/-- Deletes a rule with its triggers, their bindings, and its actions if they are its alone. -/
def deleteRule (id : Uuid) : Change RuleDeletion :=
  published do
    let rule ← findRule id
    let graph ← get
    let candidates := rule.actions ++ rule.triggers.flatMap graph.boundActions
    let without := dropTriggers rule.triggers { graph with rules := graph.rules.erase id }
    let (dropped, rest) := dropUnreferenced candidates without
    set rest
    return ⟨id, rule.triggers, dropped⟩

/-! Triggers -/

def createTrigger (check : ScriptCheck) (id : Uuid) (now : Instant) (new : NewTrigger) :
    Change Trigger := do
  requireCondition check new
  published do
    let rule ← findRule new.rule
    let trigger : Trigger := ⟨id, new.rule, new.kind, new.condition, new.enabled, now, now⟩
    putRule { rule with triggers := rule.triggers ++ [id] }
    putTrigger trigger
    return trigger

def updateTrigger (check : ScriptCheck) (now : Instant) (id : Uuid) (patch : TriggerPatch) :
    Change Trigger := do
  whenGiven (requireScript check "condition_script") patch.condition
  published do
    let trigger ← findTrigger id
    if patch.condition.isSome ∧ trigger.kind ≠ .conditional then
      throw (.invalid "condition_script" "UNCONDITIONAL 触发器不能包含条件脚本")
    let trigger := { trigger with
      condition := patch.condition.or trigger.condition
      enabled := patch.enabled.getD trigger.enabled
      updatedAt := now }
    putTrigger trigger
    return trigger

/-- Deletes a trigger; the actions that were bound to it stay. -/
def deleteTrigger (id : Uuid) : Change Unit :=
  published do
    let trigger ← findTrigger id
    modify fun graph => { graph with
      rules := graph.rules.modify trigger.rule fun rule =>
        { rule with triggers := rule.triggers.filter (· ≠ id) }
      triggers := graph.triggers.erase id
      bindings := graph.bindings.filter (·.trigger ≠ id) }

/-! Actions -/

def createAction (check : ScriptCheck) (id : Uuid) (now : Instant) (new : NewAction) :
    Change Action := do
  whenGiven requireName new.name
  requireScript check "script" new.script
  published do
    let action : Action := ⟨id, new.name, new.script, new.enabled, now, now⟩
    putAction action
    return action

def updateAction (check : ScriptCheck) (now : Instant) (id : Uuid) (patch : ActionPatch) :
    Change Action := do
  whenGiven requireName patch.name
  whenGiven (requireScript check "script") patch.script
  published do
    let action ← findAction id
    let action := { action with
      name := patch.name.or action.name
      script := patch.script.getD action.script
      enabled := patch.enabled.getD action.enabled
      updatedAt := now }
    putAction action
    return action

def deleteAction (id : Uuid) : Change Unit :=
  published do
    let _ ← findAction id
    if (← get).isReferenced id then
      throw (.conflict s!"动作 {id.toText} 仍被触发器或规则引用")
    modify fun graph => { graph with actions := graph.actions.erase id }

/-! Bindings, and the actions of rules -/

def isBound (graph : RuleGraph) (trigger action : Uuid) : Bool :=
  graph.bindings.any fun binding => binding.trigger = trigger ∧ binding.action = action

/-- Binds an action to a trigger, behind those that are bound already. -/
def bind (trigger action : Uuid) : Change Unit :=
  published do
    let _ ← findTrigger trigger
    let _ ← findAction action
    if isBound (← get) trigger action then
      throw (.conflict s!"动作 {action.toText} 已绑定到触发器 {trigger.toText}")
    let sequence ← nextSequence
    modify fun graph => { graph with
      bindings := graph.bindings ++ [⟨trigger, action, sequence⟩] }

def unbind (trigger action : Uuid) : Change Unit :=
  published do
    if !isBound (← get) trigger action then
      throw (.notFound "binding" s!"{trigger.toText}/{action.toText}")
    modify fun graph => { graph with
      bindings := graph.bindings.filter fun binding =>
        ¬ (binding.trigger = trigger ∧ binding.action = action) }

def addRuleAction (now : Instant) (rule action : Uuid) : Change Rule :=
  published do
    let _ ← findAction action
    let old ← findRule rule
    if old.actions.contains action then
      throw (.conflict s!"动作 {action.toText} 已在规则 {rule.toText} 中")
    let new := { old with actions := old.actions ++ [action], updatedAt := now }
    putRule new
    return new

def removeRuleAction (now : Instant) (rule action : Uuid) : Change Rule :=
  published do
    let old ← findRule rule
    if !old.actions.contains action then
      throw (.notFound "rule_action" s!"{rule.toText}/{action.toText}")
    let new := { old with actions := old.actions.filter (· ≠ action), updatedAt := now }
    putRule new
    return new

end Change

end Rulebook

import Rulebook.Refusal
import Rulebook.Rules.Entity
import Rulebook.Rules.Table

/-!
Rules, triggers and actions with what binds them, as one value. Whoever holds a graph sees all of
it as it was at one time.
-/

namespace Rulebook

/-- An action that a trigger runs instead of those of its rule. -/
structure Binding where
  trigger : Uuid
  action : Uuid
  sequence : Nat
  deriving DecidableEq, Inhabited

structure RuleGraph where
  /-- How many changes led to the graph. -/
  version : Nat := 0
  /-- The sequence number that was given last. -/
  lastSequence : Nat := 0
  rules : Table Rule := {}
  triggers : Table Trigger := {}
  actions : Table Action := {}
  bindings : List Binding := []
  deriving DecidableEq, Inhabited

structure GraphSize where
  version : Nat
  rules : Nat
  enabledRules : Nat
  triggers : Nat
  actions : Nat
  bindings : Nat
  deriving DecidableEq

/-- Rules of higher priority come first, then those that were made earlier. -/
def Rule.isBefore (left right : Rule) : Bool :=
  right.priority < left.priority ||
    (left.priority == right.priority && left.sequence ≤ right.sequence)

namespace RuleGraph

def rulesInOrder (graph : RuleGraph) (enabledOnly : Bool) : List Rule :=
  (graph.rules.values.filter fun rule => !enabledOnly || rule.enabled).mergeSort Rule.isBefore

/-- The actions bound to a trigger, in the order in which they were bound. -/
def boundActions (graph : RuleGraph) (trigger : Uuid) : List Uuid :=
  ((graph.bindings.filter (·.trigger = trigger)).mergeSort fun left right =>
    left.sequence ≤ right.sequence).map (·.action)

/-- The actions that run when a trigger fires: those bound to it, or else those of its rule. -/
def actionsFor (graph : RuleGraph) (trigger : Trigger) : List Action :=
  let bound := graph.boundActions trigger.id
  let ids := if bound.isEmpty then ((graph.rules.get? trigger.rule).map (·.actions)).getD []
    else bound
  ids.filterMap fun id => graph.actions.get? id

/-- Whether a trigger or a rule still needs an action. -/
def isReferenced (graph : RuleGraph) (action : Uuid) : Bool :=
  graph.bindings.any (·.action = action) ||
    graph.rules.values.any fun rule => rule.actions.contains action

def measure (graph : RuleGraph) : GraphSize where
  version := graph.version
  rules := graph.rules.size
  enabledRules := (graph.rules.values.filter (·.enabled)).length
  triggers := graph.triggers.size
  actions := graph.actions.size
  bindings := graph.bindings.length

/-! Look-ups that refuse what is not there -/

def rule (graph : RuleGraph) (id : Uuid) : Except Refusal Rule :=
  match graph.rules.get? id with
  | some rule => .ok rule
  | none => .error (.notFound "rule" id.toText)

def trigger (graph : RuleGraph) (id : Uuid) : Except Refusal Trigger :=
  match graph.triggers.get? id with
  | some trigger => .ok trigger
  | none => .error (.notFound "trigger" id.toText)

def action (graph : RuleGraph) (id : Uuid) : Except Refusal Action :=
  match graph.actions.get? id with
  | some action => .ok action
  | none => .error (.notFound "action" id.toText)

def ruleDetail (graph : RuleGraph) (id : Uuid) : Except Refusal RuleDetail := do
  let rule ← graph.rule id
  return ⟨rule, rule.triggers.filterMap fun id => graph.triggers.get? id,
    rule.actions.filterMap fun id => graph.actions.get? id⟩

/-! Listings -/

def defaultPageSize : Nat := 50

def maxPageSize : Nat := 1000

/-- Whether a flag is the one that is asked for, if one is. -/
def agrees (asked : Option Bool) (flag : Bool) : Bool :=
  match asked with
  | some value => flag == value
  | none => true

def listRules (graph : RuleGraph) (filter : RuleFilter) : List Rule :=
  let limit := min (filter.limit.getD defaultPageSize) maxPageSize
  (((graph.rulesInOrder false).filter fun rule => agrees filter.enabled rule.enabled).drop
    filter.offset).take limit

/-- What was made earlier comes first. -/
def isEarlier (left right : Instant × Uuid) : Bool :=
  match (compare left.1 right.1).then (compare left.2 right.2) with
  | .gt => false
  | _ => true

def listTriggers (graph : RuleGraph) (filter : TriggerFilter) : List Trigger :=
  let ofRule (trigger : Trigger) : Bool :=
    match filter.rule with
    | some rule => trigger.rule = rule
    | none => true
  (graph.triggers.values.filter fun trigger =>
    ofRule trigger && agrees filter.enabled trigger.enabled).mergeSort fun left right =>
      isEarlier (left.createdAt, left.id) (right.createdAt, right.id)

def listActions (graph : RuleGraph) (filter : ActionFilter) : List Action :=
  (graph.actions.values.filter fun action => agrees filter.enabled action.enabled).mergeSort
    fun left right => isEarlier (left.createdAt, left.id) (right.createdAt, right.id)

end RuleGraph

end Rulebook

import Rulebook.Evaluation.Action
import Rulebook.Rules.Graph

/-!
Evaluating an event by all enabled rules of a graph, in their order, each with one record. A rule
whose script fails does not match. What is left when the deadline passes is skipped, and all
records of the pass say so.
-/

namespace Rulebook

/-- What the triggers of a rule came to, and whether the deadline cut them short. -/
structure TriggerBatch where
  outcomes : List TriggerOutcome
  actions : List ActionOutcome
  interrupted : Bool

/-- A script's answer to a question, the fault that kept it from one, and whether that came from
the deadline. -/
structure Verdict where
  holds : Bool
  fault : Option Script.Fault
  interrupted : Bool

def answerOf (value : Json) : Except Script.Fault Bool :=
  match value with
  | .bool answer => .ok answer
  | .null => .ok false
  | other => .error (.misshapen "bool" other.typeName)

namespace Evaluator

variable {World : Type} (evaluator : Evaluator World)

def ask (stage : ScriptStage) (script : String) (context : ScriptContext) (deadline : Nat) :
    Evaluation World Verdict := do
  match (← evaluator.runScript script context deadline).bind fun output =>
      answerOf output.value with
  | .ok answer => return ⟨answer, none, false⟩
  | .error fault =>
    Evaluation.count (.scriptFailed stage fault.kind)
    return ⟨false, some fault, ← evaluator.isCutOff fault deadline⟩

def judgeTrigger (context : ScriptContext) (deadline : Nat) (trigger : Trigger) :
    Evaluation World Verdict := do
  match trigger.kind, trigger.condition with
  | .unconditional, _ => return ⟨true, none, false⟩
  | .conditional, some script => evaluator.ask .trigger script context deadline
  | .conditional, none => return ⟨false, none, false⟩

/-- Judges the enabled triggers of a matching rule and runs the actions of those that fire. -/
def judgeTriggers (graph : RuleGraph) (context : ScriptContext) (deadline : Nat) :
    List Trigger → Evaluation World TriggerBatch
  | [] => return ⟨[], [], false⟩
  | trigger :: rest => do
    if ← evaluator.isPast deadline then return ⟨[], [], true⟩
    let inner := context.withTrigger trigger.id
    let verdict ← evaluator.judgeTrigger inner deadline trigger
    Evaluation.count (.triggerEvaluated trigger.kind verdict.holds)
    let outcome : TriggerOutcome :=
      ⟨trigger.id, trigger.kind, verdict.holds, verdict.fault.map (·.toFailure)⟩
    let batch ← if verdict.holds
      then evaluator.runEnabled trigger.id inner deadline (graph.actionsFor trigger)
      else pure ⟨[], false⟩
    let others ← judgeTriggers graph context deadline rest
    return ⟨outcome :: others.outcomes, batch.outcomes ++ others.actions,
      verdict.interrupted || batch.deadlineReached || others.interrupted⟩

def enabledTriggers (graph : RuleGraph) (rule : Rule) : List Trigger :=
  (rule.triggers.filterMap fun id => graph.triggers.get? id).filter (·.enabled)

/-- Evaluates an event by one rule. The flag says whether the deadline cut it short. -/
def judgeRule (graph : RuleGraph) (event : Event) (deadline : Nat) (rule : Rule) :
    Evaluation World (ExecutionRecord × Bool) := do
  let start ← evaluator.clock
  let context := (ScriptContext.ofEvent event.payload).withRule rule.id
  let verdict ← evaluator.ask .predicate rule.script context deadline
  let batch ← if verdict.holds
    then evaluator.judgeTriggers graph context deadline (enabledTriggers graph rule)
    else pure ⟨[], [], false⟩
  let duration := milliseconds ((← evaluator.clock) - start)
  Evaluation.count (.ruleEvaluated verdict.holds)
  let id ← Evaluation.withWorld evaluator.platform.fresh
  let timestamp ← Evaluation.withWorld evaluator.platform.now
  let failure := verdict.fault.map (·.toFailure)
  return (⟨id, event.id, rule.id, rule.name, verdict.holds, failure, batch.outcomes,
    batch.actions, duration, timestamp, .completed⟩, verdict.interrupted || batch.interrupted)

def skipRule (event : Event) (rule : Rule) : Evaluation World ExecutionRecord := do
  let id ← Evaluation.withWorld evaluator.platform.fresh
  let timestamp ← Evaluation.withWorld evaluator.platform.now
  return ⟨id, event.id, rule.id, rule.name, false, none, [], [], 0, timestamp,
    .partiallyEvaluated⟩

/-- Evaluates an event by rules in a row. The flag says whether the deadline cut it short. -/
def judgeRules (graph : RuleGraph) (event : Event) (deadline : Nat) :
    List Rule → Evaluation World (List ExecutionRecord × Bool)
  | [] => return ([], false)
  | rule :: rest => do
    let (record, interrupted) ← if ← evaluator.isPast deadline
      then pure (← evaluator.skipRule event rule, true)
      else evaluator.judgeRule graph event deadline rule
    let (records, others) ← judgeRules graph event deadline rest
    return (record :: records, interrupted || others)

/-- Evaluates an event by all enabled rules, with one deadline for all of them. The clock can always
show that deadline: settings have the allowance in milliseconds that fit into a word, and the clock
counts seconds in one, with a sign, from when the system was started. -/
def evaluate (graph : RuleGraph) (event : Event) : Evaluation World (List ExecutionRecord) := do
  let deadline := (← evaluator.clock) + evaluator.allowance
  let (records, interrupted) ←
    evaluator.judgeRules graph event deadline (graph.rulesInOrder true)
  let status : EvaluationStatus := if interrupted then .partiallyEvaluated else .completed
  Evaluation.count (.eventEvaluated status)
  return records.map fun record => { record with status }

end Evaluator

end Rulebook

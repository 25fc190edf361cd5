import Rulebook.Config.Engine
import Rulebook.Evaluation.Platform

/-!
Running the actions of a trigger that fired. A failure is part of the outcome and goes no further;
what becomes of the actions behind it is a matter of policy.
-/

namespace Rulebook

structure Evaluator (World : Type) where
  platform : Platform World
  limits : Script.Limits
  policy : FailurePolicy
  /-- How long the evaluation of an event may take, in nanoseconds. -/
  allowance : Nat

/-- The outcomes of the actions of one trigger, and whether the deadline cut them short. -/
structure ActionBatch where
  outcomes : List ActionOutcome
  deadlineReached : Bool

def milliseconds (duration : Nat) : Float :=
  (Float.ofNat (duration / 1000000000) + Float.ofNat (duration % 1000000000) / 1000000000) * 1000

def Script.Limits.clamped (limits : Script.Limits) (deadline now : Nat) : Script.Limits :=
  { limits with timeout := min limits.timeout (deadline - now) }

def Script.Fault.isTimeout (fault : Script.Fault) : Bool :=
  fault.kind == .timeout

namespace Evaluator

variable {World : Type} (evaluator : Evaluator World)

def clock : Evaluation World Nat :=
  Evaluation.withWorld evaluator.platform.clock

def isPast (deadline : Nat) : Evaluation World Bool := do
  return deadline ≤ (← evaluator.clock)

def runScript (script : String) (context : ScriptContext) (deadline : Nat) :
    Evaluation World (Except Script.Fault ScriptOutput) := do
  let limits := evaluator.limits.clamped deadline (← evaluator.clock)
  Evaluation.withWorld (evaluator.platform.run script context limits)

def actionContext (context : ScriptContext) (action : Uuid) : ScriptContext :=
  { context.withAction action with capability := .effects }

/-- Whether a fault is there because the deadline passed. -/
def isCutOff (fault : Script.Fault) (deadline : Nat) : Evaluation World Bool := do
  if fault.isTimeout then evaluator.isPast deadline else return false

/-- Runs an action; the fault is given beside the outcome. -/
def runAction (trigger : Uuid) (context : ScriptContext) (deadline : Nat) (action : Action) :
    Evaluation World (ActionOutcome × Option Script.Fault) := do
  let start ← evaluator.clock
  let result ← evaluator.runScript action.script (actionContext context action.id) deadline
  let duration := milliseconds ((← evaluator.clock) - start)
  match result with
  | .ok output =>
    Evaluation.count (.actionExecuted true)
    return (⟨action.id, trigger, true, true, none, duration, output.logs⟩, none)
  | .error fault =>
    Evaluation.count (.scriptFailed .action fault.kind)
    Evaluation.count (.actionExecuted false)
    return (⟨action.id, trigger, true, false, some fault.toFailure, duration, []⟩, some fault)

def skipActions (trigger : Uuid) (actions : List Action) : List ActionOutcome :=
  actions.map fun action => .skipped action.id trigger

/-- Runs enabled actions one after the other, until the deadline or a failure stops it. -/
def runActions (trigger : Uuid) (context : ScriptContext) (deadline : Nat) :
    List Action → Evaluation World ActionBatch
  | [] => return ⟨[], false⟩
  | action :: rest => do
    if ← evaluator.isPast deadline then
      return ⟨skipActions trigger (action :: rest), true⟩
    let (outcome, fault) ← evaluator.runAction trigger context deadline action
    match fault with
    | none =>
      let batch ← runActions trigger context deadline rest
      return ⟨outcome :: batch.outcomes, batch.deadlineReached⟩
    | some fault =>
      if ← evaluator.isCutOff fault deadline then
        return ⟨outcome :: skipActions trigger rest, true⟩
      else if evaluator.policy = .abort then
        return ⟨outcome :: skipActions trigger rest, false⟩
      else
        let batch ← runActions trigger context deadline rest
        return ⟨outcome :: batch.outcomes, batch.deadlineReached⟩

def runEnabled (trigger : Uuid) (context : ScriptContext) (deadline : Nat)
    (actions : List Action) : Evaluation World ActionBatch :=
  evaluator.runActions trigger context deadline (actions.filter (·.enabled))

end Evaluator

end Rulebook

import Rulebook.Evaluation.Record

/-!
What is counted while rules are evaluated. Every metric counts in one series, and those of work
that takes time also in the series of its durations.
-/

namespace Rulebook

inductive ScriptStage where
  | predicate
  | trigger
  | action
  deriving DecidableEq, Inhabited

inductive Metric where
  | ruleEvaluated (matched : Bool)
  | triggerEvaluated (kind : TriggerKind) (fired : Bool)
  | actionExecuted (succeeded : Bool)
  | scriptFailed (stage : ScriptStage) (kind : Script.FaultKind)
  | eventEvaluated (status : EvaluationStatus)
  deriving DecidableEq, Inhabited

def ScriptStage.code : ScriptStage → String
  | .predicate => "predicate"
  | .trigger => "trigger"
  | .action => "action"

namespace Metric

def series (name : String) (labels : List (String × String)) : String :=
  let shown := labels.map fun (label, value) => label ++ "=" ++ value
  name ++ "\x7b" ++ ",".intercalate shown ++ "\x7d"

def seriesOf : Metric → List String
  | .ruleEvaluated matched =>
    [series "rule_evaluations_total" [("matched", toString matched)],
      "rule_evaluation_duration_seconds"]
  | .triggerEvaluated kind fired =>
    [series "trigger_evaluations_total" [("kind", kind.code), ("fired", toString fired)]]
  | .actionExecuted succeeded =>
    [series "action_executions_total"
        [("status", if succeeded then "success" else "failure")],
      "action_execution_duration_seconds"]
  | .scriptFailed stage kind =>
    [series "script_errors_total" [("stage", stage.code), ("kind", kind.code)]]
  | .eventEvaluated status =>
    [series "event_evaluations_total" [("status", status.code)]]

/-- How often each series was counted in, in the order of their first time. -/
def tally (metrics : List Metric) : List (String × Nat) :=
  let names := metrics.flatMap seriesOf
  names.eraseDups.map fun name => (name, names.count name)

end Metric

end Rulebook

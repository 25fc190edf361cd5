import Rulebook.Analytics.Archive
import Rulebook.Analytics.TimeRange

/-!
Statistics of the records in a time range: over all, by rule, by action, and as a trend.
-/

namespace Rulebook

structure OverallTally where
  executions : Nat := 0
  matched : Nat := 0
  errors : Nat := 0
  timeouts : Nat := 0
  exhausted : Nat := 0
  partials : Nat := 0
  triggersFired : Nat := 0
  actionsExecuted : Nat := 0
  actionsFailed : Nat := 0
  milliseconds : Float := 0

structure RuleTally where
  rule : Uuid
  name : String
  executions : Nat
  matched : Nat
  errors : Nat
  milliseconds : Float
  lastExecuted : Instant

structure ActionTally where
  action : Uuid
  executions : Nat
  failures : Nat
  milliseconds : Float

structure TrendPoint where
  start : Instant
  executions : Nat
  matched : Nat
  errors : Nat
  deriving DecidableEq

structure Tally where
  overall : OverallTally
  rules : List RuleTally
  actions : List ActionTally
  trend : List TrendPoint

structure Dashboard where
  range : TimeRange
  windowStart : Instant
  windowEnd : Instant
  overall : OverallTally
  rules : List RuleTally
  actions : List ActionTally
  trend : List TrendPoint

def tick (condition : Bool) : Nat :=
  if condition then 1 else 0

def OverallTally.add (tally : OverallTally) (record : ExecutionRecord) : OverallTally where
  executions := tally.executions + 1
  matched := tally.matched + tick record.matched
  errors := tally.errors + tick record.hasError
  timeouts := tally.timeouts + (record.failures.filter (·.kind == .timeout)).length
  exhausted := tally.exhausted + (record.failures.filter (·.kind == .exhausted)).length
  partials := tally.partials + tick (record.status == .partiallyEvaluated)
  triggersFired := tally.triggersFired + record.firedTriggers.length
  actionsExecuted := tally.actionsExecuted + record.executedActions.length
  actionsFailed :=
    tally.actionsFailed + (record.executedActions.filter (!·.succeeded)).length
  milliseconds := tally.milliseconds + record.milliseconds

def RuleTally.start (record : ExecutionRecord) : RuleTally :=
  ⟨record.rule, record.ruleName, 0, 0, 0, 0, record.timestamp⟩

def RuleTally.count (tally : RuleTally) (record : ExecutionRecord) : RuleTally :=
  { tally with
    name := record.ruleName
    executions := tally.executions + 1
    matched := tally.matched + tick record.matched
    errors := tally.errors + tick record.hasError
    milliseconds := tally.milliseconds + record.milliseconds
    lastExecuted := record.timestamp }

def RuleTally.add (record : ExecutionRecord) : List RuleTally → List RuleTally
  | [] => [(RuleTally.start record).count record]
  | first :: rest =>
    if first.rule = record.rule then first.count record :: rest
    else first :: RuleTally.add record rest

def ActionTally.count (tally : ActionTally) (outcome : ActionOutcome) : ActionTally :=
  { tally with
    executions := tally.executions + 1
    failures := tally.failures + tick (!outcome.succeeded)
    milliseconds := tally.milliseconds + outcome.milliseconds }

def ActionTally.add (outcome : ActionOutcome) : List ActionTally → List ActionTally
  | [] => [ActionTally.count ⟨outcome.action, 0, 0, 0⟩ outcome]
  | first :: rest =>
    if first.action = outcome.action then first.count outcome :: rest
    else first :: ActionTally.add outcome rest

def ActionTally.successes (tally : ActionTally) : Nat :=
  tally.executions - tally.failures

def TrendPoint.count (record : ExecutionRecord) (point : TrendPoint) : TrendPoint :=
  { point with
    executions := point.executions + 1
    matched := point.matched + tick record.matched
    errors := point.errors + tick record.hasError }

def TrendPoint.blank (start : Instant) (range : TimeRange) : List TrendPoint :=
  (List.range range.stepCount).map fun index => ⟨start.later (range.step * index), 0, 0, 0⟩

/-- The point that a record belongs to; the end of the range belongs to the last one. -/
def TrendPoint.place (start : Instant) (range : TimeRange) (record : ExecutionRecord) : Nat :=
  min ((record.timestamp.secondsSince start).toNat / range.step) (range.stepCount - 1)

def Tally.add (start : Instant) (range : TimeRange) (tally : Tally) (record : ExecutionRecord) :
    Tally where
  overall := tally.overall.add record
  rules := RuleTally.add record tally.rules
  actions := record.executedActions.foldl (fun tallies outcome => ActionTally.add outcome tallies)
    tally.actions
  trend := tally.trend.modify (TrendPoint.place start range record) (TrendPoint.count record)

/-- More executions come first, then lower identifiers. -/
def RuleTally.precedes (left right : RuleTally) : Bool :=
  right.executions < left.executions ||
    (left.executions == right.executions && left.rule.bits.toNat ≤ right.rule.bits.toNat)

def ActionTally.precedes (left right : ActionTally) : Bool :=
  right.executions < left.executions ||
    (left.executions == right.executions && left.action.bits.toNat ≤ right.action.bits.toNat)

def TimeRange.start (range : TimeRange) (now : Instant) : Instant :=
  (now.earlier? range.seconds).getD .earliest

def Archive.dashboard (archive : Archive) (range : TimeRange) (now : Instant) : Dashboard :=
  let start := range.start now
  let blank : Tally := ⟨{}, [], [], TrendPoint.blank start range⟩
  let tally := (archive.between start now).foldl (Tally.add start range) blank
  { range
    windowStart := start
    windowEnd := now
    overall := tally.overall
    rules := tally.rules.mergeSort RuleTally.precedes
    actions := tally.actions.mergeSort ActionTally.precedes
    trend := tally.trend }

/-! Rates and JSON -/

/-- A share in percent; of nothing it is zero. -/
def percent (part total : Nat) : Float :=
  if total = 0 then 0 else part.toFloat / total.toFloat * 100

def average (sum : Float) (count : Nat) : Float :=
  if count = 0 then 0 else sum / count.toFloat

def OverallTally.toJson (tally : OverallTally) : Json :=
  .ofFields [("total_executions", .int tally.executions),
    ("matched_executions", .int tally.matched),
    ("match_rate", .float (percent tally.matched tally.executions)),
    ("error_count", .int tally.errors),
    ("error_rate", .float (percent tally.errors tally.executions)),
    ("timeouts", .int tally.timeouts), ("resource_exceeded", .int tally.exhausted),
    ("partial_evaluations", .int tally.partials),
    ("average_latency_ms", .float (average tally.milliseconds tally.executions)),
    ("triggers_fired", .int tally.triggersFired),
    ("actions_executed", .int tally.actionsExecuted), ("actions_failed", .int tally.actionsFailed)]

def RuleTally.toJson (tally : RuleTally) : Json :=
  .ofFields [("rule_id", tally.rule.toJson), ("rule_name", .str tally.name),
    ("total_executions", .int tally.executions), ("matched_executions", .int tally.matched),
    ("match_rate", .float (percent tally.matched tally.executions)),
    ("errors", .int tally.errors),
    ("average_latency_ms", .float (average tally.milliseconds tally.executions)),
    ("last_executed", tally.lastExecuted.toJson)]

def ActionTally.toJson (tally : ActionTally) : Json :=
  .ofFields [("action_id", tally.action.toJson), ("executions", .int tally.executions),
    ("successes", .int tally.successes), ("failures", .int tally.failures),
    ("success_rate", .float (percent tally.successes tally.executions)),
    ("average_latency_ms", .float (average tally.milliseconds tally.executions))]

def TrendPoint.toJson (point : TrendPoint) : Json :=
  .ofFields [("timestamp", point.start.toJson), ("executions", .int point.executions),
    ("matched", .int point.matched), ("errors", .int point.errors)]

def Dashboard.toJson (dashboard : Dashboard) : Json :=
  .ofFields [("time_range", .str dashboard.range.label),
    ("window_start", dashboard.windowStart.toJson), ("window_end", dashboard.windowEnd.toJson),
    ("overall_stats", dashboard.overall.toJson),
    ("per_rule", .arr (dashboard.rules.map RuleTally.toJson)),
    ("per_action", .arr (dashboard.actions.map ActionTally.toJson)),
    ("execution_trend", .arr (dashboard.trend.map TrendPoint.toJson))]

end Rulebook

import Mathlib.Data.List.Perm.Basic
import Rulebook.Proofs.Analytics.Dashboard
import Rulebook.Proofs.Analytics.Retention
import Rulebook.Proofs.Engine.Composition
import Rulebook.Proofs.Evaluation.Counting
import Rulebook.Proofs.Evaluation.Series

/-!
An engine keeps account of its evaluations three times: in the records that it returns, in its
archive, and in its counters. The three agree, whatever else goes on between the evaluations.
-/

namespace Rulebook

variable {World Seen : Type}

/-! What goes on -/

/-- What goes on with an engine: commands, seeds, scripts that are run by themselves, dashboards and
evaluations, any of which may fail, and whatever happens in the world meanwhile. -/
inductive Activity (World Seen : Type) where
  | command (command : Command Seen)
  | load (text : String)
  | tryScript (script : String) (context : Json)
  | dashboard (range : String)
  | evaluate (event : Event)
  | meanwhile (change : World → World)

namespace Activity

/-- What an engine does, with the records that it returns. -/
def part : Activity World Seen → EngineM World (List ExecutionRecord)
  | .command given => do
    let _ ← given.perform
    return []
  | .load text => do
    let _ ← Seed.loadText text
    return []
  | .tryScript script context => do
    let _ ← Engine.tryScript script context
    return []
  | .dashboard range => do
    let _ ← Engine.dashboard range
    return []
  | .evaluate event => Engine.evaluate event
  | .meanwhile change => do
    modify fun engine => engine.within (change engine.world)
    return []

def isEvaluation : Activity World Seen → Bool
  | .evaluate _ => true
  | _ => false

/-- The pass of an evaluation, with the time at which its records were archived. -/
def passes (activity : Activity World Seen) (engine : Engine World) :
    List (Instant × Pass World) :=
  match activity with
  | .evaluate event =>
    let progress : Progress World := ⟨engine.world, engine.metrics⟩
    let (records, after) := engine.evaluator.evaluate engine.graph event progress
    [((engine.evaluator.platform.now after.world).1,
      ⟨records, engine.evaluator.observations engine.graph event progress⟩)]
  | _ => []

end Activity

/-- What comes of some activities, one after the other. -/
structure Proceedings (World : Type) where
  answers : List (Except Refusal (List ExecutionRecord))
  passes : List (Instant × Pass World)
  engine : Engine World

def Engine.proceed : List (Activity World Seen) → Engine World → Proceedings World
  | [], engine => ⟨[], [], engine⟩
  | activity :: rest, engine =>
    let reached := activity.part.run engine
    let others := proceed rest reached.2
    ⟨reached.1 :: others.answers, activity.passes engine ++ others.passes, others.engine⟩

namespace Proceedings

def returned (proceedings : Proceedings World) : List ExecutionRecord :=
  proceedings.answers.flatMap fun answer => answer.toOption.getD []

def history (proceedings : Proceedings World) : Archive.History :=
  proceedings.passes.map fun pass => (pass.1, pass.2.records)

end Proceedings

theorem Activity.answer_eq (activity : Activity World Seen) (engine : Engine World) :
    (activity.part.run engine).1.toOption.getD [] =
      (activity.passes engine).flatMap fun pass => pass.2.records := by
  have silent {α : Type} (part : EngineM World α) :
      let answer : EngineM World (List ExecutionRecord) := do
        let _ ← part
        return []
      (answer.run engine).1.toOption.getD [] = [] := by
    intro answer
    rw [EngineM.run_bind]
    generalize part.run engine = reached
    obtain ⟨_ | value, after⟩ := reached <;> rfl
  cases activity with
  | command given => exact silent _
  | load text => exact silent _
  | tryScript script context => exact silent _
  | dashboard range => exact silent _
  | evaluate event => exact (List.flatMap_singleton _ _).symm
  | meanwhile change => exact silent _

/-- The records that are returned are those of the passes. -/
theorem Engine.proceed_returned (engine : Engine World) (activities : List (Activity World Seen)) :
    let reached := engine.proceed activities
    reached.returned = reached.passes.flatMap fun pass => pass.2.records := by
  induction activities generalizing engine with
  | nil => rfl
  | cons activity rest ih =>
      let between := (activity.part.run engine).2
      change (activity.part.run engine).1.toOption.getD [] ++ (between.proceed rest).returned = _
      rw [activity.answer_eq, ih between, ← List.flatMap_append]
      rfl

/-! Keeping the books -/

/-- The archive and the counters of an engine say of some passes what there is to say. -/
structure Engine.AccountsFor (retention : Duration) (passes : List (Instant × Pass World))
    (engine : Engine World) : Prop where
  archive : engine.archive =
    Archive.recorded retention (passes.map fun pass => (pass.1, pass.2.records))
  metrics : engine.metrics.Perm (passes.flatMap fun pass => pass.2.metrics)
  keyed : engine.graph.IsKeyed

namespace Activity

theorem part_evolves {activity : Activity World Seen} (other : activity.isEvaluation = false)
    (engine : Engine World) (keyed : engine.graph.IsKeyed) :
    engine.Evolves false (fun _ => True) RuleGraph.IsKeyed (activity.part.run engine).2 := by
  have kept : engine.evaluator.platform.Keeps (fun _ => True) fun _ => True :=
    ⟨fun _ _ _ _ _ _ => trivial, fun _ _ => trivial, fun _ _ => trivial, fun _ _ => trivial⟩
  have evolves {part : EngineM World (List ExecutionRecord)}
      (composed : Composed false (fun _ => True) part) :
      engine.Evolves false (fun _ => True) RuleGraph.IsKeyed (part.run engine).2 :=
    composed.evolves kept (fun _ _ => trivial) (fun keyed _ done => keyed.outcome done) engine rfl
      trivial keyed
  cases activity with
  | command given => exact evolves (given.perform_composed.answer _)
  | load text => exact evolves ((Seed.loadText_composed text).answer _)
  | tryScript script context => exact evolves ((Composed.tryScript script context).answer _)
  | dashboard range => exact evolves ((Composed.dashboard range).answer _)
  | evaluate event => cases other
  | meanwhile change => exact ⟨rfl, trivial, keyed, fun _ => ⟨rfl, rfl⟩⟩

/-- Apart from evaluations, nothing is archived or counted, and no pass is made. -/
theorem books_unchanged {activity : Activity World Seen} (other : activity.isEvaluation = false)
    (engine : Engine World) (keyed : engine.graph.IsKeyed) :
    let next := (activity.part.run engine).2
    activity.passes engine = [] ∧ next.archive = engine.archive ∧
      next.metrics = engine.metrics := by
  obtain ⟨archive, metrics⟩ := (part_evolves other engine keyed).books rfl
  refine ⟨?_, archive, metrics⟩
  cases activity with
  | evaluate event => cases other
  | _ => rfl

end Activity

namespace Engine.AccountsFor

variable {retention : Duration} {passes : List (Instant × Pass World)} {engine : Engine World}

theorem create (platform : Platform World) (settings : EngineSettings) (world : World) :
    (Engine.create platform settings world).AccountsFor settings.retention [] :=
  ⟨rfl, .nil, .empty⟩

theorem evaluate (accounts : engine.AccountsFor retention passes) (event : Event) :
    let activity : Activity World Seen := .evaluate event
    (activity.part.run engine).2.AccountsFor retention (passes ++ activity.passes engine) := by
  intro activity
  let progress : Progress World := ⟨engine.world, engine.metrics⟩
  let reached := engine.evaluator.evaluate engine.graph event progress
  let pass : Pass World :=
    ⟨reached.1, engine.evaluator.observations engine.graph event progress⟩
  have made : activity.passes engine =
      [((engine.evaluator.platform.now reached.2.world).1, pass)] := rfl
  obtain ⟨seen, counted, watched, metrics, perm⟩ :=
    engine.evaluator.evaluate_accounts event accounts.keyed.rules progress []
  have observed : pass.seen = seen := by
    change engine.evaluator.observations engine.graph event progress = seen
    rw [Evaluator.observations, watched]
    exact List.nil_append seen
  have anew : counted.reverse.Perm pass.metrics := by
    rw [← observed] at perm
    exact (List.reverse_perm counted).trans perm
  change ((Engine.evaluate event).run engine).2.AccountsFor retention _
  rw [Engine.evaluate_run, made]
  refine ⟨?_, ?_, accounts.keyed⟩
  · rw [List.map_append, accounts.archive]
    exact (Archive.recorded_append _ _ _ _).symm
  · change reached.2.metrics.Perm _
    rw [metrics, List.flatMap_append, List.flatMap_singleton]
    exact (anew.append accounts.metrics).trans List.perm_append_comm

/-- Whatever goes on, an engine goes on to account for its passes. -/
theorem step (accounts : engine.AccountsFor retention passes) (activity : Activity World Seen) :
    (activity.part.run engine).2.AccountsFor retention (passes ++ activity.passes engine) := by
  cases kind : activity.isEvaluation with
  | true =>
      cases activity with
      | evaluate event => exact accounts.evaluate event
      | _ => cases kind
  | false =>
      obtain ⟨none, archive, metrics⟩ := activity.books_unchanged kind engine accounts.keyed
      rw [none, List.append_nil]
      exact ⟨archive.trans accounts.archive, metrics ▸ accounts.metrics,
        (activity.part_evolves kind engine accounts.keyed).graph⟩

theorem proceed (accounts : engine.AccountsFor retention passes)
    (activities : List (Activity World Seen)) :
    let reached := engine.proceed activities
    reached.engine.AccountsFor retention (passes ++ reached.passes) := by
  induction activities generalizing engine passes with
  | nil =>
      change engine.AccountsFor retention (passes ++ [])
      rwa [List.append_nil]
  | cons activity rest ih =>
      have later := ih (accounts.step activity)
      simp only [List.append_assoc] at later
      exact later

end Engine.AccountsFor

/-! What the books say -/

/-- The failures of a record at a stage of its evaluation. -/
def ExecutionRecord.failuresAt (record : ExecutionRecord) : ScriptStage → List Script.Failure
  | .predicate => record.error.toList
  | .trigger => record.triggers.filterMap (·.error)
  | .action => record.actions.filterMap (·.error)

open Rulebook.Metric in
/-- What the counters of an engine say of its passes. -/
structure Engine.CountsFor (passes : List (Pass World)) (engine : Engine World) : Prop where
  /-- Rules count if their own script was run. -/
  rules : ∀ matched,
    total engine.metrics (series "rule_evaluations_total" [("matched", toString matched)]) =
      (passes.flatMap (·.judged)).countP (·.matched == matched)
  triggers : ∀ kind fired,
    total engine.metrics (series "trigger_evaluations_total"
        [("kind", kind.code), ("fired", toString fired)]) =
      ((passes.flatMap (·.records)).flatMap (·.triggers)).countP fun outcome =>
        outcome.kind == kind && outcome.fired == fired
  /-- Actions count if they were executed. -/
  actions : ∀ succeeded,
    total engine.metrics (series "action_executions_total"
        [("status", if succeeded then "success" else "failure")]) =
      (((passes.flatMap (·.records)).flatMap (·.actions)).filter (·.executed)).countP
        (·.succeeded == succeeded)
  failures : ∀ stage kind,
    total engine.metrics (series "script_errors_total"
        [("stage", stage.code), ("kind", kind.code)]) =
      ((passes.flatMap (·.records)).flatMap (·.failuresAt stage)).countP (·.kind == kind)
  events : ∀ status,
    total engine.metrics (series "event_evaluations_total" [("status", status.code)]) =
      passes.countP (·.status == status)

/-! What is counted, sorted by what it is counted for -/

def failed (stage : ScriptStage) (failures : List Script.Failure) : List Metric :=
  failures.map fun failure => .scriptFailed stage failure.kind

def judgedTriggers (triggers : List TriggerOutcome) : List Metric :=
  triggers.map fun outcome => .triggerEvaluated outcome.kind outcome.fired

def executed (actions : List ActionOutcome) : List Metric :=
  (actions.filter (·.executed)).map fun outcome => .actionExecuted outcome.succeeded

theorem failed_flatMap {α : Type} (stage : ScriptStage) (values : List α)
    (failures : α → List Script.Failure) :
    failed stage (values.flatMap failures) =
      values.flatMap fun value => failed stage (failures value) :=
  List.map_flatMap

theorem triggers_metrics (triggers : List TriggerOutcome) :
    (triggers.flatMap TriggerOutcome.metrics).Perm
      (failed .trigger (triggers.filterMap (·.error)) ++ judgedTriggers triggers) := by
  rw [List.filterMap_eq_flatMap_toList, failed_flatMap, judgedTriggers, List.map_eq_flatMap]
  exact (List.flatMap_append_perm _ _ _).symm

theorem actions_metrics (actions : List ActionOutcome) :
    (actions.flatMap ActionOutcome.metrics).Perm
      (failed .action (actions.filterMap (·.error)) ++ executed actions) := by
  have ran : executed actions = actions.flatMap fun outcome =>
      if outcome.executed then [.actionExecuted outcome.succeeded] else [] := by
    induction actions with
    | nil => rfl
    | cons first rest ih =>
        rw [List.flatMap_cons, ← ih]
        cases held : first.executed <;> simp [executed, held]
  rw [List.filterMap_eq_flatMap_toList, failed_flatMap, ran]
  exact (List.flatMap_append_perm _ _ _).symm

theorem flatMap_append₃_perm {α β : Type} (values : List α) (first second third : α → List β) :
    (values.flatMap fun value => first value ++ second value ++ third value).Perm
      (values.flatMap first ++ values.flatMap second ++ values.flatMap third) :=
  (List.flatMap_append_perm values _ third).symm.trans
    ((List.flatMap_append_perm values first second).symm.append_right _)

/-- What is counted for records, sorted by what it is counted for. -/
def ExecutionRecord.sortedMetrics (records : List ExecutionRecord) : List Metric :=
  failed .predicate (records.flatMap (·.failuresAt .predicate)) ++
    failed .trigger (records.flatMap (·.failuresAt .trigger)) ++
    failed .action (records.flatMap (·.failuresAt .action)) ++
    judgedTriggers (records.flatMap (·.triggers)) ++ executed (records.flatMap (·.actions))

theorem ExecutionRecord.metrics_perm (records : List ExecutionRecord) :
    (records.flatMap ExecutionRecord.metrics).Perm (sortedMetrics records) := by
  have triggers := triggers_metrics (records.flatMap (·.triggers))
  have actions := actions_metrics (records.flatMap (·.actions))
  have parts := flatMap_append₃_perm records
    (fun record => failed .predicate (record.failuresAt .predicate))
    (fun record => record.triggers.flatMap TriggerOutcome.metrics)
    (fun record => record.actions.flatMap ActionOutcome.metrics)
  rw [← failed_flatMap, ← List.flatMap_assoc, ← List.flatMap_assoc] at parts
  have sorted := parts.trans ((triggers.append_left _).append actions)
  refine sorted.trans (perm_of_counts fun metric => ?_)
  simp only [sortedMetrics, List.count_append, List.filterMap_flatMap, failuresAt]
  omega

theorem Pass.metrics_perm (passes : List (Pass World)) :
    (passes.flatMap Pass.metrics).Perm
      ((passes.flatMap (·.judged)).map (fun record => .ruleEvaluated record.matched) ++
        ExecutionRecord.sortedMetrics (passes.flatMap (·.records)) ++
        passes.map fun pass => .eventEvaluated pass.status) := by
  have parts := flatMap_append₃_perm passes
    (fun pass => pass.judged.map fun record => Metric.ruleEvaluated record.matched)
    (fun pass => pass.records.flatMap ExecutionRecord.metrics)
    (fun pass => [Metric.eventEvaluated pass.status])
  rw [← List.map_flatMap, ← List.flatMap_assoc, ← List.map_eq_flatMap] at parts
  refine parts.trans ?_
  exact ((ExecutionRecord.metrics_perm _).append_left _).append_right _

theorem count_map_same {α : Type} {form : α → Metric} {metric : Metric} {test : α → Bool}
    (same : ∀ value, form value = metric ↔ test value = true) (values : List α) :
    (values.map form).count metric = values.countP test := by
  rw [List.count, List.countP_map]
  refine List.countP_congr fun value _ => ?_
  rw [Function.comp_apply, beq_iff_eq]
  exact same value

theorem count_map_other {α : Type} {form : α → Metric} {metric : Metric}
    (other : ∀ value, form value ≠ metric) (values : List α) :
    (values.map form).count metric = 0 :=
  List.count_eq_zero.mpr fun held => by
    obtain ⟨value, _, same⟩ := List.mem_map.mp held
    exact other value same

open Rulebook.Metric in
theorem Engine.CountsFor.of_perm {passes : List (Pass World)} {engine : Engine World}
    (counted : engine.metrics.Perm (passes.flatMap Pass.metrics)) : engine.CountsFor passes := by
  have sorted := counted.trans (Pass.metrics_perm passes)
  have number (metric : Metric) {count : Nat} (same : List.count metric _ = count) :
      total engine.metrics metric.counter = count :=
    (total_counter engine.metrics metric).trans ((sorted.count_eq metric).trans same)
  simp only [ExecutionRecord.sortedMetrics, failed, judgedTriggers, executed, List.count_append]
    at number
  refine {
    rules := fun matched => number (.ruleEvaluated matched) ?_
    triggers := fun kind fired => number (.triggerEvaluated kind fired) ?_
    actions := fun succeeded => number (.actionExecuted succeeded) ?_
    failures := fun stage kind => number (.scriptFailed stage kind) ?failed
    events := fun status => number (.eventEvaluated status) ?_ }
  case' failed => cases stage
  -- All parts but the one that is looked for count for nothing.
  all_goals
    simp only [count_map_other, ne_eq, reduceCtorEq, not_false_eq_true, implies_true, Nat.add_zero,
      Nat.zero_add, scriptFailed.injEq, false_and]
    exact count_map_same (by simp) _

/-- What an overall tally says of records, in whatever order they come. -/
structure OverallTally.Sums (records : List ExecutionRecord) (tally : OverallTally) : Prop where
  executions : tally.executions = records.length
  matched : tally.matched = records.countP (·.matched)
  triggersFired : tally.triggersFired = (records.flatMap (·.triggers)).countP (·.fired)
  actionsExecuted : tally.actionsExecuted = (records.flatMap (·.actions)).countP (·.executed)
  actionsFailed : tally.actionsFailed =
    (records.flatMap (·.actions)).countP fun outcome => outcome.executed && !outcome.succeeded

theorem OverallTally.Reflects.sums {window records : List ExecutionRecord} {tally : OverallTally}
    (reflects : tally.Reflects window) (same : window.Perm records) : tally.Sums records where
  executions := reflects.executions.trans same.length_eq
  matched := reflects.matched.trans (same.countP_eq _)
  triggersFired := reflects.triggersFired.trans ((same.flatMap_right _).countP_eq _)
  actionsExecuted := reflects.actionsExecuted.trans ((same.flatMap_right _).countP_eq _)
  actionsFailed := reflects.actionsFailed.trans ((same.flatMap_right _).countP_eq _)

/-- Whether the window of a dashboard covers all of some records. -/
def Dashboard.Covers (dashboard : Dashboard) (records : List ExecutionRecord) : Prop :=
  ∀ record ∈ records, (dashboard.windowStart.isAtMost record.timestamp &&
    record.timestamp.isAtMost dashboard.windowEnd) = true

instance (dashboard : Dashboard) (records : List ExecutionRecord) :
    Decidable (dashboard.Covers records) :=
  inferInstanceAs (Decidable (∀ record ∈ records, _))

theorem Engine.dashboard_sums {engine : Engine World} {records : List ExecutionRecord}
    (ordered : ExecutionRecord.AreOrdered engine.archive.records)
    (held : engine.archive.records.Perm records) {range : String} {dashboard : Dashboard}
    (shown : ((Engine.dashboard range).run engine).1 = .ok dashboard)
    (covers : dashboard.Covers records) : dashboard.overall.Sums records := by
  rw [dashboard_run] at shown
  cases parsed : TimeRange.parse range with
  | error refusal =>
      rw [parsed] at shown
      cases shown
  | ok range =>
      rw [parsed] at shown
      cases shown
      have reflects := Archive.dashboard_reflects range
        (engine.evaluator.platform.now engine.world).1 ordered
      refine reflects.overall.sums (List.Perm.trans (.of_eq ?_) held)
      exact List.filter_eq_self.mpr fun record member => covers record (held.mem_iff.mp member)

/-- Whatever goes on with an engine, its counters say what its passes came to, and its passes are
those whose records it returned. As long as the archive drops no record and no two records are of
one identifier, the archive holds all of them, and dashboards that cover them sum them up. What is
no evaluation changes neither the archive nor the counters, if it is refused or not. -/
theorem accountings_agree (platform : Platform World) (settings : EngineSettings) (world : World)
    (activities : List (Activity World Seen)) :
    let reached := (Engine.create platform settings world).proceed activities
    reached.returned = reached.passes.flatMap (fun pass => pass.2.records) ∧
      reached.engine.CountsFor (reached.passes.map (·.2)) ∧
      ((reached.returned.map (·.id)).Nodup → reached.history.KeepsAll settings.retention →
        reached.engine.archive.records.Perm reached.returned ∧
        ∀ range dashboard, ((Engine.dashboard range).run reached.engine).1 = .ok dashboard →
          dashboard.Covers reached.returned → dashboard.overall.Sums reached.returned) ∧
      ∀ activity : Activity World Seen, activity.isEvaluation = false →
        let next := (activity.part.run reached.engine).2
        next.archive = reached.engine.archive ∧ next.metrics = reached.engine.metrics := by
  intro reached
  have accounts : reached.engine.AccountsFor settings.retention reached.passes :=
    (Engine.AccountsFor.create platform settings world).proceed activities
  have returned := (Engine.create platform settings world).proceed_returned activities
  refine ⟨returned, .of_perm ?_, ?_, ?_⟩
  · rw [List.flatMap_map]
    exact accounts.metrics
  · intro distinct keepsAll
    have passed : Archive.passed reached.history = reached.returned := by
      rw [returned, Archive.passed, Proceedings.history, List.flatMap_map]
    have held : reached.engine.archive.records.Perm reached.returned := by
      rw [accounts.archive, ← passed]
      exact Archive.recorded_perm (passed ▸ distinct) keepsAll
    have ordered : ExecutionRecord.AreOrdered reached.engine.archive.records := by
      rw [accounts.archive]
      exact Archive.recorded_ordered _ _
    exact ⟨held, fun range dashboard shown covers =>
      Engine.dashboard_sums ordered held shown covers⟩
  · intro activity other
    exact (activity.books_unchanged other reached.engine accounts.keyed).2

/-- A platform that numbers everything. Rules say yes, and actions fail. -/
def countingPlatform : Platform Nat where
  check := fun _ _ => .ok ()
  run := fun _ context _ number =>
    match context.capability with
    | .readOnly => (.ok ⟨.bool true, []⟩, number)
    | .effects => (.error (.runtime "no"), number)
  clock := fun number => (number, number + 1)
  now := fun number => (⟨1000 + number, 0⟩, number + 1)
  fresh := fun number => (⟨number⟩, number + 1)

def failingEvent : Activity Nat Nat :=
  .evaluate ⟨⟨5⟩, .null, ⟨0, 0⟩⟩

/-- Two evaluations with a script and a refused command between them. -/
def failingActivities : List (Activity Nat Nat) :=
  [.command (.createRule ⟨"r", "true", 0, true⟩),
    .command (.createTrigger ⟨⟨0⟩, .unconditional, none, true⟩),
    .command (.createAction ⟨none, "fail()", true⟩), .command (.bind ⟨2⟩ ⟨4⟩), failingEvent,
    .tryScript "true" .null, .command (.deleteRule ⟨99⟩), failingEvent]

theorem failingActivities_accounted :
    let reached := (Engine.create countingPlatform {} 0).proceed failingActivities
    (reached.returned.map (·.id)).Nodup ∧
      reached.history.KeepsAll ({} : EngineSettings).retention ∧
      reached.engine.archive.records.Perm reached.returned ∧
      (∃ dashboard, ((Engine.dashboard "1h").run reached.engine).1 = .ok dashboard ∧
        dashboard.Covers reached.returned ∧ dashboard.overall.Sums reached.returned) ∧
      reached.returned.length = 2 ∧
      Metric.total reached.engine.metrics "action_executions_total\x7bstatus=failure\x7d" = 2 ∧
      ∀ activity : Activity Nat Nat, activity.isEvaluation = false →
        (activity.part.run reached.engine).2.archive = reached.engine.archive := by
  intro reached
  have distinct : (reached.returned.map (·.id)).Nodup := by decide +kernel
  have keepsAll : reached.history.KeepsAll ({} : EngineSettings).retention := by decide +kernel
  have same : (Engine.create countingPlatform {} 0).proceed failingActivities = reached := rfl
  have agree := accountings_agree countingPlatform {} 0 failingActivities
  rw [same] at agree
  obtain ⟨_, counts, held, others⟩ := agree
  obtain ⟨perm, sums⟩ := held distinct keepsAll
  have covered : ((Engine.dashboard "1h").run reached.engine).1.toOption.any
      fun dashboard => decide (dashboard.Covers reached.returned) := by decide +kernel
  have two : reached.returned.length = 2 := by decide +kernel
  have failed : (((reached.passes.map (·.2)).flatMap (·.records)).flatMap (·.actions)
    |>.filter (·.executed)).countP (·.succeeded == false) = 2 := by decide +kernel
  refine ⟨distinct, keepsAll, perm, ?_, two, (counts.actions false).trans failed,
    fun activity other => (others activity other).1⟩
  cases shown : ((Engine.dashboard "1h").run reached.engine).1 with
  | error refusal =>
      rw [shown] at covered
      cases covered
  | ok dashboard =>
      rw [shown] at covered
      have covers : dashboard.Covers reached.returned := of_decide_eq_true covered
      exact ⟨dashboard, rfl, covers, sums _ _ shown covers⟩

end Rulebook

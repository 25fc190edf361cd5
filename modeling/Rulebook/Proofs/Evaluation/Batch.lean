import Mathlib.Data.List.Infix
import Rulebook.Proofs.Evaluation.Acting

/-!
What is reported of the actions of one trigger, however the clock goes and whatever their scripts
come to: those that were executed, in order and each by a run of its own, and then those that were
not. There is a reason for the latter, and it lies with the actions of this trigger.
-/

namespace Rulebook

variable {World : Type}

/-- An action that was executed, the run of its script, and what is reported of it. -/
structure Execution (World : Type) where
  action : Action
  run : ScriptRun World
  outcome : ActionOutcome

structure Execution.IsFaithful (evaluator : Evaluator World) (trigger : Uuid)
    (context : ScriptContext) (execution : Execution World) : Prop where
  run : execution.run.IsOf evaluator execution.action.script
    (Evaluator.actionContext context execution.action.id)
  action : execution.outcome.action = execution.action.id
  trigger : execution.outcome.trigger = trigger
  executed : execution.outcome.executed = true
  succeeded : execution.outcome.succeeded = execution.run.result.isOk
  error : execution.outcome.error =
    match execution.run.result with
    | .ok _ => none
    | .error fault => some fault.toFailure
  logs : execution.outcome.logs = logsOf execution.run.result

def Execution.Succeed (executions : List (Execution World)) : Prop :=
  ∀ execution ∈ executions, execution.outcome.succeeded = true

/-- The last of the executed actions failed, and only that one. -/
def Execution.EndInFailure (executions : List (Execution World)) : Prop :=
  ∃ before last, executions = before ++ [last] ∧ last.outcome.succeeded = false ∧
    Execution.Succeed before

/-- What a batch says of actions: some were executed, and the others are left. -/
structure ActionBatch.Reports (batch : ActionBatch) (evaluator : Evaluator World)
    (deadline : Nat) (trigger : Uuid) (context : ScriptContext) (actions : List Action)
    (seen : List (Observation World)) (executions : List (Execution World))
    (left : List Action) : Prop where
  actions : actions = executions.map (·.action) ++ left
  outcomes : batch.outcomes =
    executions.map (·.outcome) ++ left.map fun action => .skipped action.id trigger
  /-- No script was run but for the executed actions. -/
  runs : scriptRuns seen = executions.map (·.run)
  faithful : ∀ execution ∈ executions, execution.IsFaithful evaluator trigger context
  stopped : left ≠ [] → batch.deadlineReached = true ∨
    (evaluator.policy = .abort ∧ Execution.EndInFailure executions)
  goesOn : evaluator.policy = .goOn → batch.deadlineReached = false → left = []
  aborts : evaluator.policy = .abort → batch.deadlineReached = false →
    (left = [] ∧ Execution.Succeed executions) ∨ Execution.EndInFailure executions
  inTime : InTime deadline seen → batch.deadlineReached = false

/-! What a batch reports -/

theorem scriptRuns_alone {before middle after : List (Observation World)}
    (quietBefore : scriptRuns before = []) (quietAfter : scriptRuns after = []) :
    scriptRuns (before ++ middle ++ after) = scriptRuns middle := by
  rw [scriptRuns_append, scriptRuns_append, quietBefore, quietAfter, List.nil_append,
    List.append_nil]

namespace Execution

variable {evaluator : Evaluator World} {deadline : Nat} {trigger : Uuid} {context : ScriptContext}
  {execution : Execution World} {executions : List (Execution World)}

theorem Succeed.cons (succeeded : execution.outcome.succeeded = true)
    (others : Succeed executions) : Succeed (execution :: executions) :=
  List.forall_mem_cons.mpr ⟨succeeded, others⟩

theorem EndInFailure.single (failed : execution.outcome.succeeded = false) :
    EndInFailure [execution] :=
  ⟨[], execution, rfl, failed, fun _ held => nomatch held⟩

theorem EndInFailure.cons (succeeded : execution.outcome.succeeded = true)
    (others : EndInFailure executions) : EndInFailure (execution :: executions) := by
  obtain ⟨before, last, rfl, failed, fine⟩ := others
  exact ⟨execution :: before, last, rfl, failed, .cons succeeded fine⟩

theorem ofCourse {action : Action} {outcome : ActionOutcome} {fault : Option Script.Fault}
    {seen : List (Observation World)}
    (course : Evaluator.ActionCourse evaluator deadline trigger context action outcome fault seen) :
    ∃ execution : Execution World, execution.action = action ∧ execution.outcome = outcome ∧
      scriptRuns seen = [execution.run] ∧ execution.IsFaithful evaluator trigger context ∧
      outcome.succeeded = fault.isNone := by
  obtain ⟨run, duration, runs, ofScript, came⟩ := course.run
  refine ⟨⟨action, run, outcome⟩, rfl, rfl, runs, ?_⟩
  cases fault with
  | none =>
      obtain ⟨output, result, rfl⟩ := came
      exact ⟨⟨ofScript, rfl, rfl, rfl, by simp [result, Except.isOk, Except.toBool],
        by simp [result], by simp [result, logsOf]⟩, rfl⟩
  | some fault =>
      obtain ⟨result, rfl⟩ := came
      exact ⟨⟨ofScript, rfl, rfl, rfl, by simp [result, Except.isOk, Except.toBool],
        by simp [result], by simp [result, logsOf]⟩, rfl⟩

end Execution

namespace ActionBatch.Reports

variable {evaluator : Evaluator World} {deadline : Nat} {trigger : Uuid} {context : ScriptContext}
  {batch : ActionBatch} {actions left : List Action} {executions : List (Execution World)}
  {seen : List (Observation World)}

theorem cons {execution : Execution World} {first : List (Observation World)}
    (reports : batch.Reports evaluator deadline trigger context actions seen executions left)
    (faithful : execution.IsFaithful evaluator trigger context)
    (ran : scriptRuns first = [execution.run])
    (goesOn : evaluator.policy = .abort → execution.outcome.succeeded = true) :
    ActionBatch.Reports ⟨execution.outcome :: batch.outcomes, batch.deadlineReached⟩ evaluator
      deadline trigger context (execution.action :: actions) (first ++ seen)
      (execution :: executions) left where
  actions := congrArg (List.cons execution.action) reports.actions
  outcomes := congrArg (List.cons execution.outcome) reports.outcomes
  runs := by rw [scriptRuns_append, ran, reports.runs]; rfl
  faithful := List.forall_mem_cons.mpr ⟨faithful, reports.faithful⟩
  stopped := fun some =>
    (reports.stopped some).imp_right fun failed => ⟨failed.1, failed.2.cons (goesOn failed.1)⟩
  goesOn := reports.goesOn
  aborts := fun aborts notReached =>
    (reports.aborts aborts notReached).imp
      (fun fine => ⟨fine.1, fine.2.cons (goesOn aborts)⟩) fun failed => failed.cons (goesOn aborts)
  inTime := fun inTime => reports.inTime (inTime_append.mp inTime).2

theorem last {execution : Execution World} {cut : Bool}
    (faithful : execution.IsFaithful evaluator trigger context)
    (failed : execution.outcome.succeeded = false)
    (ran : scriptRuns seen = [execution.run])
    (reason : cut = false → evaluator.policy = .abort)
    (inTime : InTime deadline seen → cut = false) :
    ActionBatch.Reports ⟨execution.outcome :: Evaluator.skipActions trigger left, cut⟩ evaluator
      deadline trigger context (execution.action :: left) seen [execution] left where
  actions := rfl
  outcomes := rfl
  runs := ran
  faithful := List.forall_mem_singleton.mpr faithful
  stopped := fun _ => by
    cases cut with
    | true => exact .inl rfl
    | false => exact .inr ⟨reason rfl, .single failed⟩
  goesOn := fun goesOn notReached => by
    rw [reason notReached] at goesOn
    cases goesOn
  aborts := fun _ _ => .inr (.single failed)
  inTime := inTime

theorem ofCourse
    (course : Evaluator.ActionsCourse evaluator deadline trigger context actions batch seen) :
    ∃ executions left,
      batch.Reports evaluator deadline trigger context actions seen executions left := by
  -- That a batch which is in time is not cut is known of whole courses, so it is noted first.
  have uncut := course.uncut
  induction course with
  | done =>
      exact ⟨[], [], {
        actions := rfl
        outcomes := rfl
        runs := rfl
        faithful := fun _ held => nomatch held
        stopped := fun some => absurd rfl some
        goesOn := fun _ _ => rfl
        aborts := fun _ _ => .inl ⟨rfl, fun _ held => nomatch held⟩
        inTime := uncut }⟩
  | late checked =>
      exact ⟨[], _, {
        actions := rfl
        outcomes := rfl
        runs := checked.noRuns
        faithful := fun _ held => nomatch held
        stopped := fun _ => .inl rfl
        goesOn := fun _ notReached => nomatch notReached
        aborts := fun _ notReached => nomatch notReached
        inTime := uncut }⟩
  | succeeded checked ran others ih =>
      obtain ⟨execution, rfl, rfl, runs, faithful, succeeded⟩ := Execution.ofCourse ran
      obtain ⟨executions, left, reports⟩ := ih others.uncut
      refine ⟨_, _, reports.cons faithful ?_ fun _ => succeeded⟩
      rw [scriptRuns_append, checked.noRuns, runs, List.nil_append]
  | cutOff checked ran cutOff =>
      obtain ⟨execution, rfl, rfl, runs, faithful, failed⟩ := Execution.ofCourse ran
      have ran := (scriptRuns_alone checked.noRuns cutOff.noRuns).trans runs
      exact ⟨_, _, last faithful failed ran (fun notReached => nomatch notReached) uncut⟩
  | aborted checked ran cutOff aborts =>
      obtain ⟨execution, rfl, rfl, runs, faithful, failed⟩ := Execution.ofCourse ran
      have ran := (scriptRuns_alone checked.noRuns cutOff.noRuns).trans runs
      exact ⟨_, _, last faithful failed ran (fun _ => aborts) uncut⟩
  | failed checked ran cutOff goesOn others ih =>
      obtain ⟨execution, rfl, rfl, runs, faithful, _⟩ := Execution.ofCourse ran
      obtain ⟨executions, left, reports⟩ := ih others.uncut
      have ran := (scriptRuns_alone checked.noRuns cutOff.noRuns).trans runs
      exact ⟨_, _, reports.cons faithful ran fun aborts => absurd aborts goesOn⟩

theorem ids
    (reports : batch.Reports evaluator deadline trigger context actions seen executions left) :
    batch.outcomes.map (·.action) = actions.map (·.id) := by
  have executed : executions.map (fun execution => execution.outcome.action) =
      executions.map fun execution => execution.action.id :=
    List.map_congr_left fun execution held => (reports.faithful execution held).action
  rw [reports.outcomes, reports.actions]
  simp only [List.map_append, List.map_map, Function.comp_def, executed, ActionOutcome.skipped]

theorem unexecuted {outcome : ActionOutcome}
    (reports : batch.Reports evaluator deadline trigger context actions seen executions left)
    (held : outcome ∈ batch.outcomes) (notDone : outcome.executed = false) :
    ¬ InTime deadline seen ∨ (evaluator.policy = .abort ∧
      ∃ failure ∈ batch.outcomes, failure.executed = true ∧ failure.succeeded = false) := by
  have someLeft : left ≠ [] := by
    rintro rfl
    rw [reports.outcomes, List.map_nil, List.append_nil] at held
    obtain ⟨execution, member, rfl⟩ := List.mem_map.mp held
    rw [(reports.faithful execution member).executed] at notDone
    cases notDone
  rcases reports.stopped someLeft with reached | ⟨aborts, before, last, rfl, failed, _⟩
  · refine .inl fun inTime => ?_
    rw [reports.inTime inTime] at reached
    cases reached
  · have lastHeld : last ∈ before ++ [last] := by simp
    refine .inr ⟨aborts, last.outcome, ?_, (reports.faithful last lastHeld).executed, failed⟩
    rw [reports.outcomes]
    exact List.mem_append_left _ (List.mem_map_of_mem lastHeld)

end ActionBatch.Reports

/-! The batches of a pass -/

/-- A trigger that fired, what is reported of its actions, and what was seen of them. -/
structure Volley (World : Type) where
  trigger : Trigger
  batch : ActionBatch
  seen : List (Observation World)

structure Volley.IsReported (evaluator : Evaluator World) (graph : RuleGraph) (deadline : Nat)
    (context : ScriptContext) (volley : Volley World) : Prop where
  reports : ∃ executions left, volley.batch.Reports evaluator deadline volley.trigger.id
    (context.withTrigger volley.trigger.id)
    ((graph.actionsFor volley.trigger).filter (·.enabled)) volley.seen executions left
  /-- Only its own actions, and the clock, keep an action from being executed. -/
  alone : ∀ outcome ∈ volley.batch.outcomes, outcome.executed = false →
    ¬ InTime deadline volley.seen ∨ (evaluator.policy = .abort ∧
      ∃ failure ∈ volley.batch.outcomes, failure.executed = true ∧ failure.succeeded = false)

/-- A rule's part in a pass: the volleys of its triggers, its record, and what was seen. -/
structure Round (World : Type) where
  rule : Rule
  volleys : List (Volley World)
  record : ExecutionRecord
  seen : List (Observation World)

structure Round.IsReported (evaluator : Evaluator World) (graph : RuleGraph) (event : Event)
    (deadline : Nat) (round : Round World) : Prop where
  rule : round.record.rule = round.rule.id
  actions : round.record.actions = round.volleys.flatMap (·.batch.outcomes)
  fired : round.volleys.map (·.trigger.id) = round.record.firedTriggers.map (·.trigger)
  apart : (round.volleys.flatMap (·.seen)).Sublist round.seen
  volleys : ∀ volley ∈ round.volleys,
    volley.IsReported evaluator graph deadline (Evaluator.ruleContext event round.rule)
  /-- Only the clock keeps a trigger from being judged. -/
  judged : round.record.matched = true → InTime deadline round.seen →
    round.record.triggers.map (·.trigger) =
      (Evaluator.enabledTriggers graph round.rule).map (·.id)

theorem Round.IsReported.withStatus {evaluator : Evaluator World} {graph : RuleGraph}
    {event : Event} {deadline : Nat} {round : Round World}
    (reported : round.IsReported evaluator graph event deadline) (status : EvaluationStatus) :
    Round.IsReported evaluator graph event deadline
      { round with record := { round.record with status } } :=
  ⟨reported.rule, reported.actions, reported.fired, reported.apart, reported.volleys,
    reported.judged⟩

namespace Evaluator

variable {evaluator : Evaluator World} {deadline : Nat} {graph : RuleGraph} {event : Event}
  {context : ScriptContext} {seen : List (Observation World)}

theorem ActionsCourse.volley {trigger : Trigger} {batch : ActionBatch}
    (course : ActionsCourse evaluator deadline trigger.id (context.withTrigger trigger.id)
      ((graph.actionsFor trigger).filter (·.enabled)) batch seen) :
    Volley.IsReported evaluator graph deadline context ⟨trigger, batch, seen⟩ := by
  obtain ⟨executions, left, reports⟩ := ActionBatch.Reports.ofCourse course
  exact ⟨⟨executions, left, reports⟩, fun _ => reports.unexecuted⟩

theorem TriggersCourse.volleys {triggers : List Trigger} {batch : TriggerBatch}
    (course : TriggersCourse evaluator deadline graph context triggers batch seen) :
    ∃ volleys : List (Volley World),
      batch.actions = volleys.flatMap (·.batch.outcomes) ∧
      volleys.map (·.trigger.id) = (batch.outcomes.filter (·.fired)).map (·.trigger) ∧
      (volleys.flatMap (·.seen)).Sublist seen ∧
      (∀ volley ∈ volleys, volley.IsReported evaluator graph deadline context) ∧
      (InTime deadline seen → batch.outcomes.map (·.trigger) = triggers.map (·.id)) := by
  induction course with
  | done =>
      exact ⟨[], rfl, rfl, List.Sublist.refl _, (fun _ held => nomatch held), fun _ => rfl⟩
  | late checked =>
      refine ⟨[], rfl, rfl, List.nil_sublist _, (fun _ held => nomatch held), fun inTime => ?_⟩
      cases checked.uncut inTime
  | @judged trigger rest check asked ran later verdict batch others checked judged running _ ih =>
      obtain ⟨volleys, actions, fired, apart, reported, complete⟩ := ih
      have all : InTime deadline (check ++ asked ++ ran ++ later) →
          (outcomeOf trigger verdict :: others.outcomes).map (·.trigger) =
            (trigger :: rest).map (·.id) := fun inTime =>
        congrArg (List.cons trigger.id) (complete (inTime_append.mp inTime).2)
      cases running with
      | fired holds running =>
          refine ⟨⟨trigger, batch, ran⟩ :: volleys, ?_, ?_, ?_, ?_, all⟩
          · rw [List.flatMap_cons, actions]
          · simp [outcomeOf, holds, fired]
          · rw [List.flatMap_cons]
            exact (List.sublist_append_right _ _).append apart
          · exact List.forall_mem_cons.mpr ⟨running.volley, reported⟩
      | quiet holds =>
          refine ⟨volleys, actions, ?_, ?_, reported, all⟩
          · simp [outcomeOf, holds, fired]
          · exact apart.trans (List.sublist_append_right _ _)

theorem RuleCourse.round {rule : Rule} {record : ExecutionRecord} {interrupted : Bool}
    (course : RuleCourse evaluator deadline graph event rule record interrupted seen) :
    ∃ volleys, Round.IsReported evaluator graph event deadline ⟨rule, volleys, record, seen⟩ := by
  cases course with
  | skipped id timestamp checked =>
      exact ⟨[], rfl, rfl, rfl, List.nil_sublist _, (fun _ held => nomatch held),
        fun matched => nomatch matched⟩
  | judged start stop id timestamp checked answered judging =>
      cases judging with
      | matched holds judging =>
          obtain ⟨volleys, actions, fired, apart, reported, complete⟩ := judging.volleys
          refine ⟨volleys, rfl, actions, fired, ?_, reported, fun _ inTime => ?_⟩
          · exact (apart.trans (List.sublist_append_right _ _)).trans (List.sublist_append_left _ _)
          · exact complete (inTime_append.mp (inTime_append.mp inTime).1).2
      | unmatched quiet =>
          refine ⟨[], rfl, rfl, rfl, List.nil_sublist _, (fun _ held => nomatch held), ?_⟩
          intro matched
          cases quiet.symm.trans matched

theorem RulesCourse.rounds {rules : List Rule} {records : List ExecutionRecord} {interrupted : Bool}
    (course : RulesCourse evaluator deadline graph event rules records interrupted seen) :
    ∃ rounds : List (Round World), rounds.map (·.rule) = rules ∧
      rounds.map (·.record) = records ∧ rounds.flatMap (·.seen) = seen ∧
      ∀ round ∈ rounds, round.IsReported evaluator graph event deadline := by
  induction course with
  | done => exact ⟨[], rfl, rfl, rfl, fun _ held => nomatch held⟩
  | @next rule rest record records interrupted others seen later judged _ ih =>
      obtain ⟨volleys, reported⟩ := judged.round
      obtain ⟨rounds, ofRules, ofRecords, ofSeen, allReported⟩ := ih
      refine ⟨⟨rule, volleys, record, seen⟩ :: rounds, ?_, ?_, ?_, ?_⟩
      · rw [List.map_cons, ofRules]
      · rw [List.map_cons, ofRecords]
      · rw [List.flatMap_cons, ofSeen]
      · exact List.forall_mem_cons.mpr ⟨reported, allReported⟩

theorem runEnabled_reports (evaluator : Evaluator World) (trigger : Uuid)
    (context : ScriptContext) (deadline : Nat) (actions : List Action)
    (progress : Progress World) :
    let done := evaluator.runEnabled trigger context deadline actions progress
    ∃ seen executions left,
      evaluator.observed.runEnabled trigger context deadline actions (progress.observed []) =
        (done.1, done.2.observed seen) ∧
      done.1.Reports evaluator deadline trigger context (actions.filter (·.enabled)) seen
        executions left := by
  intro done
  obtain ⟨seen, same, course⟩ := runActions_observes evaluator deadline trigger context
    (actions.filter (·.enabled)) progress []
  obtain ⟨executions, left, reports⟩ := ActionBatch.Reports.ofCourse course
  exact ⟨seen, executions, left, same, reports⟩

theorem PassCourse.rounds {records : List ExecutionRecord}
    (course : PassCourse evaluator graph event records seen) :
    ∃ (start : Nat) (rounds : List (Round World)),
      rounds.map (·.rule) = graph.rulesInOrder true ∧ rounds.map (·.record) = records ∧
      seen = .clock start :: rounds.flatMap (·.seen) ∧
      ∀ round ∈ rounds,
        round.IsReported evaluator graph event (start + evaluator.allowance) := by
  cases course with
  | @pass records interrupted seen start judged =>
      obtain ⟨rounds, ofRules, rfl, rfl, reported⟩ := judged.rounds
      refine ⟨start, rounds.map fun round =>
        { round with record := { round.record with status := passStatus interrupted } },
        ?_, ?_, ?_, ?_⟩
      · rw [List.map_map]
        exact ofRules
      · rw [List.map_map, List.map_map]
        rfl
      · rw [List.flatMap_map]
      · intro round held
        obtain ⟨first, member, rfl⟩ := List.mem_map.mp held
        exact (reported first member).withStatus _

end Evaluator

/-- Whoever runs the actions of a trigger gets a report on each enabled one: those that were
executed, each by one run of its script, and then those that were left, for which there is a
reason. In a pass the reason lies with the actions of the same trigger, or with the clock; no other
trigger or rule is affected. -/
theorem actions_reported_once (evaluator : Evaluator World) :
    (∀ trigger context deadline actions progress,
      let done := evaluator.runEnabled trigger context deadline actions progress
      ∃ seen executions left,
        evaluator.observed.runEnabled trigger context deadline actions (progress.observed []) =
          (done.1, done.2.observed seen) ∧
        done.1.outcomes.map (·.action) = (actions.filter (·.enabled)).map (·.id) ∧
        done.1.Reports evaluator deadline trigger context (actions.filter (·.enabled)) seen
          executions left) ∧
    ∀ graph event progress, ∃ (start : Nat) (rounds : List (Round World)),
      rounds.map (·.rule) = graph.rulesInOrder true ∧
      rounds.map (·.record) = (evaluator.evaluate graph event progress).1 ∧
      evaluator.observations graph event progress =
        .clock start :: rounds.flatMap (·.seen) ∧
      ∀ round ∈ rounds,
        round.IsReported evaluator graph event (start + evaluator.allowance) := by
  constructor
  · intro trigger context deadline actions progress done
    obtain ⟨seen, executions, left, same, reports⟩ :=
      evaluator.runEnabled_reports trigger context deadline actions progress
    exact ⟨seen, executions, left, same, reports.ids, reports⟩
  · intro graph event progress
    exact (evaluator.observations_course graph event progress).rounds

end Rulebook

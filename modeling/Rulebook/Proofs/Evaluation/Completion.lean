import Mathlib.Data.List.Infix
import Rulebook.Proofs.Evaluation.Reference

/-!
All records of a pass have one status, and a pass that says it is completed has left nothing out:
the deadline did not cut it short, neither between two scripts nor by the time that it left to one
of them.
-/

namespace Rulebook

variable {World : Type}

/-! What is taken for granted of the clock -/

def readings (seen : List (Observation World)) : List Nat :=
  seen.filterMap fun
    | .clock reading => some reading
    | _ => none

/-- Whether a script failed because its time was up. -/
def ScriptRun.RanOut (run : ScriptRun World) : Prop :=
  ∃ fault, run.result = .error fault ∧ fault.isTimeout = true

/-- A script between two readings of the clock does not run out of time before its time is up. -/
def Outwaited : List (Observation World) → Prop
  | .clock start :: .run run :: .clock stop :: _ =>
    run.RanOut → start + run.limits.timeout ≤ stop
  | _ => True

/-- The clock never goes back, and a timeout takes as long as it says. -/
structure Timely (seen : List (Observation World)) : Prop where
  forward : (readings seen).Pairwise (· ≤ ·)
  outwaited : ∀ part ∈ seen.tails, Outwaited part

instance (run : ScriptRun World) : Decidable run.RanOut :=
  match result : run.result with
  | .ok _ => isFalse fun ⟨_, failed, _⟩ => by simp [result] at failed
  | .error fault => decidable_of_iff (fault.isTimeout = true) <| by simp [ScriptRun.RanOut, result]

instance : (seen : List (Observation World)) → Decidable (Outwaited seen)
  | .clock start :: .run run :: .clock stop :: _ =>
    inferInstanceAs (Decidable (run.RanOut → start + run.limits.timeout ≤ stop))
  | [] | [.clock _] | [.clock _, .run _] => isTrue trivial
  | .clock _ :: .clock _ :: _ | .clock _ :: .now _ :: _ | .clock _ :: .fresh _ :: _ => isTrue trivial
  | .clock _ :: .run _ :: .run _ :: _ | .clock _ :: .run _ :: .now _ :: _
  | .clock _ :: .run _ :: .fresh _ :: _ => isTrue trivial
  | .run _ :: _ | .now _ :: _ | .fresh _ :: _ => isTrue trivial

instance (seen : List (Observation World)) : Decidable (Timely seen) :=
  decidable_of_iff ((readings seen).Pairwise (· ≤ ·) ∧ ∀ part ∈ seen.tails, Outwaited part)
    ⟨fun both => ⟨both.1, both.2⟩, fun timely => ⟨timely.forward, timely.outwaited⟩⟩

theorem readings_append (earlier later : List (Observation World)) :
    readings (earlier ++ later) = readings earlier ++ readings later :=
  List.filterMap_append

theorem mem_readings {reading : Nat} {seen : List (Observation World)} :
    reading ∈ readings seen ↔ .clock reading ∈ seen := by
  rw [readings, List.mem_filterMap]
  constructor
  · rintro ⟨observation, held, same⟩
    cases observation with
    | clock other =>
        cases same
        exact held
    | _ => cases same
  · exact fun held => ⟨_, held, rfl⟩

theorem Outwaited.before {part : List (Observation World)} (after : List (Observation World))
    (waited : Outwaited (part ++ after)) : Outwaited part := by
  match part with
  | .clock _ :: .run _ :: .clock _ :: _ => exact waited
  | [] | [.clock _] | [.clock _, .run _] => trivial
  | .clock _ :: .clock _ :: _ | .clock _ :: .now _ :: _ | .clock _ :: .fresh _ :: _ => trivial
  | .clock _ :: .run _ :: .run _ :: _ | .clock _ :: .run _ :: .now _ :: _
  | .clock _ :: .run _ :: .fresh _ :: _ => trivial
  | .run _ :: _ | .now _ :: _ | .fresh _ :: _ => trivial

namespace Timely

theorem append {earlier later : List (Observation World)} (timely : Timely (earlier ++ later)) :
    Timely earlier ∧ Timely later := by
  obtain ⟨forward, outwaited⟩ := timely
  rw [readings_append, List.pairwise_append] at forward
  simp only [List.mem_tails] at outwaited
  refine ⟨⟨forward.1, ?_⟩, ⟨forward.2.1, ?_⟩⟩
  · intro part held
    obtain ⟨before, rfl⟩ := (List.mem_tails _ _).mp held
    apply Outwaited.before later
    exact outwaited _ ⟨before, by simp⟩
  · intro part held
    exact outwaited part (((List.mem_tails _ _).mp held).trans (List.suffix_append _ _))

theorem le {earlier later : List (Observation World)} {before after : Nat}
    (timely : Timely (earlier ++ later)) (first : .clock before ∈ earlier)
    (second : .clock after ∈ later) : before ≤ after := by
  have forward := timely.forward
  rw [readings_append, List.pairwise_append] at forward
  exact forward.2.2 before (mem_readings.mpr first) after (mem_readings.mpr second)

end Timely

/-- A record that says that nothing was done. -/
structure ExecutionRecord.IsSkipped (record : ExecutionRecord) : Prop where
  unmatched : record.matched = false
  noError : record.error = none
  noTriggers : record.triggers = []
  noActions : record.actions = []

/-- The run of a script that did not run out of time, unless it had all the time that there is for
a script. -/
def ScriptRun.NotHurried (limits : Script.Limits) (run : ScriptRun World) : Prop :=
  run.RanOut → limits.timeout ≤ run.limits.timeout

/-- Each action has its outcome, and was executed unless a failure before it aborts. -/
structure IsComplete (policy : FailurePolicy) (actions : List Action)
    (outcomes : List ActionOutcome) : Prop where
  each : outcomes.map (·.action) = actions.map (·.id)
  executed : ∀ before outcome after, outcomes = before ++ outcome :: after →
    outcome.executed = false → policy = .abort ∧
      ∃ failure ∈ before, failure.executed = true ∧ failure.succeeded = false

theorem IsComplete.cons {policy : FailurePolicy} {action : Action} {actions : List Action}
    {outcome : ActionOutcome} {outcomes : List ActionOutcome}
    (complete : IsComplete policy actions outcomes) (same : outcome.action = action.id)
    (done : outcome.executed = true) :
    IsComplete policy (action :: actions) (outcome :: outcomes) where
  each := by rw [List.map_cons, List.map_cons, same, complete.each]
  executed := by
    intro before other after split notDone
    cases before with
    | nil =>
        cases split
        rw [done] at notDone
        cases notDone
    | cons first before =>
        obtain ⟨rfl, rest⟩ := List.cons.inj split
        obtain ⟨aborts, failure, held, failed⟩ := complete.executed before other after rest notDone
        exact ⟨aborts, failure, List.mem_cons_of_mem _ held, failed⟩

theorem ActionsRan.complete {evaluator : Evaluator World} {trigger : Uuid}
    {context : ScriptContext} {actions : List Action} {runs : List (ScriptRun World)}
    {outcomes : List ActionOutcome}
    (ran : ActionsRan evaluator trigger context actions runs outcomes) :
    IsComplete evaluator.policy actions outcomes := by
  induction ran with
  | done => exact ⟨rfl, fun _ _ _ split => absurd split (by simp)⟩
  | succeeded _ _ _ _ ih => exact ih.cons rfl rfl
  | failed _ _ _ _ _ ih => exact ih.cons rfl rfl
  | aborted _ _ _ aborts =>
      constructor
      · simp [ActionOutcome.skipped, Function.comp_def]
      · intro before outcome after split notDone
        cases before with
        | nil =>
            cases split
            cases notDone
        | cons first before =>
            obtain ⟨rfl, _⟩ := List.cons.inj split
            exact ⟨aborts, _, List.mem_cons_self, rfl, rfl⟩

namespace Evaluator

variable {evaluator : Evaluator World} {deadline : Nat} {graph : RuleGraph} {event : Event}
  {context : ScriptContext} {seen : List (Observation World)}

/-! Whoever runs out of the time before a deadline is past the deadline -/

theorem RunCourse.notHurried {script : String} {result : Except Script.Fault ScriptOutput}
    {stop : Nat} (course : RunCourse evaluator deadline script context result seen)
    (timely : Timely (seen ++ [.clock stop])) (early : stop < deadline) :
    ∀ run ∈ scriptRuns seen, run.NotHurried evaluator.limits := by
  cases course with
  | ran reading world _ =>
      intro run held out
      cases List.mem_singleton.mp held
      -- Had the deadline cut the time short, the script would have ended at the deadline or later.
      have elapsed : reading + min evaluator.limits.timeout (deadline - reading) ≤ stop :=
        timely.outwaited _ ((List.mem_tails _ _).mpr (List.suffix_refl _)) out
      change evaluator.limits.timeout ≤ min evaluator.limits.timeout (deadline - reading)
      omega

theorem RunCourse.notOut {script : String} {result : Except Script.Fault ScriptOutput}
    (course : RunCourse evaluator deadline script context result seen)
    (fine : ∀ fault, result = .error fault → fault.isTimeout = false) :
    ∀ run ∈ scriptRuns seen, run.NotHurried evaluator.limits := by
  obtain ⟨run, runs, _, rfl⟩ := course.runs
  rw [runs]
  rintro other held ⟨fault, failed, timeout⟩
  rw [List.mem_singleton.mp held] at failed
  rw [fine fault failed] at timeout
  cases timeout

theorem AskCourse.notHurried {script : String} {verdict : Verdict}
    (course : AskCourse evaluator deadline script context verdict seen) (timely : Timely seen)
    (uncut : verdict.interrupted = false) :
    ∀ run ∈ scriptRuns seen, run.NotHurried evaluator.limits := by
  cases course with
  | answered ran answered =>
      apply ran.notOut
      rintro fault rfl
      cases answered
  | @failed result seen later fault cut ran failed cutOff =>
      rw [scriptRuns_append, cutOff.noRuns, List.append_nil]
      have cause : ∀ other, result = .error other → other = fault := by
        rintro other rfl
        cases failed
        rfl
      cases cutOff with
      | other notTimeout =>
          exact ran.notOut fun other failed => cause other failed ▸ notTimeout
      | timeout _ checked =>
          cases checked with
          | inTime early => exact ran.notHurried timely early
          | past => cases uncut

theorem ActionCourse.notHurried {trigger : Uuid} {action : Action} {outcome : ActionOutcome}
    {fault : Script.Fault} {later : List (Observation World)}
    (course : ActionCourse evaluator deadline trigger context action outcome (some fault) seen)
    (cutOff : CutOffCourse deadline fault false later) (timely : Timely (seen ++ later)) :
    ∀ run ∈ scriptRuns seen, run.NotHurried evaluator.limits := by
  cases course with
  | @failed _ ran start stop running =>
      have same : scriptRuns (.clock start :: ran ++ [.clock stop]) = scriptRuns ran := by
        rw [scriptRuns_append]
        exact List.append_nil _
      rw [same]
      cases cutOff with
      | other notTimeout =>
          apply running.notOut
          rintro _ ⟨⟩
          exact notTimeout
      | timeout _ checked =>
          cases checked with
          | @inTime reading early =>
              have notLater : stop ≤ reading := timely.le (by simp) List.mem_cons_self
              have timed : Timely (ran ++ [.clock stop]) := by
                have whole : Timely ([.clock start] ++ (ran ++ [.clock stop])) := timely.append.1
                exact whole.append.2
              exact running.notHurried timed (Nat.lt_of_le_of_lt notLater early)

theorem ActionsCourse.notHurried {trigger : Uuid} {actions : List Action} {batch : ActionBatch}
    (course : ActionsCourse evaluator deadline trigger context actions batch seen)
    (timely : Timely seen) (uncut : batch.deadlineReached = false) :
    ∀ run ∈ scriptRuns seen, run.NotHurried evaluator.limits := by
  induction course with
  | done => exact fun _ held => nomatch held
  | late => cases uncut
  | succeeded checked ran _ ih =>
      rw [scriptRuns_append, scriptRuns_append, checked.noRuns, List.nil_append,
        List.forall_mem_append]
      refine ⟨?_, ih timely.append.2 uncut⟩
      obtain ⟨run, _, runs, _, output, result, _⟩ := ran.run
      rw [runs]
      rintro other held ⟨fault, failed, _⟩
      rw [List.mem_singleton.mp held, result] at failed
      cases failed
  | cutOff => cases uncut
  | aborted checked ran cutOff _ =>
      rw [List.append_assoc] at timely
      rw [scriptRuns_append, scriptRuns_append, checked.noRuns, cutOff.noRuns, List.nil_append,
        List.append_nil]
      exact ran.notHurried cutOff timely.append.2
  | failed checked ran cutOff _ _ ih =>
      obtain ⟨early, later⟩ := timely.append
      rw [List.append_assoc] at early
      rw [scriptRuns_append, scriptRuns_append, scriptRuns_append, checked.noRuns, cutOff.noRuns,
        List.nil_append, List.append_nil, List.forall_mem_append]
      exact ⟨ran.notHurried cutOff early.append.2, ih later uncut⟩

theorem VerdictCourse.notHurried {trigger : Trigger} {verdict : Verdict}
    (course : VerdictCourse evaluator deadline context trigger verdict seen)
    (timely : Timely seen) (uncut : verdict.interrupted = false) :
    ∀ run ∈ scriptRuns seen, run.NotHurried evaluator.limits := by
  cases course with
  | unconditional => exact fun _ held => nomatch held
  | conditional _ _ asked => exact asked.notHurried timely uncut
  | unasked => exact fun _ held => nomatch held

theorem TriggersCourse.notHurried {triggers : List Trigger} {batch : TriggerBatch}
    (course : TriggersCourse evaluator deadline graph context triggers batch seen)
    (timely : Timely seen) (uncut : batch.interrupted = false) :
    ∀ run ∈ scriptRuns seen, run.NotHurried evaluator.limits := by
  induction course with
  | done => exact fun _ held => nomatch held
  | late => cases uncut
  | judged checked judged running _ ih =>
      simp only [Bool.or_eq_false_iff] at uncut
      obtain ⟨⟨askedUncut, ranUncut⟩, laterUncut⟩ := uncut
      obtain ⟨before, later⟩ := timely.append
      obtain ⟨before, ran⟩ := before.append
      rw [scriptRuns_append, scriptRuns_append, scriptRuns_append, checked.noRuns,
        List.nil_append, List.forall_mem_append, List.forall_mem_append]
      refine ⟨⟨judged.notHurried before.append.2 askedUncut, ?_⟩, ih later laterUncut⟩
      cases running with
      | fired _ running => exact running.notHurried ran ranUncut
      | quiet => exact fun _ held => nomatch held

theorem RuleCourse.notHurried {rule : Rule} {record : ExecutionRecord} {interrupted : Bool}
    (course : RuleCourse evaluator deadline graph event rule record interrupted seen)
    (timely : Timely seen) (uncut : interrupted = false) :
    ∀ run ∈ scriptRuns seen, run.NotHurried evaluator.limits := by
  cases course with
  | skipped => cases uncut
  | @judged check asked judged verdict batch start stop key timestamp checked answered judging =>
      obtain ⟨askedUncut, judgedUncut⟩ := Bool.or_eq_false_iff.mp uncut
      rw [scriptRuns_judged checked.noRuns, List.forall_mem_append]
      rw [List.append_cons check] at timely
      obtain ⟨before, judgedTimely⟩ := timely.append.1.append
      refine ⟨answered.notHurried before.append.2 askedUncut, ?_⟩
      cases judging with
      | matched _ judging => exact judging.notHurried judgedTimely judgedUncut
      | unmatched => exact fun _ held => nomatch held

theorem RulesCourse.notHurried {rules : List Rule} {records : List ExecutionRecord}
    {interrupted : Bool}
    (course : RulesCourse evaluator deadline graph event rules records interrupted seen)
    (timely : Timely seen) (uncut : interrupted = false) :
    ∀ run ∈ scriptRuns seen, run.NotHurried evaluator.limits := by
  induction course with
  | done => exact fun _ held => nomatch held
  | next judged _ ih =>
      obtain ⟨early, later⟩ := Bool.or_eq_false_iff.mp uncut
      rw [scriptRuns_append, List.forall_mem_append]
      exact ⟨judged.notHurried timely.append.1 early, ih timely.append.2 later⟩

/-! Records, whether in time or not -/

theorem RuleCourse.rule_eq {rule : Rule} {record : ExecutionRecord} {interrupted : Bool}
    (course : RuleCourse evaluator deadline graph event rule record interrupted seen) :
    record.rule = rule.id := by
  cases course <;> rfl

theorem RulesCourse.rules_eq {rules : List Rule} {records : List ExecutionRecord}
    {interrupted : Bool}
    (course : RulesCourse evaluator deadline graph event rules records interrupted seen) :
    records.map (·.rule) = rules.map (·.id) := by
  induction course with
  | done => rfl
  | next judged _ ih => rw [List.map_cons, List.map_cons, judged.rule_eq, ih]

theorem RulesCourse.late {rules : List Rule} {records : List ExecutionRecord} {interrupted : Bool}
    (course : RulesCourse evaluator deadline graph event rules records interrupted seen)
    (late : ∀ reading, .clock reading ∈ seen → deadline ≤ reading) :
    scriptRuns seen = [] ∧ (rules ≠ [] → interrupted = true) ∧
      ∀ record ∈ records, record.IsSkipped := by
  induction course with
  | done => exact ⟨rfl, fun some => absurd rfl some, fun _ held => nomatch held⟩
  | next judged _ ih =>
      obtain ⟨noRuns, _, skipped⟩ := ih fun reading read => late reading (by simp [read])
      cases judged with
      | skipped id timestamp checked =>
          refine ⟨?_, fun _ => rfl, ?_⟩
          · rw [scriptRuns_append, scriptRuns_append, checked.noRuns, noRuns]
            rfl
          · intro record held
            rcases List.mem_cons.mp held with rfl | held
            · exact ⟨rfl, rfl, rfl, rfl⟩
            · exact skipped record held
      | judged _ _ _ _ checked =>
          cases checked with
          | @inTime reading early =>
              have notEarly := late reading (by simp)
              omega

theorem RulesCourse.uncut_of_nil {rules : List Rule} {interrupted : Bool}
    (course : RulesCourse evaluator deadline graph event rules [] interrupted seen) :
    interrupted = false := by
  cases course
  rfl

theorem PassCourse.rules_eq {records : List ExecutionRecord}
    (course : PassCourse evaluator graph event records seen) :
    records.map (·.rule) = (graph.rulesInOrder true).map (·.id) := by
  cases course with
  | pass _ course =>
      rw [List.map_map]
      exact course.rules_eq

theorem PassCourse.oneStatus {records : List ExecutionRecord}
    (course : PassCourse evaluator graph event records seen) :
    ∃ status, ∀ record ∈ records, record.status = status := by
  cases course with
  | @pass _ interrupted =>
      refine ⟨passStatus interrupted, fun record held => ?_⟩
      obtain ⟨_, _, rfl⟩ := List.mem_map.mp held
      rfl

theorem PassCourse.late {records : List ExecutionRecord}
    (course : PassCourse evaluator graph event records seen) (timely : Timely seen)
    (noTime : evaluator.allowance = 0) :
    scriptRuns seen = [] ∧
      ∀ record ∈ records, record.IsSkipped ∧ record.status = .partiallyEvaluated := by
  cases course with
  | @pass records interrupted seen start course =>
      rw [noTime] at course
      have whole : Timely ([.clock start] ++ seen) := timely
      have late : ∀ reading, .clock reading ∈ seen → start ≤ reading := fun reading read =>
        whole.le List.mem_cons_self read
      obtain ⟨noRuns, cut, skipped⟩ := course.late late
      refine ⟨noRuns, fun record held => ?_⟩
      obtain ⟨made, member, rfl⟩ := List.mem_map.mp held
      have fine := skipped made member
      refine ⟨⟨fine.unmatched, fine.noError, fine.noTriggers, fine.noActions⟩, ?_⟩
      have someRules : graph.rulesInOrder true ≠ [] := by
        intro none
        have sameRules := course.rules_eq
        rw [none, List.map_nil, List.map_eq_nil_iff] at sameRules
        rw [sameRules] at member
        cases member
      rw [cut someRules]
      rfl

theorem PassCourse.completed {records : List ExecutionRecord}
    (course : PassCourse evaluator graph event records seen) (timely : Timely seen)
    (intact : graph.Intact) (fit : graph.IsFit)
    (completed : ∀ record ∈ records, record.status = .completed) :
    ∃ judgements : List (Judgement World), records = judgements.map (·.record) ∧
      judgements.map (·.rule) = graph.rulesInOrder true ∧
      scriptRuns seen = judgements.flatMap Judgement.runs ∧
      (∀ judgement ∈ judgements, judgement.IsFaithful evaluator graph event ∧
        ∀ firing ∈ judgement.firings, firing.outcome.fired = true →
          IsComplete evaluator.policy
            ((graph.actionsFor firing.trigger).filter (·.enabled)) firing.actions) ∧
      ∀ run ∈ scriptRuns seen, run.NotHurried evaluator.limits := by
  cases course with
  | @pass records interrupted seen start course =>
      have uncut : interrupted = false := by
        cases records with
        | nil => exact course.uncut_of_nil
        | cons record rest =>
            have first : passStatus interrupted = .completed := completed _ List.mem_cons_self
            cases interrupted with
            | false => rfl
            | true => cases first
      subst uncut
      have whole : Timely ([.clock start] ++ seen) := timely
      have hurried := course.notHurried whole.append.2 rfl
      obtain ⟨judgements, same, rules, runs, faithful⟩ := course.passJudgements intact fit
      refine ⟨judgements, same, rules, runs, fun judgement held => ?_, hurried⟩
      have whole := faithful judgement held
      refine ⟨whole, fun firing listed fired => ?_⟩
      exact ((whole.firings firing listed).fired fired).complete

end Evaluator

/-- All records of an evaluation have one status, and there is one for each enabled rule, in order.
If they are completed, every rule was judged by all that its scripts answered, no action was left
out but behind a failure that aborts, and no script ran out of a time that the deadline had cut
short. Where no time is allowed, no script runs. -/
theorem completed_in_full (evaluator : Evaluator World) (graph : RuleGraph) (event : Event)
    (progress : Progress World) (reachable : graph.Reachable)
    (timely : Timely (evaluator.observations graph event progress)) :
    let rules := graph.rulesInOrder true
    let records := (evaluator.evaluate graph event progress).1
    let runs := scriptRuns (evaluator.observations graph event progress)
    (∀ rule, rule ∈ rules ↔ rule ∈ graph.rules.values ∧ rule.enabled = true) ∧
      rules.Pairwise Rule.Precedes ∧ records.map (·.rule) = rules.map (·.id) ∧
      (∃ status, ∀ record ∈ records, record.status = status) ∧
      ((∀ record ∈ records, record.status = .completed) →
        ∃ judgements : List (Judgement World), records = judgements.map (·.record) ∧
          judgements.map (·.rule) = rules ∧ runs = judgements.flatMap Judgement.runs ∧
          (∀ judgement ∈ judgements, judgement.IsFaithful evaluator graph event ∧
            ∀ firing ∈ judgement.firings, firing.outcome.fired = true →
              IsComplete evaluator.policy
                ((graph.actionsFor firing.trigger).filter (·.enabled)) firing.actions) ∧
          ∀ run ∈ runs, run.NotHurried evaluator.limits) ∧
      (evaluator.allowance = 0 → runs = [] ∧
        ∀ record ∈ records, record.IsSkipped ∧ record.status = .partiallyEvaluated) := by
  intro rules records runs
  obtain ⟨operations, history⟩ := reachable
  have intact := RuleGraph.Intact.ofHistory history
  have course := evaluator.observations_course graph event progress
  refine ⟨fun rule => by simp [rules, RuleGraph.mem_rulesInOrder], intact.rulesInOrder_precede,
    course.rules_eq, course.oneStatus, ?_, course.late timely⟩
  intro completed
  exact course.completed timely intact (.ofHistory history) completed

/-- An evaluator whose clock ticks whenever it is read. Its rules say yes, and its actions take
all the time they have. -/
def tickingEvaluator : Evaluator Nat where
  platform := {
    check := fun _ _ => .ok ()
    run := fun _ context limits time =>
      match context.capability with
      | .readOnly => (.ok ⟨.bool true, []⟩, time)
      | .effects => (.error (.timeout limits.timeout), time + limits.timeout)
    clock := fun time => (time, time + 1)
    now := fun time => (⟨0, 0⟩, time)
    fresh := fun time => (⟨0⟩, time) }
  limits := { (default : Script.Limits) with timeout := 5 }
  policy := .goOn
  allowance := 50

theorem boundOperations_completed :
    let graph := Operation.run boundOperations {}
    let event : Event := ⟨⟨4⟩, .null, ⟨0, 0⟩⟩
    let runs := scriptRuns (tickingEvaluator.observations graph event ⟨0, []⟩)
    let records := (tickingEvaluator.evaluate graph event ⟨0, []⟩).1
    graph.Reachable ∧ Timely (tickingEvaluator.observations graph event ⟨0, []⟩) ∧
      (∀ record ∈ records, record.status = .completed) ∧ (∃ run ∈ runs, run.RanOut) ∧
      ∃ judgements : List (Judgement Nat), records = judgements.map (·.record) ∧
        (∀ judgement ∈ judgements, judgement.IsFaithful tickingEvaluator graph event) ∧
        ∀ run ∈ runs, run.NotHurried tickingEvaluator.limits := by
  intro graph event runs records
  have reachable : graph.Reachable := ⟨boundOperations, History.ofFresh (by decide)⟩
  have timely : Timely (tickingEvaluator.observations graph event ⟨0, []⟩) := by decide +kernel
  have completed : ∀ record ∈ records, record.status = .completed := by decide +kernel
  have timeout : ∃ run ∈ runs, run.RanOut := by decide +kernel
  obtain ⟨_, _, _, _, whole, _⟩ :=
    completed_in_full tickingEvaluator graph event ⟨0, []⟩ reachable timely
  obtain ⟨judgements, same, _, _, faithful, inTime⟩ := whole completed
  exact ⟨reachable, timely, completed, timeout, judgements, same,
    fun judgement held => (faithful judgement held).1, inTime⟩

end Rulebook

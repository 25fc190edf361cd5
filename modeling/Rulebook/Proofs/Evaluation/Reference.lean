import Rulebook.Proofs.Evaluation.Keeping
import Rulebook.Proofs.Rules.Condition
import Rulebook.Proofs.Rules.Order

/-!
What an evaluation has to come to when there is time for all of it, told by the runs of scripts and
without a clock. Whatever the scripts answered, an evaluation that is in time came to just that.
-/

namespace Rulebook

/-! The reference -/

/-- The values that a script may answer a question with. -/
def IsAnswer (value : Json) : Prop :=
  value = .bool true ∨ value = .bool false ∨ value = .null

/-- A question has been answered by what came of a run: with yes or not, and with a failure or
not. -/
structure Answers (result : Except Script.Fault ScriptOutput) (holds : Bool)
    (failure : Option Script.Failure) : Prop where
  yes : holds = true ↔ ∃ logs, result = .ok ⟨.bool true, logs⟩
  clear : ∀ output, result = .ok output → IsAnswer output.value → failure = none
  misshapen : ∀ output, result = .ok output → ¬ IsAnswer output.value →
    failure = some (Script.Fault.misshapen "bool" output.value.typeName).toFailure
  failed : ∀ fault, result = .error fault → failure = some fault.toFailure

variable {World : Type}

/-- A run of a certain script in a certain context, with what came of it in the time it had. -/
structure ScriptRun.IsOf (evaluator : Evaluator World) (script : String) (context : ScriptContext)
    (run : ScriptRun World) : Prop where
  script : run.script = script
  context : run.context = context
  limits : run.limits = { evaluator.limits with timeout := run.limits.timeout }
  result : run.result =
    (evaluator.platform.run run.script run.context run.limits run.world).1

/-- Actions ran one after the other, each in a run of its own. Only a failure that aborts keeps
others from running. -/
inductive ActionsRan (evaluator : Evaluator World) (trigger : Uuid) (context : ScriptContext) :
    List Action → List (ScriptRun World) → List ActionOutcome → Prop where
  | done : ActionsRan evaluator trigger context [] [] []
  | succeeded {action : Action} {rest : List Action} {run : ScriptRun World}
      {runs : List (ScriptRun World)} {output : ScriptOutput} {outcomes : List ActionOutcome}
      (duration : Float) :
      run.IsOf evaluator action.script (Evaluator.actionContext context action.id) →
      run.result = .ok output →
      ActionsRan evaluator trigger context rest runs outcomes →
      ActionsRan evaluator trigger context (action :: rest) (run :: runs)
        (⟨action.id, trigger, true, true, none, duration, output.logs⟩ :: outcomes)
  | failed {action : Action} {rest : List Action} {run : ScriptRun World}
      {runs : List (ScriptRun World)} {fault : Script.Fault} {outcomes : List ActionOutcome}
      (duration : Float) :
      run.IsOf evaluator action.script (Evaluator.actionContext context action.id) →
      run.result = .error fault → evaluator.policy = .goOn →
      ActionsRan evaluator trigger context rest runs outcomes →
      ActionsRan evaluator trigger context (action :: rest) (run :: runs)
        (⟨action.id, trigger, true, false, some fault.toFailure, duration, []⟩ :: outcomes)
  | aborted {action : Action} {rest : List Action} {run : ScriptRun World} {fault : Script.Fault}
      (duration : Float) :
      run.IsOf evaluator action.script (Evaluator.actionContext context action.id) →
      run.result = .error fault → evaluator.policy = .abort →
      ActionsRan evaluator trigger context (action :: rest) [run]
        (⟨action.id, trigger, true, false, some fault.toFailure, duration, []⟩ ::
          rest.map fun other => .skipped other.id trigger)

/-- A trigger of a rule that matched, what it was asked, and what ran if it fired. -/
structure Firing (World : Type) where
  trigger : Trigger
  asked : List (ScriptRun World)
  outcome : TriggerOutcome
  ran : List (ScriptRun World)
  actions : List ActionOutcome

structure Firing.IsFaithful (evaluator : Evaluator World) (graph : RuleGraph)
    (context : ScriptContext) (firing : Firing World) : Prop where
  trigger : firing.outcome.trigger = firing.trigger.id
  kind : firing.outcome.kind = firing.trigger.kind
  unconditional : firing.trigger.kind = .unconditional →
    firing.asked = [] ∧ firing.outcome.fired = true ∧ firing.outcome.error = none
  conditional : firing.trigger.kind = .conditional →
    ∃ script run, firing.trigger.condition = some script ∧ firing.asked = [run] ∧
      run.IsOf evaluator script context ∧
        Answers run.result firing.outcome.fired firing.outcome.error
  fired : firing.outcome.fired = true →
    ActionsRan evaluator firing.trigger.id context
      ((graph.actionsFor firing.trigger).filter (·.enabled)) firing.ran firing.actions
  quiet : firing.outcome.fired = false → firing.ran = [] ∧ firing.actions = []

/-- An event was judged by a rule: the run of its script, and what became of its triggers. -/
structure Judgement (World : Type) where
  rule : Rule
  asked : ScriptRun World
  firings : List (Firing World)
  record : ExecutionRecord

def Judgement.runs (judgement : Judgement World) : List (ScriptRun World) :=
  judgement.asked :: judgement.firings.flatMap fun firing => firing.asked ++ firing.ran

structure Judgement.IsFaithful (evaluator : Evaluator World) (graph : RuleGraph) (event : Event)
    (judgement : Judgement World) : Prop where
  ofEvent : judgement.record.event = event.id
  ofRule : judgement.record.rule = judgement.rule.id
  named : judgement.record.ruleName = judgement.rule.name
  completed : judgement.record.status = .completed
  asked : judgement.asked.IsOf evaluator judgement.rule.script
    (Evaluator.ruleContext event judgement.rule)
  answers : Answers judgement.asked.result judgement.record.matched judgement.record.error
  unmatched : judgement.record.matched = false → judgement.firings = []
  matched : judgement.record.matched = true → ∃ listed : List Trigger,
    listed.map (·.id) = judgement.rule.triggers ∧
      (∀ trigger ∈ listed, graph.triggers.get? trigger.id = some trigger) ∧
      judgement.firings.map (·.trigger) = listed.filter (·.enabled)
  triggers : judgement.record.triggers = judgement.firings.map (·.outcome)
  actions : judgement.record.actions = judgement.firings.flatMap (·.actions)
  firings : ∀ firing ∈ judgement.firings, firing.IsFaithful evaluator graph
    ((Evaluator.ruleContext event judgement.rule).withTrigger firing.trigger.id)

/-! Being in time -/

def scriptRuns (seen : List (Observation World)) : List (ScriptRun World) :=
  seen.filterMap fun
    | .run run => some run
    | _ => none

/-- Whether the clock was never seen to reach a deadline. -/
def InTime (deadline : Nat) (seen : List (Observation World)) : Prop :=
  ∀ reading, .clock reading ∈ seen → reading < deadline

/-- Whether the clock was never seen to reach the deadline that its first reading set. -/
def OnTime (allowance : Nat) (seen : List (Observation World)) : Prop :=
  ∃ start later, seen = .clock start :: later ∧ InTime (start + allowance) later

instance (deadline : Nat) (seen : List (Observation World)) : Decidable (InTime deadline seen) :=
  decidable_of_iff (∀ observation ∈ seen, (match observation with
      | .clock reading => decide (reading < deadline)
      | .run _ | .now _ | .fresh _ => true) = true) <| by
    constructor
    · exact fun all reading read => of_decide_eq_true (all (.clock reading) read)
    · intro inTime observation held
      cases observation with
      | clock reading => exact decide_eq_true (inTime reading held)
      | _ => rfl

instance (allowance : Nat) : (seen : List (Observation World)) → Decidable (OnTime allowance seen)
  | .clock start :: later => decidable_of_iff (InTime (start + allowance) later) <| by
    constructor
    · exact fun inTime => ⟨start, later, rfl, inTime⟩
    · rintro ⟨_, _, ⟨⟩, inTime⟩
      exact inTime
  | [] | .run _ :: _ | .now _ :: _ | .fresh _ :: _ => isFalse <| by
    rintro ⟨_, _, ⟨⟩, _⟩

theorem scriptRuns_append (earlier later : List (Observation World)) :
    scriptRuns (earlier ++ later) = scriptRuns earlier ++ scriptRuns later :=
  List.filterMap_append

/-- What an evaluation reads from its clocks around the scripts of a rule is not one of its runs. -/
theorem scriptRuns_judged {check : List (Observation World)} (noRuns : scriptRuns check = [])
    (start stop : Nat) (asked judged : List (Observation World)) (key : Uuid) (timestamp : Instant) :
    scriptRuns (check ++ .clock start :: asked ++ judged ++
      [.clock stop, .fresh key, .now timestamp]) = scriptRuns asked ++ scriptRuns judged := by
  rw [scriptRuns_append, scriptRuns_append, scriptRuns_append, noRuns]
  exact List.append_nil _

theorem InTime.subset {deadline : Nat} {seen part : List (Observation World)}
    (inTime : InTime deadline seen) (subset : part ⊆ seen) : InTime deadline part :=
  fun reading read => inTime reading (subset read)

theorem inTime_append {deadline : Nat} {earlier later : List (Observation World)} :
    InTime deadline (earlier ++ later) ↔ InTime deadline earlier ∧ InTime deadline later := by
  simp only [InTime, List.mem_append, or_imp, forall_and]

namespace Evaluator

variable (evaluator : Evaluator World) {deadline : Nat}

def observations (graph : RuleGraph) (event : Event) (progress : Progress World) :
    List (Observation World) :=
  (evaluator.observed.evaluate graph event (progress.observed [])).2.world.seen

theorem observations_course (graph : RuleGraph) (event : Event) (progress : Progress World) :
    PassCourse evaluator graph event (evaluator.evaluate graph event progress).1
      (evaluator.observations graph event progress) := by
  obtain ⟨seen, same, course⟩ := evaluate_observes evaluator graph event progress []
  rw [observations, same]
  exact course

variable {evaluator}

/-! An evaluation in time is not cut short -/

theorem CheckCourse.uncut {past : Bool} {seen : List (Observation World)}
    (course : CheckCourse deadline past seen) (inTime : InTime deadline seen) : past = false := by
  cases course with
  | inTime => rfl
  | past late =>
      have early := inTime _ (List.mem_singleton.mpr rfl)
      omega

theorem CutOffCourse.uncut {fault : Script.Fault} {cut : Bool} {seen : List (Observation World)}
    (course : CutOffCourse deadline fault cut seen) (inTime : InTime deadline seen) :
    cut = false := by
  cases course with
  | other => rfl
  | timeout _ checked => exact checked.uncut inTime

theorem AskCourse.uncut {script : String} {context : ScriptContext} {verdict : Verdict}
    {seen : List (Observation World)}
    (course : AskCourse evaluator deadline script context verdict seen)
    (inTime : InTime deadline seen) : verdict.interrupted = false := by
  cases course with
  | answered => rfl
  | failed _ _ cutOff => exact cutOff.uncut (inTime_append.mp inTime).2

theorem ActionsCourse.uncut {trigger : Uuid} {context : ScriptContext} {actions : List Action}
    {batch : ActionBatch} {seen : List (Observation World)}
    (course : ActionsCourse evaluator deadline trigger context actions batch seen)
    (inTime : InTime deadline seen) : batch.deadlineReached = false := by
  induction course with
  | done => rfl
  | late checked => cases checked.uncut inTime
  | succeeded _ _ _ ih => exact ih (inTime_append.mp inTime).2
  | cutOff _ _ cutOff => cases cutOff.uncut (inTime_append.mp inTime).2
  | aborted => rfl
  | failed _ _ _ _ _ ih => exact ih (inTime_append.mp inTime).2

theorem VerdictCourse.uncut {context : ScriptContext} {trigger : Trigger} {verdict : Verdict}
    {seen : List (Observation World)}
    (course : VerdictCourse evaluator deadline context trigger verdict seen)
    (inTime : InTime deadline seen) : verdict.interrupted = false := by
  cases course with
  | unconditional => rfl
  | conditional _ _ asked => exact asked.uncut inTime
  | unasked => rfl

theorem TriggersCourse.uncut {graph : RuleGraph} {context : ScriptContext}
    {triggers : List Trigger} {batch : TriggerBatch} {seen : List (Observation World)}
    (course : TriggersCourse evaluator deadline graph context triggers batch seen)
    (inTime : InTime deadline seen) : batch.interrupted = false := by
  induction course with
  | done => rfl
  | late checked => cases checked.uncut inTime
  | judged _ judged running _ ih =>
      rw [inTime_append, inTime_append, inTime_append] at inTime
      obtain ⟨⟨⟨_, asked⟩, ran⟩, later⟩ := inTime
      rw [judged.uncut asked, ih later]
      cases running with
      | fired _ running => rw [running.uncut ran]; rfl
      | quiet => rfl

theorem RuleCourse.uncut {graph : RuleGraph} {event : Event} {rule : Rule}
    {record : ExecutionRecord} {interrupted : Bool} {seen : List (Observation World)}
    (course : RuleCourse evaluator deadline graph event rule record interrupted seen)
    (inTime : InTime deadline seen) : interrupted = false := by
  cases course with
  | skipped _ _ checked => cases checked.uncut (inTime_append.mp inTime).1
  | judged _ _ _ _ _ asked judging =>
      rw [asked.uncut (inTime.subset fun _ held => by simp [held])]
      cases judging with
      | matched _ judging => exact judging.uncut (inTime.subset fun _ held => by simp [held])
      | unmatched => rfl

theorem RulesCourse.uncut {graph : RuleGraph} {event : Event} {rules : List Rule}
    {records : List ExecutionRecord} {interrupted : Bool} {seen : List (Observation World)}
    (course : RulesCourse evaluator deadline graph event rules records interrupted seen)
    (inTime : InTime deadline seen) : interrupted = false := by
  induction course with
  | done => rfl
  | next judged _ ih =>
      obtain ⟨early, later⟩ := inTime_append.mp inTime
      rw [judged.uncut early, ih later]
      rfl

/-! An evaluation that is not cut short comes to what it has to -/

theorem CheckCourse.noRuns {past : Bool} {seen : List (Observation World)}
    (course : CheckCourse deadline past seen) : scriptRuns seen = [] := by
  cases course <;> rfl

theorem CutOffCourse.noRuns {fault : Script.Fault} {cut : Bool} {seen : List (Observation World)}
    (course : CutOffCourse deadline fault cut seen) : scriptRuns seen = [] := by
  cases course with
  | other => rfl
  | timeout _ checked => exact checked.noRuns

theorem RunCourse.runs {script : String} {context : ScriptContext}
    {result : Except Script.Fault ScriptOutput} {seen : List (Observation World)}
    (course : RunCourse evaluator deadline script context result seen) :
    ∃ run, scriptRuns seen = [run] ∧ run.IsOf evaluator script context ∧ run.result = result := by
  cases course with
  | ran reading world answered => exact ⟨_, rfl, ⟨rfl, rfl, rfl, answered⟩, rfl⟩

end Evaluator

theorem answerOf_eq_ok {value : Json} {answer : Bool} :
    answerOf value = .ok answer ↔ value = .bool answer ∨ (value = .null ∧ answer = false) := by
  cases value <;> simp [answerOf, eq_comm]

theorem answerOf_eq_error {value : Json} {fault : Script.Fault} :
    answerOf value = .error fault ↔
      ¬ IsAnswer value ∧ fault = .misshapen "bool" value.typeName := by
  cases value with
  | bool answer => cases answer <;> simp [answerOf, IsAnswer]
  | _ => simp [answerOf, IsAnswer, eq_comm]

namespace Answers

variable {result : Except Script.Fault ScriptOutput}

theorem ofAnswer {answer : Bool}
    (answered : (result.bind fun output => answerOf output.value) = .ok answer) :
    Answers result answer none := by
  cases result with
  | error fault => cases answered
  | ok output =>
      obtain ⟨value, logs⟩ := output
      have known := answerOf_eq_ok.mp answered
      constructor
      · rcases known with rfl | ⟨rfl, rfl⟩ <;> simp
      · exact fun _ _ _ => rfl
      · rintro _ ⟨⟩ other
        refine absurd ?_ other
        rcases known with rfl | ⟨rfl, _⟩ <;> cases answer <;> simp [IsAnswer]
      · rintro _ ⟨⟩

theorem ofFault {fault : Script.Fault}
    (failed : (result.bind fun output => answerOf output.value) = .error fault) :
    Answers result false (some fault.toFailure) := by
  cases result with
  | error other =>
      cases failed
      constructor
      · simp
      · rintro _ ⟨⟩
      · rintro _ ⟨⟩
      · rintro _ ⟨⟩
        rfl
  | ok output =>
      obtain ⟨other, rfl⟩ := answerOf_eq_error.mp failed
      constructor
      · simp only [Bool.false_eq_true, false_iff, not_exists]
        rintro logs ⟨⟩
        exact other (.inl rfl)
      · rintro _ ⟨⟩ answer
        exact absurd answer other
      · rintro _ ⟨⟩ _
        rfl
      · rintro _ ⟨⟩

end Answers

namespace Evaluator

variable {evaluator : Evaluator World} {deadline : Nat}

theorem AskCourse.answers {script : String} {context : ScriptContext} {verdict : Verdict}
    {seen : List (Observation World)}
    (course : AskCourse evaluator deadline script context verdict seen) :
    ∃ run, scriptRuns seen = [run] ∧ run.IsOf evaluator script context ∧
      Answers run.result verdict.holds (verdict.fault.map (·.toFailure)) := by
  cases course with
  | answered ran answered =>
      obtain ⟨run, runs, ofScript, rfl⟩ := ran.runs
      exact ⟨run, runs, ofScript, .ofAnswer answered⟩
  | failed ran failed cutOff =>
      obtain ⟨run, runs, ofScript, rfl⟩ := ran.runs
      refine ⟨run, ?_, ofScript, .ofFault failed⟩
      rw [scriptRuns_append, runs, cutOff.noRuns, List.append_nil]

theorem ActionCourse.run {trigger : Uuid} {context : ScriptContext} {action : Action}
    {outcome : ActionOutcome} {failure : Option Script.Fault} {seen : List (Observation World)}
    (course : ActionCourse evaluator deadline trigger context action outcome failure seen) :
    ∃ run duration, scriptRuns seen = [run] ∧
      run.IsOf evaluator action.script (actionContext context action.id) ∧
      match failure with
      | none => ∃ output, run.result = .ok output ∧
          outcome = ⟨action.id, trigger, true, true, none, duration, output.logs⟩
      | some fault => run.result = .error fault ∧
          outcome = ⟨action.id, trigger, true, false, some fault.toFailure, duration, []⟩ := by
  cases course with
  | succeeded start stop ran =>
      obtain ⟨run, runs, ofScript, result⟩ := ran.runs
      refine ⟨run, _, ?_, ofScript, _, result, rfl⟩
      simpa [scriptRuns] using runs
  | failed start stop ran =>
      obtain ⟨run, runs, ofScript, result⟩ := ran.runs
      refine ⟨run, _, ?_, ofScript, result, rfl⟩
      simpa [scriptRuns] using runs

theorem ActionsCourse.ran {trigger : Uuid} {context : ScriptContext} {actions : List Action}
    {batch : ActionBatch} {seen : List (Observation World)}
    (course : ActionsCourse evaluator deadline trigger context actions batch seen)
    (uncut : batch.deadlineReached = false) :
    ActionsRan evaluator trigger context actions (scriptRuns seen) batch.outcomes := by
  induction course with
  | done => exact .done
  | late => cases uncut
  | succeeded checked ran others ih =>
      obtain ⟨run, duration, runs, ofScript, output, result, rfl⟩ := ran.run
      rw [scriptRuns_append, scriptRuns_append, checked.noRuns, runs]
      exact .succeeded duration ofScript result (ih uncut)
  | cutOff => cases uncut
  | aborted checked ran cutOff aborts =>
      obtain ⟨run, duration, runs, ofScript, result, rfl⟩ := ran.run
      rw [scriptRuns_append, scriptRuns_append, checked.noRuns, runs, cutOff.noRuns]
      exact .aborted duration ofScript result aborts
  | failed checked ran cutOff goesOn others ih =>
      obtain ⟨run, duration, runs, ofScript, result, rfl⟩ := ran.run
      rw [scriptRuns_append, scriptRuns_append, scriptRuns_append, checked.noRuns, runs,
        cutOff.noRuns]
      have policy : evaluator.policy = .goOn := by
        cases choice : evaluator.policy with
        | goOn => rfl
        | abort => exact absurd choice goesOn
      exact .failed duration ofScript result policy (ih uncut)

theorem VerdictCourse.firing {graph : RuleGraph} {context : ScriptContext} {trigger : Trigger}
    {verdict : Verdict} {batch : ActionBatch} {asked ran : List (Observation World)}
    (fit : trigger.IsFit)
    (judged : VerdictCourse evaluator deadline context trigger verdict asked)
    (running : FiringCourse evaluator deadline graph context trigger verdict batch ran)
    (uncut : batch.deadlineReached = false) :
    Firing.IsFaithful evaluator graph context
      ⟨trigger, scriptRuns asked, outcomeOf trigger verdict, scriptRuns ran, batch.outcomes⟩ := by
  have acting :
      (verdict.holds = true → ActionsRan evaluator trigger.id context
        ((graph.actionsFor trigger).filter (·.enabled)) (scriptRuns ran) batch.outcomes) ∧
      (verdict.holds = false → scriptRuns ran = [] ∧ batch.outcomes = []) := by
    cases running with
    | fired holds running =>
        exact ⟨fun _ => running.ran uncut, fun quiet => absurd (holds.symm.trans quiet) (by simp)⟩
    | quiet quiet =>
        exact ⟨fun holds => absurd (holds.symm.trans quiet) (by simp), fun _ => ⟨rfl, rfl⟩⟩
  obtain ⟨fired, quiet⟩ := acting
  cases judged with
  | unconditional kind =>
      refine ⟨rfl, rfl, fun _ => ⟨rfl, rfl, rfl⟩, ?_, fired, quiet⟩
      intro conditional
      exact absurd (kind.symm.trans conditional) (by simp)
  | conditional kind condition judged =>
      obtain ⟨run, runs, ofScript, answers⟩ := judged.answers
      refine ⟨rfl, rfl, ?_, ?_, fired, quiet⟩
      · intro unconditional
        exact absurd (kind.symm.trans unconditional) (by simp)
      · exact fun _ => ⟨_, run, condition, runs, ofScript, answers⟩
  | unasked kind condition =>
      have present := fit.mpr kind
      rw [condition] at present
      cases present

theorem TriggersCourse.firings {graph : RuleGraph} {context : ScriptContext}
    {triggers : List Trigger} {batch : TriggerBatch} {seen : List (Observation World)}
    (course : TriggersCourse evaluator deadline graph context triggers batch seen)
    (fit : ∀ trigger ∈ triggers, trigger.IsFit) (uncut : batch.interrupted = false) :
    ∃ firings : List (Firing World),
      firings.map (·.trigger) = triggers ∧ batch.outcomes = firings.map (·.outcome) ∧
        batch.actions = firings.flatMap (·.actions) ∧
        scriptRuns seen = (firings.flatMap fun firing => firing.asked ++ firing.ran) ∧
        ∀ firing ∈ firings, firing.IsFaithful evaluator graph
          (context.withTrigger firing.trigger.id) := by
  induction course with
  | done => exact ⟨[], rfl, rfl, rfl, rfl, fun _ held => nomatch held⟩
  | late => cases uncut
  | @judged trigger rest check asked ran later verdict batch others checked judged running _ ih =>
      simp only [Bool.or_eq_false_iff] at uncut
      obtain ⟨⟨_, ranUncut⟩, laterUncut⟩ := uncut
      have faithful := judged.firing (fit trigger (by simp)) running ranUncut
      obtain ⟨firings, same, outcomes, actions, runs, eachFaithful⟩ :=
        ih (fun other held => fit other (List.mem_cons_of_mem _ held)) laterUncut
      refine ⟨⟨trigger, scriptRuns asked, outcomeOf trigger verdict, scriptRuns ran,
        batch.outcomes⟩ :: firings, ?_, ?_, ?_, ?_, ?_⟩
      · rw [List.map_cons, same]
      · rw [List.map_cons, outcomes]
      · rw [List.flatMap_cons, actions]
      · rw [scriptRuns_append, scriptRuns_append, scriptRuns_append, checked.noRuns, runs,
          List.flatMap_cons, List.nil_append]
      · intro firing held
        rcases List.mem_cons.mp held with rfl | held
        · exact faithful
        · exact eachFaithful firing held

theorem enabledTriggers_listed {graph : RuleGraph} {id : Uuid} {rule : Rule}
    (intact : graph.Intact) (found : graph.rules.get? id = some rule) :
    ∃ listed : List Trigger, listed.map (·.id) = rule.triggers ∧
      (∀ trigger ∈ listed, graph.triggers.get? trigger.id = some trigger) ∧
      enabledTriggers graph rule = listed.filter (·.enabled) := by
  refine ⟨rule.triggers.filterMap fun key => graph.triggers.get? key, ?_, ?_, rfl⟩
  · apply Table.map_filterMap_get? intact.triggers
    intro key held
    obtain ⟨trigger, search, _⟩ := (intact.listed key id).mpr ⟨rule, found, held⟩
    simp [search]
  · intro trigger held
    obtain ⟨key, _, search⟩ := List.mem_filterMap.mp held
    rw [intact.triggers.own key trigger search]
    exact search

theorem RuleCourse.judgement {graph : RuleGraph} {event : Event} {rule : Rule}
    {record : ExecutionRecord} {interrupted : Bool} {seen : List (Observation World)} {id : Uuid}
    (course : RuleCourse evaluator deadline graph event rule record interrupted seen)
    (intact : graph.Intact) (fit : graph.IsFit) (found : graph.rules.get? id = some rule)
    (uncut : interrupted = false) :
    ∃ judgement : Judgement World,
      judgement.record = record ∧ judgement.rule = rule ∧ scriptRuns seen = judgement.runs ∧
        judgement.IsFaithful evaluator graph event := by
  obtain ⟨listed, all, held, enabled⟩ := enabledTriggers_listed intact found
  cases course with
  | skipped => cases uncut
  | @judged check asked judged verdict batch start stop key timestamp checked answered judging =>
      obtain ⟨run, runs, ofScript, answers⟩ := answered.answers
      rw [scriptRuns_judged checked.noRuns, runs]
      cases judging with
      | matched holds judging =>
          have eachFit : ∀ trigger ∈ enabledTriggers graph rule, trigger.IsFit := by
            intro trigger member
            rw [enabled] at member
            exact fit trigger.id trigger (held trigger (List.mem_filter.mp member).1)
          obtain ⟨firings, same, outcomes, actions, firingRuns, faithful⟩ :=
            judging.firings eachFit (Bool.or_eq_false_iff.mp uncut).2
          refine ⟨⟨rule, run, firings, _⟩, rfl, rfl, ?_, ?_⟩
          · rw [firingRuns]
            rfl
          · exact ⟨rfl, rfl, rfl, rfl, ofScript, answers, fun unmatched =>
              absurd (holds.symm.trans unmatched) (by simp), fun _ => ⟨listed, all, held,
              same.trans enabled⟩, outcomes, actions, faithful⟩
      | unmatched quiet =>
          refine ⟨⟨rule, run, [], _⟩, rfl, rfl, rfl, ?_⟩
          exact ⟨rfl, rfl, rfl, rfl, ofScript, answers, fun _ => rfl, fun matched =>
            absurd (matched.symm.trans quiet) (by simp), rfl, rfl, fun _ held => nomatch held⟩

theorem RulesCourse.judgements {graph : RuleGraph} {event : Event} {rules : List Rule}
    {records : List ExecutionRecord} {interrupted : Bool} {seen : List (Observation World)}
    (course : RulesCourse evaluator deadline graph event rules records interrupted seen)
    (intact : graph.Intact) (fit : graph.IsFit)
    (held : ∀ rule ∈ rules, ∃ id, graph.rules.get? id = some rule)
    (uncut : interrupted = false) :
    ∃ judgements : List (Judgement World),
      judgements.map (·.record) = records ∧ judgements.map (·.rule) = rules ∧
        scriptRuns seen = judgements.flatMap Judgement.runs ∧
        ∀ judgement ∈ judgements, judgement.IsFaithful evaluator graph event := by
  induction course with
  | done => exact ⟨[], rfl, rfl, rfl, fun _ held => nomatch held⟩
  | next judged _ ih =>
      obtain ⟨early, later⟩ := Bool.or_eq_false_iff.mp uncut
      obtain ⟨id, found⟩ := held _ (List.mem_cons_self)
      obtain ⟨judgement, rfl, rfl, runs, faithful⟩ := judged.judgement intact fit found early
      obtain ⟨judgements, records, rules, otherRuns, eachFaithful⟩ :=
        ih (fun other member => held other (List.mem_cons_of_mem _ member)) later
      refine ⟨judgement :: judgements, ?_, ?_, ?_, ?_⟩
      · rw [List.map_cons, records]
      · rw [List.map_cons, rules]
      · rw [scriptRuns_append, runs, otherRuns, List.flatMap_cons]
      · intro other member
        rcases List.mem_cons.mp member with rfl | member
        · exact faithful
        · exact eachFaithful other member

/-- The records of a pass that is not cut short are those of the judgements of its rules. -/
theorem RulesCourse.passJudgements {graph : RuleGraph} {event : Event}
    {records : List ExecutionRecord} {seen : List (Observation World)}
    (course : RulesCourse evaluator deadline graph event (graph.rulesInOrder true) records false
      seen)
    (intact : graph.Intact) (fit : graph.IsFit) :
    ∃ judgements : List (Judgement World),
      (records.map fun record => { record with status := passStatus false }) =
          judgements.map (·.record) ∧
        judgements.map (·.rule) = graph.rulesInOrder true ∧
        scriptRuns seen = judgements.flatMap Judgement.runs ∧
        ∀ judgement ∈ judgements, judgement.IsFaithful evaluator graph event := by
  have held (rule : Rule) (member : rule ∈ graph.rulesInOrder true) :
      ∃ id, graph.rules.get? id = some rule :=
    (Table.mem_values_iff intact.rules.nodup).mp (RuleGraph.mem_rulesInOrder.mp member).1
  obtain ⟨judgements, rfl, rules, runs, faithful⟩ := course.judgements intact fit held rfl
  refine ⟨judgements, ?_, rules, runs, faithful⟩
  rw [List.map_map]
  refine List.map_congr_left fun judgement member => ?_
  change { judgement.record with status := .completed } = judgement.record
  rw [← (faithful judgement member).completed]

end Evaluator

theorem Evaluator.evaluate_judgements (evaluator : Evaluator World) (graph : RuleGraph)
    (event : Event) (progress : Progress World) (intact : graph.Intact) (fit : graph.IsFit)
    (onTime : OnTime evaluator.allowance (evaluator.observations graph event progress)) :
    ∃ judgements : List (Judgement World),
      (evaluator.evaluate graph event progress).1 = judgements.map (·.record) ∧
        judgements.map (·.rule) = graph.rulesInOrder true ∧
        scriptRuns (evaluator.observations graph event progress) =
          judgements.flatMap Judgement.runs ∧
        ∀ judgement ∈ judgements, judgement.IsFaithful evaluator graph event := by
  obtain ⟨start, later, seen, inTime⟩ := onTime
  have course := evaluator.observations_course graph event progress
  rw [seen] at course ⊢
  generalize (evaluator.evaluate graph event progress).1 = records at course ⊢
  cases course with
  | @pass records interrupted _ _ course =>
      have uncut : interrupted = false := course.uncut inTime
      subst uncut
      exact course.passJudgements intact fit

/-- An evaluation that is in time judges an event by every enabled rule once, in their order, and
each record tells what the scripts that ran for it have answered. -/
theorem evaluation_faithful (evaluator : Evaluator World) (graph : RuleGraph)
    (event : Event) (progress : Progress World) (reachable : graph.Reachable)
    (onTime : OnTime evaluator.allowance (evaluator.observations graph event progress)) :
    ∃ judgements : List (Judgement World),
      (evaluator.evaluate graph event progress).1 = judgements.map (·.record) ∧
        (∀ rule, rule ∈ judgements.map (·.rule) ↔
          rule ∈ graph.rules.values ∧ rule.enabled = true) ∧
        (judgements.map (·.rule)).Pairwise Rule.Precedes ∧
        scriptRuns (evaluator.observations graph event progress) =
          judgements.flatMap Judgement.runs ∧
        ∀ judgement ∈ judgements, judgement.IsFaithful evaluator graph event := by
  obtain ⟨operations, history⟩ := reachable
  have intact := RuleGraph.Intact.ofHistory history
  obtain ⟨judgements, records, rules, runs, faithful⟩ :=
    evaluator.evaluate_judgements graph event progress intact (.ofHistory history) onTime
  refine ⟨judgements, records, ?_, ?_, runs, faithful⟩
  · intro rule
    rw [rules, RuleGraph.mem_rulesInOrder]
    simp
  · rw [rules]
    exact intact.rulesInOrder_precede

/-- An evaluator whose clock stands still, and for which every script says yes. It counts the runs
of scripts. -/
def stillEvaluator : Evaluator Nat where
  platform := {
    check := fun _ _ => .ok ()
    run := fun _ _ _ runs => (.ok ⟨.bool true, []⟩, runs + 1)
    clock := fun runs => (0, runs)
    now := fun runs => (⟨0, 0⟩, runs)
    fresh := fun runs => (⟨0⟩, runs) }
  limits := default
  policy := .abort
  allowance := 1

theorem boundOperations_faithful :
    let graph := Operation.run boundOperations {}
    let event : Event := ⟨⟨4⟩, .null, ⟨0, 0⟩⟩
    graph.Reachable ∧ OnTime 1 (stillEvaluator.observations graph event ⟨0, []⟩) ∧
      ∃ judgements : List (Judgement Nat),
        (stillEvaluator.evaluate graph event ⟨0, []⟩).1 = judgements.map (·.record) ∧
          ∀ judgement ∈ judgements, judgement.IsFaithful stillEvaluator graph event := by
  intro graph event
  have reachable : graph.Reachable := ⟨boundOperations, History.ofFresh (by decide)⟩
  have onTime : OnTime 1 (stillEvaluator.observations graph event ⟨0, []⟩) := by decide +kernel
  obtain ⟨judgements, records, _, _, _, faithful⟩ :=
    evaluation_faithful stillEvaluator graph event ⟨0, []⟩ reachable onTime
  exact ⟨reachable, onTime, judgements, records, faithful⟩

end Rulebook

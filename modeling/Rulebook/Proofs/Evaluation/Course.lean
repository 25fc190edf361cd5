import Rulebook.Proofs.Evaluation.Observation

/-!
The course of an evaluation, told by what is seen on the way: every reading of the clock, every run
of a script and every fresh identifier, in order. There is one rule for each way that a step can
take, and every evaluation takes its course.
-/

namespace Rulebook

namespace Evaluator

variable {World : Type} (evaluator : Evaluator World) (deadline : Nat)

/-- A script runs in what time the clock says is left. -/
inductive RunCourse (script : String) (context : ScriptContext)
    (result : Except Script.Fault ScriptOutput) : List (Observation World) → Prop where
  | ran (reading : Nat) (world : World) :
      result = (evaluator.platform.run script context (evaluator.limits.clamped deadline reading)
        world).1 →
      RunCourse script context result [.clock reading,
        .run ⟨world, script, context, evaluator.limits.clamped deadline reading, result⟩]

/-- The clock is read to tell whether the deadline has passed. -/
inductive CheckCourse : Bool → List (Observation World) → Prop where
  | inTime {reading : Nat} : reading < deadline → CheckCourse false [.clock reading]
  | past {reading : Nat} : deadline ≤ reading → CheckCourse true [.clock reading]

/-- Only for a timeout does the clock tell whether the deadline has passed. -/
inductive CutOffCourse (fault : Script.Fault) : Bool → List (Observation World) → Prop where
  | other : fault.isTimeout = false → CutOffCourse fault false []
  | timeout {cut : Bool} {seen : List (Observation World)} : fault.isTimeout = true →
      CheckCourse deadline cut seen → CutOffCourse fault cut seen

inductive AskCourse (script : String) (context : ScriptContext) :
    Verdict → List (Observation World) → Prop where
  | answered {result : Except Script.Fault ScriptOutput} {seen : List (Observation World)}
      {answer : Bool} :
      RunCourse evaluator deadline script context result seen →
      (result.bind fun output => answerOf output.value) = .ok answer →
      AskCourse script context ⟨answer, none, false⟩ seen
  | failed {result : Except Script.Fault ScriptOutput} {seen later : List (Observation World)}
      {fault : Script.Fault} {cut : Bool} :
      RunCourse evaluator deadline script context result seen →
      (result.bind fun output => answerOf output.value) = .error fault →
      CutOffCourse deadline fault cut later →
      AskCourse script context ⟨false, some fault, cut⟩ (seen ++ later)

inductive VerdictCourse (context : ScriptContext) (trigger : Trigger) :
    Verdict → List (Observation World) → Prop where
  | unconditional : trigger.kind = .unconditional →
      VerdictCourse context trigger ⟨true, none, false⟩ []
  | conditional {script : String} {verdict : Verdict} {seen : List (Observation World)} :
      trigger.kind = .conditional → trigger.condition = some script →
      AskCourse evaluator deadline script context verdict seen →
      VerdictCourse context trigger verdict seen
  | unasked : trigger.kind = .conditional → trigger.condition = none →
      VerdictCourse context trigger ⟨false, none, false⟩ []

/-- An action runs; its fault is given beside its outcome. -/
inductive ActionCourse (trigger : Uuid) (context : ScriptContext) (action : Action) :
    ActionOutcome → Option Script.Fault → List (Observation World) → Prop where
  | succeeded {output : ScriptOutput} {seen : List (Observation World)} (start stop : Nat) :
      RunCourse evaluator deadline action.script (actionContext context action.id) (.ok output)
        seen →
      ActionCourse trigger context action
        ⟨action.id, trigger, true, true, none, milliseconds (stop - start), output.logs⟩ none
        (.clock start :: seen ++ [.clock stop])
  | failed {fault : Script.Fault} {seen : List (Observation World)} (start stop : Nat) :
      RunCourse evaluator deadline action.script (actionContext context action.id) (.error fault)
        seen →
      ActionCourse trigger context action
        ⟨action.id, trigger, true, false, some fault.toFailure, milliseconds (stop - start), []⟩
        (some fault) (.clock start :: seen ++ [.clock stop])

inductive ActionsCourse (trigger : Uuid) (context : ScriptContext) :
    List Action → ActionBatch → List (Observation World) → Prop where
  | done : ActionsCourse trigger context [] ⟨[], false⟩ []
  | late {action : Action} {rest : List Action} {check : List (Observation World)} :
      CheckCourse deadline true check →
      ActionsCourse trigger context (action :: rest)
        ⟨skipActions trigger (action :: rest), true⟩ check
  | succeeded {action : Action} {rest : List Action} {check seen later : List (Observation World)}
      {outcome : ActionOutcome} {batch : ActionBatch} :
      CheckCourse deadline false check →
      ActionCourse evaluator deadline trigger context action outcome none seen →
      ActionsCourse trigger context rest batch later →
      ActionsCourse trigger context (action :: rest)
        ⟨outcome :: batch.outcomes, batch.deadlineReached⟩ (check ++ seen ++ later)
  | cutOff {action : Action} {rest : List Action} {check seen later : List (Observation World)}
      {outcome : ActionOutcome} {fault : Script.Fault} :
      CheckCourse deadline false check →
      ActionCourse evaluator deadline trigger context action outcome (some fault) seen →
      CutOffCourse deadline fault true later →
      ActionsCourse trigger context (action :: rest)
        ⟨outcome :: skipActions trigger rest, true⟩ (check ++ seen ++ later)
  | aborted {action : Action} {rest : List Action} {check seen later : List (Observation World)}
      {outcome : ActionOutcome} {fault : Script.Fault} :
      CheckCourse deadline false check →
      ActionCourse evaluator deadline trigger context action outcome (some fault) seen →
      CutOffCourse deadline fault false later → evaluator.policy = .abort →
      ActionsCourse trigger context (action :: rest)
        ⟨outcome :: skipActions trigger rest, false⟩ (check ++ seen ++ later)
  | failed {action : Action} {rest : List Action} {check seen cut later : List (Observation World)}
      {outcome : ActionOutcome} {fault : Script.Fault} {batch : ActionBatch} :
      CheckCourse deadline false check →
      ActionCourse evaluator deadline trigger context action outcome (some fault) seen →
      CutOffCourse deadline fault false cut → evaluator.policy ≠ .abort →
      ActionsCourse trigger context rest batch later →
      ActionsCourse trigger context (action :: rest)
        ⟨outcome :: batch.outcomes, batch.deadlineReached⟩ (check ++ seen ++ cut ++ later)

def outcomeOf (trigger : Trigger) (verdict : Verdict) : TriggerOutcome :=
  ⟨trigger.id, trigger.kind, verdict.holds, verdict.fault.map (·.toFailure)⟩

/-- The actions of a trigger run if it fires. -/
inductive FiringCourse (graph : RuleGraph) (context : ScriptContext) (trigger : Trigger) :
    Verdict → ActionBatch → List (Observation World) → Prop where
  | fired {verdict : Verdict} {batch : ActionBatch} {seen : List (Observation World)} :
      verdict.holds = true →
      ActionsCourse evaluator deadline trigger.id context
        ((graph.actionsFor trigger).filter (·.enabled)) batch seen →
      FiringCourse graph context trigger verdict batch seen
  | quiet {verdict : Verdict} : verdict.holds = false →
      FiringCourse graph context trigger verdict ⟨[], false⟩ []

inductive TriggersCourse (graph : RuleGraph) (context : ScriptContext) :
    List Trigger → TriggerBatch → List (Observation World) → Prop where
  | done : TriggersCourse graph context [] ⟨[], [], false⟩ []
  | late {trigger : Trigger} {rest : List Trigger} {check : List (Observation World)} :
      CheckCourse deadline true check →
      TriggersCourse graph context (trigger :: rest) ⟨[], [], true⟩ check
  | judged {trigger : Trigger} {rest : List Trigger}
      {check asked ran later : List (Observation World)} {verdict : Verdict} {batch : ActionBatch} {others : TriggerBatch} :
      CheckCourse deadline false check →
      VerdictCourse evaluator deadline (context.withTrigger trigger.id) trigger verdict asked →
      FiringCourse evaluator deadline graph (context.withTrigger trigger.id) trigger verdict batch
        ran →
      TriggersCourse graph context rest others later →
      TriggersCourse graph context (trigger :: rest)
        ⟨outcomeOf trigger verdict :: others.outcomes, batch.outcomes ++ others.actions,
          verdict.interrupted || batch.deadlineReached || others.interrupted⟩
        (check ++ asked ++ ran ++ later)

inductive MatchCourse (graph : RuleGraph) (context : ScriptContext) (rule : Rule) :
    Verdict → TriggerBatch → List (Observation World) → Prop where
  | matched {verdict : Verdict} {batch : TriggerBatch} {seen : List (Observation World)} :
      verdict.holds = true →
      TriggersCourse evaluator deadline graph context (enabledTriggers graph rule) batch seen →
      MatchCourse graph context rule verdict batch seen
  | unmatched {verdict : Verdict} : verdict.holds = false →
      MatchCourse graph context rule verdict ⟨[], [], false⟩ []

def ruleContext (event : Event) (rule : Rule) : ScriptContext :=
  (ScriptContext.ofEvent event.payload).withRule rule.id

/-- An event is evaluated by one rule, in time or too late. -/
inductive RuleCourse (graph : RuleGraph) (event : Event) (rule : Rule) :
    ExecutionRecord → Bool → List (Observation World) → Prop where
  | skipped {check : List (Observation World)} (id : Uuid) (timestamp : Instant) :
      CheckCourse deadline true check →
      RuleCourse graph event rule
        ⟨id, event.id, rule.id, rule.name, false, none, [], [], 0, timestamp, .partiallyEvaluated⟩
        true (check ++ [.fresh id, .now timestamp])
  | judged {check asked judged : List (Observation World)} {verdict : Verdict}
      {batch : TriggerBatch} (start stop : Nat) (id : Uuid) (timestamp : Instant) :
      CheckCourse deadline false check →
      AskCourse evaluator deadline rule.script (ruleContext event rule) verdict asked →
      MatchCourse evaluator deadline graph (ruleContext event rule) rule verdict batch judged →
      RuleCourse graph event rule
        ⟨id, event.id, rule.id, rule.name, verdict.holds, verdict.fault.map (·.toFailure),
          batch.outcomes, batch.actions, milliseconds (stop - start), timestamp, .completed⟩
        (verdict.interrupted || batch.interrupted)
        (check ++ .clock start :: asked ++ judged ++ [.clock stop, .fresh id, .now timestamp])

inductive RulesCourse (graph : RuleGraph) (event : Event) :
    List Rule → List ExecutionRecord → Bool → List (Observation World) → Prop where
  | done : RulesCourse graph event [] [] false []
  | next {rule : Rule} {rest : List Rule} {record : ExecutionRecord}
      {records : List ExecutionRecord} {interrupted others : Bool}
      {seen later : List (Observation World)} :
      RuleCourse evaluator deadline graph event rule record interrupted seen →
      RulesCourse graph event rest records others later →
      RulesCourse graph event (rule :: rest) (record :: records) (interrupted || others)
        (seen ++ later)

def passStatus (interrupted : Bool) : EvaluationStatus :=
  if interrupted then .partiallyEvaluated else .completed

/-- An event is evaluated by the enabled rules of a graph; the deadline is set at the start. -/
inductive PassCourse (graph : RuleGraph) (event : Event) :
    List ExecutionRecord → List (Observation World) → Prop where
  | pass {records : List ExecutionRecord} {interrupted : Bool} {seen : List (Observation World)}
      (start : Nat) :
      RulesCourse evaluator (start + evaluator.allowance) graph event (graph.rulesInOrder true)
        records interrupted seen →
      PassCourse graph event
        (records.map fun record => { record with status := passStatus interrupted })
        (.clock start :: seen)

/-! Every evaluation takes its course -/

theorem clock_observes :
    Observes evaluator.observed.clock evaluator.clock fun reading seen =>
      seen = [.clock reading] :=
  .ofReading .clock _

theorem isPast_observes :
    Observes (evaluator.observed.isPast deadline) (evaluator.isPast deadline)
      (CheckCourse deadline) := by
  refine (clock_observes evaluator).bind fun reading _ read => .pure ?_
  subst read
  by_cases past : deadline ≤ reading
  · simpa [past] using CheckCourse.past past
  · simpa [past] using CheckCourse.inTime (Nat.lt_of_not_le past)

theorem runScript_observes (script : String) (context : ScriptContext) :
    Observes (evaluator.observed.runScript script context deadline)
      (evaluator.runScript script context deadline)
      (RunCourse evaluator deadline script context) := by
  have running (reading : Nat) :=
    let limits := evaluator.limits.clamped deadline reading
    Observes.ofPlatform (fun world result => .run ⟨world, script, context, limits, result⟩)
      (evaluator.platform.run script context limits)
  refine (clock_observes evaluator).bind fun reading _ read => (running reading).imp ?_
  rintro result _ ⟨world, answered, rfl⟩
  subst read
  exact .ran reading world answered

theorem isCutOff_observes (fault : Script.Fault) :
    Observes (evaluator.observed.isCutOff fault deadline) (evaluator.isCutOff fault deadline)
      (CutOffCourse deadline fault) := by
  cases timeout : fault.isTimeout with
  | false =>
      simp only [isCutOff, timeout]
      exact .pure (.other timeout)
  | true =>
      simp only [isCutOff, timeout]
      exact (isPast_observes evaluator deadline).imp fun _ _ => .timeout timeout

theorem ask_observes (stage : ScriptStage) (script : String) (context : ScriptContext) :
    Observes (evaluator.observed.ask stage script context deadline)
      (evaluator.ask stage script context deadline)
      (AskCourse evaluator deadline script context) := by
  refine (runScript_observes evaluator deadline script context).bind fun result seen ran => ?_
  cases answered : result.bind fun output => answerOf output.value with
  | ok answer =>
      refine .pure ?_
      rw [List.append_nil]
      exact .answered ran answered
  | error fault =>
      refine (Observes.count _).bind fun _ _ nothing => ?_
      subst nothing
      refine (isCutOff_observes evaluator deadline fault).bind fun cut later cutOff => .pure ?_
      rw [List.nil_append, List.append_nil]
      exact .failed ran answered cutOff

theorem judgeTrigger_observes (context : ScriptContext) (trigger : Trigger) :
    Observes (evaluator.observed.judgeTrigger context deadline trigger)
      (evaluator.judgeTrigger context deadline trigger)
      (VerdictCourse evaluator deadline context trigger) := by
  cases kind : trigger.kind with
  | unconditional =>
      simp only [judgeTrigger, kind]
      exact .pure (.unconditional kind)
  | conditional =>
      cases condition : trigger.condition with
      | none =>
          simp only [judgeTrigger, kind, condition]
          exact .pure (.unasked kind condition)
      | some script =>
          simp only [judgeTrigger, kind, condition]
          exact (ask_observes evaluator deadline .trigger script context).imp fun _ _ =>
            .conditional kind condition

theorem runAction_observes (trigger : Uuid) (context : ScriptContext) (action : Action) :
    Observes (evaluator.observed.runAction trigger context deadline action)
      (evaluator.runAction trigger context deadline action)
      fun value => ActionCourse evaluator deadline trigger context action value.1 value.2 := by
  refine (clock_observes evaluator).bind fun start _ read => ?_
  subst read
  refine (runScript_observes evaluator deadline _ _).bind fun result seen ran => ?_
  refine (clock_observes evaluator).bind fun stop _ read => ?_
  subst read
  cases result with
  | ok output =>
      refine (Observes.count _).bind fun _ _ nothing => .pure ?_
      subst nothing
      exact .succeeded start stop ran
  | error fault =>
      refine (Observes.count _).bind fun _ _ nothing => (Observes.count _).bind fun _ _ still => ?_
      subst nothing still
      exact .pure (.failed start stop ran)

theorem runActions_observes (trigger : Uuid) (context : ScriptContext) (actions : List Action) :
    Observes (evaluator.observed.runActions trigger context deadline actions)
      (evaluator.runActions trigger context deadline actions)
      (ActionsCourse evaluator deadline trigger context actions) := by
  induction actions with
  | nil => exact .pure .done
  | cons action rest ih =>
      refine (isPast_observes evaluator deadline).bind fun past check checked => ?_
      cases past with
      | true =>
          refine .pure ?_
          rw [List.append_nil]
          exact .late checked
      | false =>
          refine (runAction_observes evaluator deadline trigger context action).bind
            fun value seen ran => ?_
          obtain ⟨outcome, _ | fault⟩ := value
          · refine ih.bind fun batch later others => .pure ?_
            rw [List.append_nil, ← List.append_assoc]
            exact .succeeded checked ran others
          · refine (isCutOff_observes evaluator deadline fault).bind fun cut between cutOff => ?_
            cases cut with
            | true =>
                refine .pure ?_
                rw [List.append_nil, ← List.append_assoc]
                exact .cutOff checked ran cutOff
            | false =>
                by_cases aborts : evaluator.policy = .abort
                · have aborts' : evaluator.observed.policy = .abort := aborts
                  simp only [aborts, aborts', if_true, Bool.false_eq_true, if_false]
                  refine .pure ?_
                  rw [List.append_nil, ← List.append_assoc]
                  exact .aborted checked ran cutOff aborts
                · have aborts' : evaluator.observed.policy ≠ .abort := aborts
                  simp only [aborts, aborts', Bool.false_eq_true, if_false]
                  refine ih.bind fun batch later others => .pure ?_
                  rw [List.append_nil, ← List.append_assoc, ← List.append_assoc]
                  exact .failed checked ran cutOff aborts others

theorem judgeTriggers_observes (graph : RuleGraph) (context : ScriptContext)
    (triggers : List Trigger) :
    Observes (evaluator.observed.judgeTriggers graph context deadline triggers)
      (evaluator.judgeTriggers graph context deadline triggers)
      (TriggersCourse evaluator deadline graph context triggers) := by
  induction triggers with
  | nil => exact .pure .done
  | cons trigger rest ih =>
      refine (isPast_observes evaluator deadline).bind fun past check checked => ?_
      cases past with
      | true =>
          refine .pure ?_
          rw [List.append_nil]
          exact .late checked
      | false =>
          refine (judgeTrigger_observes evaluator deadline _ trigger).bind
            fun verdict asked judged => ?_
          refine (Observes.count _).bind fun _ _ nothing => ?_
          subst nothing
          cases holds : verdict.holds with
          | true =>
              refine (runActions_observes evaluator deadline trigger.id _ _).bind
                fun batch ran running => ?_
              refine ih.bind fun others later judging => .pure ?_
              simpa [outcomeOf, holds] using
                TriggersCourse.judged checked judged (.fired holds running) judging
          | false =>
              refine (Observes.value _).bind fun _ _ quiet => ?_
              obtain ⟨rfl, rfl⟩ := quiet
              refine ih.bind fun others later judging => .pure ?_
              simpa [outcomeOf, holds] using
                TriggersCourse.judged checked judged (.quiet holds) judging

theorem fresh_observes :
    Observes (Evaluation.withWorld evaluator.observed.platform.fresh)
      (Evaluation.withWorld evaluator.platform.fresh) fun id seen => seen = [.fresh id] :=
  .ofReading .fresh _

theorem now_observes :
    Observes (Evaluation.withWorld evaluator.observed.platform.now)
      (Evaluation.withWorld evaluator.platform.now) fun instant seen => seen = [.now instant] :=
  .ofReading .now _

theorem judgeRule_observes (graph : RuleGraph) (event : Event) (rule : Rule)
    {check : List (Observation World)} (checked : CheckCourse deadline false check) :
    Observes (evaluator.observed.judgeRule graph event deadline rule)
      (evaluator.judgeRule graph event deadline rule)
      fun value seen =>
        RuleCourse evaluator deadline graph event rule value.1 value.2 (check ++ seen) := by
  refine (clock_observes evaluator).bind fun start _ read => ?_
  subst read
  refine (ask_observes evaluator deadline .predicate rule.script _).bind
    fun verdict asked answered => ?_
  cases holds : verdict.holds with
  | true =>
      refine (judgeTriggers_observes evaluator deadline graph _ _).bind
        fun batch judged judging => ?_
      refine (clock_observes evaluator).bind fun stop _ read => ?_
      refine (Observes.count _).bind fun _ _ nothing => ?_
      refine (fresh_observes evaluator).bind fun id _ drawn => ?_
      refine (now_observes evaluator).bind fun timestamp _ dated => .pure ?_
      subst read nothing drawn dated
      simpa [holds] using
        RuleCourse.judged start stop id timestamp checked answered (.matched holds judging)
  | false =>
      refine (Observes.value _).bind fun _ _ unmatched => ?_
      obtain ⟨rfl, rfl⟩ := unmatched
      refine (clock_observes evaluator).bind fun stop _ read => ?_
      refine (Observes.count _).bind fun _ _ nothing => ?_
      refine (fresh_observes evaluator).bind fun id _ drawn => ?_
      refine (now_observes evaluator).bind fun timestamp _ dated => .pure ?_
      subst read nothing drawn dated
      simpa [holds] using
        RuleCourse.judged start stop id timestamp checked answered (.unmatched holds)

theorem skipRule_observes (graph : RuleGraph) (event : Event) (rule : Rule)
    {check : List (Observation World)} (checked : CheckCourse deadline true check) :
    Observes (evaluator.observed.skipRule event rule) (evaluator.skipRule event rule)
      fun record seen =>
        RuleCourse evaluator deadline graph event rule record true (check ++ seen) := by
  refine (fresh_observes evaluator).bind fun id _ drawn => ?_
  refine (now_observes evaluator).bind fun timestamp _ dated => .pure ?_
  subst drawn dated
  exact .skipped id timestamp checked

theorem judgeRules_observes (graph : RuleGraph) (event : Event) (rules : List Rule) :
    Observes (evaluator.observed.judgeRules graph event deadline rules)
      (evaluator.judgeRules graph event deadline rules)
      fun value => RulesCourse evaluator deadline graph event rules value.1 value.2 := by
  induction rules with
  | nil => exact .pure .done
  | cons rule rest ih =>
      refine (isPast_observes evaluator deadline).bind fun past check checked => ?_
      cases past with
      | true =>
          refine (skipRule_observes evaluator deadline graph event rule checked).bind
            fun record seen judged => ?_
          refine (Observes.value _).bind fun _ _ late => ?_
          obtain ⟨rfl, rfl⟩ := late
          refine ih.bind fun others later judging => .pure ?_
          simpa using RulesCourse.next judged judging
      | false =>
          refine (judgeRule_observes evaluator deadline graph event rule checked).bind
            fun value seen judged => ?_
          refine ih.bind fun others later judging => .pure ?_
          simpa using RulesCourse.next judged judging

theorem evaluate_observes (graph : RuleGraph) (event : Event) :
    Observes (evaluator.observed.evaluate graph event) (evaluator.evaluate graph event)
      (PassCourse evaluator graph event) := by
  refine (clock_observes evaluator).bind fun start _ read => ?_
  refine (judgeRules_observes evaluator _ graph event _).bind fun value seen judging => ?_
  refine (Observes.count _).bind fun _ _ nothing => .pure ?_
  subst read nothing
  rw [List.append_nil, List.append_nil]
  exact .pass start judging

end Evaluator

end Rulebook

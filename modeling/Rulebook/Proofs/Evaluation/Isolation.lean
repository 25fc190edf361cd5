import Rulebook.Proofs.Evaluation.Thread
import Rulebook.Proofs.Rules.Agreement

/-!
Rules do not get in the way of one another. What a rule's scripts can see of the world and change
in it is a view of the world. Where no other rule's scripts reach that view, two evaluations that
begin with the same view come to the same for the rule, whatever other rules there are.
-/

namespace Rulebook

variable {World View : Type}

/-- The scripts of a rule depend on a view of the world that only they can change, as long as their
runs are steady. -/
structure Evaluator.Isolates (evaluator : Evaluator World) (rule : Uuid) (view : World → View)
    (steady : ScriptRun World → Prop) : Prop where
  only : evaluator.platform.OnlyScripts view
  foreign : ∀ run : ScriptRun World, run.context.invocation.rule ≠ some rule →
    view (run.after evaluator.platform) = view run.world
  own : ∀ script context (left right : ScriptRun World), left.IsOf evaluator script context →
    right.IsOf evaluator script context → context.invocation.rule = some rule →
    steady left → steady right → view left.world = view right.world →
      left.result = right.result ∧
        view (left.after evaluator.platform) = view (right.after evaluator.platform)

def ActionOutcome.untimed (outcome : ActionOutcome) : ActionOutcome :=
  { outcome with milliseconds := 0 }

theorem Answers.unique {result : Except Script.Fault ScriptOutput} {holds others : Bool}
    {failure other : Option Script.Failure} (first : Answers result holds failure)
    (second : Answers result others other) : holds = others ∧ failure = other := by
  refine ⟨?_, ?_⟩
  · rw [Bool.eq_iff_iff, first.yes, second.yes]
  · cases result with
    | error fault => rw [first.failed fault rfl, second.failed fault rfl]
    | ok output =>
        by_cases answer : IsAnswer output.value
        · rw [first.clear output rfl answer, second.clear output rfl answer]
        · rw [first.misshapen output rfl answer, second.misshapen output rfl answer]

theorem skipped_eq {actions others : List Action} {trigger : Uuid}
    (alike : List.Forall₂ Action.Alike actions others) :
    actions.map (fun action => ActionOutcome.skipped action.id trigger) =
      others.map fun action => ActionOutcome.skipped action.id trigger := by
  induction alike with
  | nil => rfl
  | cons first _ ih => rw [List.map_cons, List.map_cons, ih, first.id]

variable {evaluator : Evaluator World}

/-- The first of some actions ran, and its result says how it went on. -/
theorem ActionsRan.cons {trigger : Uuid} {context : ScriptContext} {action : Action}
    {rest : List Action} {runs : List (ScriptRun World)} {outcomes : List ActionOutcome}
    (ran : ActionsRan evaluator trigger context (action :: rest) runs outcomes) :
    ∃ run more duration, runs = run :: more ∧
      run.IsOf evaluator action.script (Evaluator.actionContext context action.id) ∧
      match run.result with
      | .ok output => ∃ later,
        outcomes = ⟨action.id, trigger, true, true, none, duration, output.logs⟩ :: later ∧
          ActionsRan evaluator trigger context rest more later
      | .error fault => ∃ later,
        outcomes =
            ⟨action.id, trigger, true, false, some fault.toFailure, duration, []⟩ :: later ∧
          (evaluator.policy = .abort → more = [] ∧
            later = rest.map fun other => .skipped other.id trigger) ∧
          (evaluator.policy = .goOn → ActionsRan evaluator trigger context rest more later) := by
  cases ran with
  | @succeeded _ _ run runs output outcomes duration known result more =>
      refine ⟨run, runs, duration, rfl, known, ?_⟩
      rw [result]
      exact ⟨outcomes, rfl, more⟩
  | @failed _ _ run runs fault outcomes duration known result policy more =>
      refine ⟨run, runs, duration, rfl, known, ?_⟩
      rw [result]
      refine ⟨outcomes, rfl, fun aborts => ?_, fun _ => more⟩
      rw [policy] at aborts
      cases aborts
  | @aborted _ _ run fault duration known result policy =>
      refine ⟨run, [], duration, rfl, known, ?_⟩
      rw [result]
      refine ⟨_, rfl, fun _ => ⟨rfl, rfl⟩, fun goesOn => ?_⟩
      rw [policy] at goesOn
      cases goesOn

/-! Runs on behalf of a rule -/

theorem ActionsRan.onBehalf {trigger : Uuid} {context : ScriptContext} {actions : List Action}
    {runs : List (ScriptRun World)} {outcomes : List ActionOutcome}
    (ran : ActionsRan evaluator trigger context actions runs outcomes) :
    ∀ run ∈ runs, run.context.invocation.rule = context.invocation.rule := by
  have each {run : ScriptRun World} {script : String} {action : Uuid}
      (known : run.IsOf evaluator script (Evaluator.actionContext context action)) :
      run.context.invocation.rule = context.invocation.rule := by
    rw [known.context]
    rfl
  induction ran with
  | done => exact fun _ held => nomatch held
  | succeeded _ known _ _ ih => exact List.forall_mem_cons.mpr ⟨each known, ih⟩
  | failed _ known _ _ _ ih => exact List.forall_mem_cons.mpr ⟨each known, ih⟩
  | aborted _ known => exact List.forall_mem_cons.mpr ⟨each known, fun _ held => nomatch held⟩

theorem Firing.IsFaithful.onBehalf {graph : RuleGraph} {context : ScriptContext}
    {firing : Firing World} (faithful : firing.IsFaithful evaluator graph context) :
    ∀ run ∈ firing.asked ++ firing.ran,
      run.context.invocation.rule = context.invocation.rule := by
  intro run held
  rcases List.mem_append.mp held with asked | ran
  · cases kind : firing.trigger.kind with
    | unconditional =>
        rw [(faithful.unconditional kind).1] at asked
        cases asked
    | conditional =>
        obtain ⟨script, only, _, runs, known, _⟩ := faithful.conditional kind
        rw [runs, List.mem_singleton] at asked
        rw [asked, known.context]
  · cases fired : firing.outcome.fired with
    | true => exact (faithful.fired fired).onBehalf run ran
    | false =>
        rw [(faithful.quiet fired).1] at ran
        cases ran

theorem Judgement.IsFaithful.onBehalf {graph : RuleGraph} {event : Event}
    {judgement : Judgement World} (faithful : judgement.IsFaithful evaluator graph event) :
    ∀ run ∈ judgement.runs, run.context.invocation.rule = some judgement.rule.id := by
  intro run held
  rcases List.mem_cons.mp held with rfl | held
  · rw [faithful.asked.context]
    rfl
  · obtain ⟨firing, listed, held⟩ := List.mem_flatMap.mp held
    exact (faithful.firings firing listed).onBehalf run held

/-! Two evaluations of one rule -/

section TwoEvaluations

variable {rule : Uuid} {view : World → View} {steady : ScriptRun World → Prop}
  (isolates : evaluator.Isolates rule view steady) {context : ScriptContext}
  (own : context.invocation.rule = some rule) {start last otherLast : View}

include isolates own

theorem Evaluator.Isolates.run {script : String} {left right : ScriptRun World}
    {rest others : List (ScriptRun World)} (known : left.IsOf evaluator script context)
    (otherKnown : right.IsOf evaluator script context)
    (calm : ∀ run ∈ left :: rest, steady run) (otherCalm : ∀ run ∈ right :: others, steady run)
    (thread : Threaded evaluator.platform view start (left :: rest) last)
    (otherThread : Threaded evaluator.platform view start (right :: others) otherLast) :
    left.result = right.result ∧ ∃ middle,
      Threaded evaluator.platform view middle rest last ∧
        Threaded evaluator.platform view middle others otherLast := by
  obtain ⟨same, thread⟩ := Threaded.cons_iff.mp thread
  obtain ⟨otherSame, otherThread⟩ := Threaded.cons_iff.mp otherThread
  obtain ⟨results, views⟩ := isolates.own script context left right known otherKnown own
    (calm left List.mem_cons_self) (otherCalm right List.mem_cons_self) (same ▸ otherSame)
  exact ⟨results, _, thread, views ▸ otherThread⟩

theorem ActionsRan.agree {trigger : Uuid} {actions others : List Action}
    {runs otherRuns : List (ScriptRun World)} {outcomes otherOutcomes : List ActionOutcome}
    (alike : List.Forall₂ Action.Alike actions others)
    (ran : ActionsRan evaluator trigger context actions runs outcomes)
    (otherRan : ActionsRan evaluator trigger context others otherRuns otherOutcomes)
    (calm : ∀ run ∈ runs, steady run) (otherCalm : ∀ run ∈ otherRuns, steady run)
    (thread : Threaded evaluator.platform view start runs last)
    (otherThread : Threaded evaluator.platform view start otherRuns otherLast) :
    outcomes.map ActionOutcome.untimed = otherOutcomes.map ActionOutcome.untimed ∧
      last = otherLast := by
  have inner (action : Uuid) :
      (Evaluator.actionContext context action).invocation.rule = some rule := own
  induction alike generalizing start runs otherRuns outcomes otherOutcomes with
  | nil =>
      cases ran
      cases otherRan
      rw [Threaded.nil_iff.mp thread, Threaded.nil_iff.mp otherThread]
      exact ⟨rfl, rfl⟩
  | @cons action other rest others first alike ih =>
      obtain ⟨run, more, duration, rfl, known, goesOn⟩ := ran.cons
      obtain ⟨otherRun, otherMore, otherDuration, rfl, otherKnown, otherGoesOn⟩ := otherRan.cons
      rw [first.id, first.script] at known
      obtain ⟨same, middle, thread, otherThread⟩ :=
        isolates.run (inner _) known otherKnown calm otherCalm thread otherThread
      have calm' := fun run held => calm run (List.mem_cons_of_mem _ held)
      have otherCalm' := fun run held => otherCalm run (List.mem_cons_of_mem _ held)
      rw [← same] at otherGoesOn
      cases result : run.result with
      | ok output =>
          simp only [result] at goesOn otherGoesOn
          obtain ⟨later, rfl, further⟩ := goesOn
          obtain ⟨otherLater, rfl, otherFurther⟩ := otherGoesOn
          obtain ⟨outcomes, ends⟩ := ih further otherFurther calm' otherCalm' thread otherThread
          refine ⟨?_, ends⟩
          rw [List.map_cons, List.map_cons, outcomes, first.id]
          rfl
      | error fault =>
          simp only [result] at goesOn otherGoesOn
          obtain ⟨later, rfl, stops, further⟩ := goesOn
          obtain ⟨otherLater, rfl, otherStops, otherFurther⟩ := otherGoesOn
          cases policy : evaluator.policy with
          | goOn =>
              obtain ⟨outcomes, ends⟩ :=
                ih (further policy) (otherFurther policy) calm' otherCalm' thread otherThread
              refine ⟨?_, ends⟩
              rw [List.map_cons, List.map_cons, outcomes, first.id]
              rfl
          | abort =>
              obtain ⟨rfl, rfl⟩ := stops policy
              obtain ⟨rfl, rfl⟩ := otherStops policy
              rw [Threaded.nil_iff.mp thread, Threaded.nil_iff.mp otherThread]
              refine ⟨?_, rfl⟩
              rw [List.map_cons, List.map_cons, skipped_eq alike, first.id]
              rfl

theorem Firing.IsFaithful.answered {first second : RuleGraph} {left right : Firing World}
    (alike : left.trigger.Alike right.trigger)
    (faithful : left.IsFaithful evaluator first context)
    (otherFaithful : right.IsFaithful evaluator second context)
    (calm : ∀ run ∈ left.asked ++ left.ran, steady run)
    (otherCalm : ∀ run ∈ right.asked ++ right.ran, steady run)
    (thread : Threaded evaluator.platform view start (left.asked ++ left.ran) last)
    (otherThread : Threaded evaluator.platform view start (right.asked ++ right.ran) otherLast) :
    left.outcome = right.outcome ∧ ∃ middle,
      Threaded evaluator.platform view middle left.ran last ∧
        Threaded evaluator.platform view middle right.ran otherLast := by
  have whole (fired : left.outcome.fired = right.outcome.fired)
      (failure : left.outcome.error = right.outcome.error) : left.outcome = right.outcome := by
    have trigger := faithful.trigger
    have kind := faithful.kind
    rw [alike.id, ← otherFaithful.trigger] at trigger
    rw [alike.kind, ← otherFaithful.kind] at kind
    cases outcome : left.outcome
    cases other : right.outcome
    simp_all
  cases kind : left.trigger.kind with
  | unconditional =>
      obtain ⟨nothing, fired, clear⟩ := faithful.unconditional kind
      obtain ⟨otherNothing, otherFired, otherClear⟩ :=
        otherFaithful.unconditional (alike.kind ▸ kind)
      rw [nothing] at thread
      rw [otherNothing] at otherThread
      exact ⟨whole (fired.trans otherFired.symm) (clear.trans otherClear.symm), start, thread,
        otherThread⟩
  | conditional =>
      obtain ⟨script, run, condition, asked, known, answers⟩ := faithful.conditional kind
      obtain ⟨otherScript, otherRun, otherCondition, otherAsked, otherKnown, otherAnswers⟩ :=
        otherFaithful.conditional (alike.kind ▸ kind)
      rw [alike.condition, otherCondition] at condition
      cases condition
      rw [asked, List.singleton_append] at thread calm
      rw [otherAsked, List.singleton_append] at otherThread otherCalm
      obtain ⟨same, further⟩ :=
        isolates.run own known otherKnown calm otherCalm thread otherThread
      rw [same] at answers
      obtain ⟨fired, failure⟩ := answers.unique otherAnswers
      exact ⟨whole fired failure, further⟩

theorem Firing.IsFaithful.agree {first second : RuleGraph} {left right : Firing World}
    (alike : first.FireAlike second left.trigger right.trigger)
    (faithful : left.IsFaithful evaluator first context)
    (otherFaithful : right.IsFaithful evaluator second context)
    (calm : ∀ run ∈ left.asked ++ left.ran, steady run)
    (otherCalm : ∀ run ∈ right.asked ++ right.ran, steady run)
    (thread : Threaded evaluator.platform view start (left.asked ++ left.ran) last)
    (otherThread : Threaded evaluator.platform view start (right.asked ++ right.ran) otherLast) :
    left.outcome = right.outcome ∧
      left.actions.map ActionOutcome.untimed = right.actions.map ActionOutcome.untimed ∧
      last = otherLast := by
  obtain ⟨same, middle, thread, otherThread⟩ := faithful.answered isolates own alike.alike
    otherFaithful calm otherCalm thread otherThread
  refine ⟨same, ?_⟩
  cases fired : left.outcome.fired with
  | true =>
      have ran := faithful.fired fired
      have otherRan := otherFaithful.fired (same ▸ fired)
      rw [← alike.alike.id] at otherRan
      exact ran.agree isolates own alike.actions otherRan
        (fun run held => calm run (List.mem_append_right _ held))
        (fun run held => otherCalm run (List.mem_append_right _ held)) thread otherThread
  | false =>
      obtain ⟨nothing, actions⟩ := faithful.quiet fired
      obtain ⟨otherNothing, otherActions⟩ := otherFaithful.quiet (same ▸ fired)
      rw [nothing, Threaded.nil_iff] at thread
      rw [otherNothing, Threaded.nil_iff] at otherThread
      rw [actions, otherActions, thread, otherThread]
      exact ⟨rfl, rfl⟩

theorem Firing.agree {first second : RuleGraph} {firings others : List (Firing World)}
    (alike : List.Forall₂ (first.FireAlike second) (firings.map (·.trigger))
      (others.map (·.trigger)))
    (faithful : ∀ firing ∈ firings,
      firing.IsFaithful evaluator first (context.withTrigger firing.trigger.id))
    (otherFaithful : ∀ firing ∈ others,
      firing.IsFaithful evaluator second (context.withTrigger firing.trigger.id))
    (calm : ∀ run ∈ firings.flatMap fun firing => firing.asked ++ firing.ran, steady run)
    (otherCalm : ∀ run ∈ others.flatMap fun firing => firing.asked ++ firing.ran, steady run)
    (thread : Threaded evaluator.platform view start
      (firings.flatMap fun firing => firing.asked ++ firing.ran) last)
    (otherThread : Threaded evaluator.platform view start
      (others.flatMap fun firing => firing.asked ++ firing.ran) otherLast) :
    firings.map (·.outcome) = others.map (·.outcome) ∧
      (firings.flatMap (·.actions)).map ActionOutcome.untimed =
        (others.flatMap (·.actions)).map ActionOutcome.untimed ∧
      last = otherLast := by
  rw [List.forall₂_map_left_iff, List.forall₂_map_right_iff] at alike
  induction alike generalizing start with
  | nil =>
      rw [Threaded.nil_iff.mp thread, Threaded.nil_iff.mp otherThread]
      exact ⟨rfl, rfl, rfl⟩
  | @cons left right rest more same _ ih =>
      rw [List.flatMap_cons, Threaded.append_iff] at thread otherThread
      rw [List.flatMap_cons, List.forall_mem_append] at calm otherCalm
      obtain ⟨middle, thread, later⟩ := thread
      obtain ⟨otherMiddle, otherThread, otherLater⟩ := otherThread
      have head := faithful left List.mem_cons_self
      have otherHead := otherFaithful right List.mem_cons_self
      rw [← same.alike.id] at otherHead
      have inner : (context.withTrigger left.trigger.id).invocation.rule = some rule := own
      obtain ⟨outcome, actions, rfl⟩ := head.agree isolates inner same otherHead calm.1 otherCalm.1
        thread otherThread
      obtain ⟨outcomes, others, ends⟩ :=
        ih (fun firing held => faithful firing (List.mem_cons_of_mem _ held))
          (fun firing held => otherFaithful firing (List.mem_cons_of_mem _ held)) calm.2
          otherCalm.2 later otherLater
      refine ⟨?_, ?_, ends⟩
      · rw [List.map_cons, List.map_cons, outcome, outcomes]
      · rw [List.flatMap_cons, List.flatMap_cons, List.map_append, List.map_append, actions,
          others]

end TwoEvaluations

/-- Records that say the same of a rule, apart from what took how long. -/
structure ExecutionRecord.Alike (left right : ExecutionRecord) : Prop where
  matched : left.matched = right.matched
  error : left.error = right.error
  triggers : left.triggers = right.triggers
  actions : left.actions.map ActionOutcome.untimed = right.actions.map ActionOutcome.untimed

section Judgements

variable {view : World → View} {steady : ScriptRun World → Prop} {event : Event}

theorem Judgement.IsFaithful.agree {first second : RuleGraph} {left right : Judgement World}
    {start last otherLast : View} (isolates : evaluator.Isolates left.rule.id view steady)
    (agree : first.AgreeOn second left.rule right.rule) (intact : first.Intact)
    (otherIntact : second.Intact) (faithful : left.IsFaithful evaluator first event)
    (otherFaithful : right.IsFaithful evaluator second event)
    (calm : ∀ run ∈ left.runs, steady run) (otherCalm : ∀ run ∈ right.runs, steady run)
    (thread : Threaded evaluator.platform view start left.runs last)
    (otherThread : Threaded evaluator.platform view start right.runs otherLast) :
    left.record.Alike right.record ∧ last = otherLast := by
  have sameContext : Evaluator.ruleContext event right.rule =
      Evaluator.ruleContext event left.rule := by
    unfold Evaluator.ruleContext
    rw [agree.id]
  have own : (Evaluator.ruleContext event left.rule).invocation.rule = some left.rule.id := rfl
  have asked := faithful.asked
  have otherAsked := otherFaithful.asked
  have firings := faithful.firings
  have otherFirings := otherFaithful.firings
  rw [agree.script] at asked
  rw [sameContext] at otherAsked otherFirings
  unfold Judgement.runs at calm otherCalm thread otherThread
  obtain ⟨same, middle, thread, otherThread⟩ :=
    isolates.run own asked otherAsked calm otherCalm thread otherThread
  have answers := faithful.answers
  rw [same] at answers
  obtain ⟨matched, error⟩ := answers.unique otherFaithful.answers
  rw [List.forall_mem_cons] at calm otherCalm
  have paired : List.Forall₂ (first.FireAlike second) (left.firings.map (·.trigger))
      (right.firings.map (·.trigger)) := by
    cases holds : left.record.matched with
    | true =>
        obtain ⟨listed, keys, found, triggers⟩ := faithful.matched holds
        obtain ⟨others, otherKeys, otherFound, otherTriggers⟩ :=
          otherFaithful.matched (matched ▸ holds)
        rw [triggers, otherTriggers]
        exact agree.forall₂_fireAlike intact otherIntact keys found otherKeys otherFound
    | false =>
        rw [faithful.unmatched holds, otherFaithful.unmatched (matched ▸ holds)]
        exact .nil
  obtain ⟨outcomes, actions, ends⟩ := Firing.agree isolates own paired firings otherFirings calm.2
    otherCalm.2 thread otherThread
  refine ⟨⟨matched, error, ?_, ?_⟩, ends⟩
  · rw [faithful.triggers, otherFaithful.triggers, outcomes]
  · rw [faithful.actions, otherFaithful.actions, actions]

theorem RuleGraph.Intact.foreign {graph : RuleGraph} (intact : graph.Intact)
    {judgement : Judgement World} {before after : List (Judgement World)}
    (rules : (before ++ judgement :: after).map (·.rule) = graph.rulesInOrder true) :
    ∀ other ∈ before ++ after, other.rule.id ≠ judgement.rule.id := by
  have held (rule : Rule) (listed : rule ∈ (before ++ judgement :: after).map (·.rule)) :
      rule ∈ graph.rules.values := by
    rw [rules] at listed
    exact (RuleGraph.mem_rulesInOrder.mp listed).1
  have distinct : ((before ++ judgement :: after).map (·.rule)).Nodup := by
    rw [rules]
    refine intact.rulesInOrder_precede.imp fun precedes same => ?_
    subst same
    unfold Rule.Precedes at precedes
    omega
  rw [List.map_append, List.map_cons, List.nodup_middle, List.nodup_cons, ← List.map_append]
    at distinct
  intro other listed same
  have present : other.rule ∈ graph.rules.values := by
    refine held other.rule (List.mem_map_of_mem ?_)
    simp only [List.mem_append, List.mem_cons] at listed ⊢
    tauto
  have itself : judgement.rule ∈ graph.rules.values :=
    held judgement.rule (List.mem_map_of_mem (List.mem_append_right _ List.mem_cons_self))
  apply distinct.1
  rw [← intact.eq_of_id_eq present itself same]
  exact List.mem_map_of_mem listed

/-- Judgements by other rules leave the view of a rule alone, and no record of it. -/
theorem Evaluator.Isolates.others {graph : RuleGraph} {rule : Uuid}
    (isolates : evaluator.Isolates rule view steady) {part : List (Judgement World)}
    (faithful : ∀ judgement ∈ part, judgement.IsFaithful evaluator graph event)
    (foreign : ∀ judgement ∈ part, judgement.rule.id ≠ rule) :
    (∀ run ∈ part.flatMap Judgement.runs,
      view (run.after evaluator.platform) = view run.world) ∧
      (part.map (·.record)).filter (·.rule = rule) = [] := by
  constructor
  · intro run listed
    obtain ⟨judgement, held, asked⟩ := List.mem_flatMap.mp listed
    apply isolates.foreign
    rw [(faithful judgement held).onBehalf run asked]
    exact fun same => foreign judgement held (Option.some.inj same)
  · refine List.filter_eq_nil_iff.mpr fun record listed => ?_
    obtain ⟨judgement, held, rfl⟩ := List.mem_map.mp listed
    rw [decide_eq_true_eq, (faithful judgement held).ofRule]
    exact foreign judgement held

/-- Of all that happens in an evaluation, only the judgement by a rule itself concerns the rule. -/
theorem Evaluator.Isolates.judgement {graph : RuleGraph} {rule : Rule}
    (isolates : evaluator.Isolates rule.id view steady) {progress : Progress World}
    (reachable : graph.Reachable) (held : graph.rules.get? rule.id = some rule)
    (enabled : rule.enabled = true)
    (onTime : OnTime evaluator.allowance (evaluator.observations graph event progress)) :
    ∃ judgement : Judgement World, judgement.rule = rule ∧
      judgement.IsFaithful evaluator graph event ∧
      (evaluator.evaluate graph event progress).1.filter (·.rule = rule.id) =
        [judgement.record] ∧
      (∀ run ∈ judgement.runs, run ∈ scriptRuns (evaluator.observations graph event progress)) ∧
      Threaded evaluator.platform view (view progress.world) judgement.runs
        (view (evaluator.evaluate graph event progress).2.world) := by
  obtain ⟨operations, history⟩ := reachable
  have intact := RuleGraph.Intact.ofHistory history
  obtain ⟨judgements, records, rules, runs, faithful⟩ :=
    evaluator.evaluate_judgements graph event progress intact (.ofHistory history) onTime
  have listed : rule ∈ judgements.map (·.rule) := by
    rw [rules, RuleGraph.mem_rulesInOrder]
    exact ⟨(Table.mem_values_iff intact.rules.nodup).mpr ⟨rule.id, held⟩, fun _ => enabled⟩
  obtain ⟨judgement, member, rfl⟩ := List.mem_map.mp listed
  have thread := evaluate_threaded evaluator graph event progress isolates.only
  obtain ⟨before, after, rfl⟩ := List.append_of_mem member
  have foreign := intact.foreign rules
  obtain ⟨earlierStill, noEarlier⟩ := isolates.others
    (fun other listed => faithful other (List.mem_append_left _ listed))
    fun other listed => foreign other (List.mem_append_left _ listed)
  obtain ⟨laterStill, noLater⟩ := isolates.others
    (fun other listed => faithful other (List.mem_append_right _ (List.mem_cons_of_mem _ listed)))
    fun other listed => foreign other (List.mem_append_right _ listed)
  refine ⟨judgement, rfl, faithful judgement member, ?_, ?_, ?_⟩
  · rw [records, List.map_append, List.map_cons, List.filter_append, List.filter_cons, noEarlier,
      noLater, (faithful judgement member).ofRule]
    simp
  · intro run asked
    rw [runs]
    exact List.mem_flatMap.mpr ⟨judgement, member, asked⟩
  · rw [runs, List.flatMap_append, List.flatMap_cons, Threaded.append_iff] at thread
    obtain ⟨middle, earlier, thread⟩ := thread
    obtain ⟨ending, thread, later⟩ := Threaded.append_iff.mp thread
    rw [earlier.eq_of_still earlierStill] at thread
    rw [later.eq_of_still laterStill]
    exact thread

/-- A rule comes to the same in two evaluations that begin with the same view of the world, whatever
other rules there are in their graphs. -/
theorem Evaluator.Isolates.evaluate {first second : RuleGraph} {left right : Rule}
    (isolates : evaluator.Isolates left.id view steady)
    (agree : first.AgreeOn second left right) (reachable : first.Reachable)
    (otherReachable : second.Reachable) (progress other : Progress World)
    (same : view progress.world = view other.world)
    (onTime : OnTime evaluator.allowance (evaluator.observations first event progress))
    (otherOnTime : OnTime evaluator.allowance (evaluator.observations second event other))
    (calm : ∀ run ∈ scriptRuns (evaluator.observations first event progress),
      run.context.invocation.rule = some left.id → steady run)
    (otherCalm : ∀ run ∈ scriptRuns (evaluator.observations second event other),
      run.context.invocation.rule = some left.id → steady run) :
    ∃ record otherRecord,
      (evaluator.evaluate first event progress).1.filter (·.rule = left.id) = [record] ∧
      (evaluator.evaluate second event other).1.filter (·.rule = left.id) = [otherRecord] ∧
      record.Alike otherRecord ∧
      view (evaluator.evaluate first event progress).2.world =
        view (evaluator.evaluate second event other).2.world := by
  obtain ⟨judgement, rfl, faithful, record, runs, thread⟩ :=
    isolates.judgement reachable agree.held agree.enabled onTime
  have sameIsolates := isolates
  rw [agree.id] at sameIsolates
  obtain ⟨otherJudgement, rfl, otherFaithful, otherRecord, otherRuns, otherThread⟩ :=
    sameIsolates.judgement otherReachable agree.otherHeld agree.otherEnabled otherOnTime
  have intact : first.Intact := reachable.elim fun _ history => .ofHistory history
  have otherIntact : second.Intact := otherReachable.elim fun _ history => .ofHistory history
  rw [← same] at otherThread
  obtain ⟨alike, ends⟩ := faithful.agree isolates agree intact otherIntact otherFaithful
    (fun run held => calm run (runs run held) (faithful.onBehalf run held))
    (fun run held => otherCalm run (otherRuns run held)
      ((otherFaithful.onBehalf run held).trans (congrArg some agree.id.symm)))
    thread otherThread
  exact ⟨_, _, record, agree.id ▸ otherRecord, alike, ends⟩

end Judgements

end Rulebook

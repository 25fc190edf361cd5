import Rulebook.Proofs.Evaluation.Course

/-!
Two evaluations of one event, in worlds that are alike. As long as whatever is asked of the two
worlds has one answer and leaves them alike, the evaluations come to the same. So what holds of one
world, and is kept by whatever an evaluation asks of it, holds after the evaluation.
-/

namespace Rulebook

variable {World α β : Type} {kin : World → World → Prop}

/-- An action has one answer in worlds that are alike, and leaves them alike. -/
def Agreeing (kin : World → World → Prop) (action : World → α × World) : Prop :=
  ∀ left right, kin left right →
    (action left).1 = (action right).1 ∧ kin (action left).2 (action right).2

def Respects (kin : World → World → Prop) (part : Evaluation World α) : Prop :=
  ∀ left right metrics, kin left right → ∃ value first second counted,
    part ⟨left, metrics⟩ = (value, ⟨first, counted⟩) ∧
      part ⟨right, metrics⟩ = (value, ⟨second, counted⟩) ∧ kin first second

namespace Respects

theorem pure (value : α) : Respects kin (Pure.pure value) :=
  fun left right metrics alike => ⟨value, left, right, metrics, rfl, rfl, alike⟩

theorem bind {part : Evaluation World α} {rest : α → Evaluation World β}
    (first : Respects kin part) (next : ∀ value, Respects kin (rest value)) :
    Respects kin (part >>= rest) := by
  intro left right metrics alike
  obtain ⟨value, here, there, counted, same, other, alike⟩ := first left right metrics alike
  obtain ⟨result, last, otherLast, total, ended, otherEnded, alike⟩ :=
    next value here there counted alike
  refine ⟨result, last, otherLast, total, ?_, ?_, alike⟩
  · change rest (part ⟨left, metrics⟩).1 (part ⟨left, metrics⟩).2 = _
    rw [same, ended]
  · change rest (part ⟨right, metrics⟩).1 (part ⟨right, metrics⟩).2 = _
    rw [other, otherEnded]

theorem count (metric : Metric) : Respects kin (Evaluation.count metric) :=
  fun left right metrics alike => ⟨(), left, right, metric :: metrics, rfl, rfl, alike⟩

theorem withWorld {action : World → α × World} (agreeing : Agreeing kin action) :
    Respects kin (Evaluation.withWorld action) := by
  intro left right metrics alike
  obtain ⟨same, alike⟩ := agreeing left right alike
  refine ⟨(action left).1, (action left).2, (action right).2, metrics, rfl, ?_, alike⟩
  rw [same]
  rfl

end Respects

/-- Whatever is asked of a platform has one answer in worlds that are alike, and leaves them alike;
scripts need to do so if they run on behalf of certain rules only. -/
structure Platform.Respects (platform : Platform World) (onBehalf : Option Uuid → Prop)
    (kin : World → World → Prop) : Prop where
  run : ∀ script context limits, onBehalf context.invocation.rule →
    Agreeing kin (platform.run script context limits)
  clock : Agreeing kin platform.clock
  now : Agreeing kin platform.now
  fresh : Agreeing kin platform.fresh

namespace Evaluator

variable {evaluator : Evaluator World} {onBehalf : Option Uuid → Prop}
  (respects : evaluator.platform.Respects onBehalf kin) {deadline : Nat}

include respects

theorem clock_respects : Respects kin evaluator.clock :=
  .withWorld respects.clock

theorem isPast_respects : Respects kin (evaluator.isPast deadline) :=
  (clock_respects respects).bind fun _ => .pure _

theorem isCutOff_respects (fault : Script.Fault) :
    Respects kin (evaluator.isCutOff fault deadline) := by
  rw [isCutOff]
  split
  · exact isPast_respects respects
  · exact .pure _

theorem runScript_respects (script : String) {context : ScriptContext}
    (allowed : onBehalf context.invocation.rule) :
    Respects kin (evaluator.runScript script context deadline) :=
  (clock_respects respects).bind fun _ => .withWorld (respects.run script context _ allowed)

theorem ask_respects (stage : ScriptStage) (script : String) {context : ScriptContext}
    (allowed : onBehalf context.invocation.rule) :
    Respects kin (evaluator.ask stage script context deadline) := by
  refine (runScript_respects respects script allowed).bind fun result => ?_
  split
  · exact .pure _
  · exact (Respects.count _).bind fun _ => (isCutOff_respects respects _).bind fun _ => .pure _

theorem judgeTrigger_respects (trigger : Trigger) {context : ScriptContext}
    (allowed : onBehalf context.invocation.rule) :
    Respects kin (evaluator.judgeTrigger context deadline trigger) := by
  rw [judgeTrigger]
  split
  · exact .pure _
  · exact ask_respects respects _ _ allowed
  · exact .pure _

theorem runAction_respects (trigger : Uuid) (action : Action) {context : ScriptContext}
    (allowed : onBehalf context.invocation.rule) :
    Respects kin (evaluator.runAction trigger context deadline action) := by
  have inner : onBehalf (actionContext context action.id).invocation.rule := allowed
  refine (clock_respects respects).bind fun start => ?_
  refine (runScript_respects respects action.script inner).bind fun result => ?_
  refine (clock_respects respects).bind fun stop => ?_
  cases result with
  | ok output => exact (Respects.count _).bind fun _ => .pure _
  | error fault => exact (Respects.count _).bind fun _ => (Respects.count _).bind fun _ => .pure _

theorem runActions_respects (trigger : Uuid) {context : ScriptContext}
    (allowed : onBehalf context.invocation.rule) (actions : List Action) :
    Respects kin (evaluator.runActions trigger context deadline actions) := by
  induction actions with
  | nil => exact .pure _
  | cons action rest ih =>
      refine (isPast_respects respects).bind fun past => ?_
      split
      · exact .pure _
      · refine (runAction_respects respects trigger action allowed).bind fun value => ?_
        obtain ⟨outcome, _ | fault⟩ := value
        · exact ih.bind fun _ => .pure _
        · refine (isCutOff_respects respects fault).bind fun cut => ?_
          split
          · exact .pure _
          · split
            · exact .pure _
            · exact ih.bind fun _ => .pure _

theorem judgeTriggers_respects (graph : RuleGraph) {context : ScriptContext}
    (allowed : onBehalf context.invocation.rule) (triggers : List Trigger) :
    Respects kin (evaluator.judgeTriggers graph context deadline triggers) := by
  induction triggers with
  | nil => exact .pure _
  | cons trigger rest ih =>
      have inner : onBehalf (context.withTrigger trigger.id).invocation.rule := allowed
      refine (isPast_respects respects).bind fun past => ?_
      split
      · exact .pure _
      · refine (judgeTrigger_respects respects trigger inner).bind fun verdict => ?_
        refine (Respects.count _).bind fun _ => ?_
        cases verdict.holds with
        | true =>
            refine (runActions_respects respects trigger.id inner _).bind fun batch => ?_
            exact ih.bind fun _ => .pure _
        | false =>
            refine (Respects.pure _).bind fun batch => ?_
            exact ih.bind fun _ => .pure _

theorem judgeRule_respects (graph : RuleGraph) (event : Event) {rule : Rule}
    (allowed : onBehalf (some rule.id)) :
    Respects kin (evaluator.judgeRule graph event deadline rule) := by
  have inner : onBehalf (ruleContext event rule).invocation.rule := allowed
  have rest (verdict : Verdict) (batch : TriggerBatch) (start : Nat) :
      Respects kin (do
        let duration := milliseconds ((← evaluator.clock) - start)
        Evaluation.count (.ruleEvaluated verdict.holds)
        let id ← Evaluation.withWorld evaluator.platform.fresh
        let timestamp ← Evaluation.withWorld evaluator.platform.now
        let failure := verdict.fault.map (·.toFailure)
        return ((⟨id, event.id, rule.id, rule.name, verdict.holds, failure, batch.outcomes,
          batch.actions, duration, timestamp, .completed⟩ : ExecutionRecord),
          verdict.interrupted || batch.interrupted)) := by
    refine (clock_respects respects).bind fun stop => (Respects.count _).bind fun _ => ?_
    exact (Respects.withWorld respects.fresh).bind fun _ => (Respects.withWorld respects.now).bind fun _ =>
      .pure _
  refine (clock_respects respects).bind fun start => ?_
  refine (ask_respects respects .predicate rule.script inner).bind fun verdict => ?_
  cases holds : verdict.holds with
  | true =>
      refine (judgeTriggers_respects respects graph inner _).bind fun batch => ?_
      simpa only [holds] using rest verdict batch start
  | false =>
      refine (Respects.pure _).bind fun batch => ?_
      simpa only [holds] using rest verdict batch start

theorem skipRule_respects (event : Event) (rule : Rule) :
    Respects kin (evaluator.skipRule event rule) :=
  (Respects.withWorld respects.fresh).bind fun _ => (Respects.withWorld respects.now).bind fun _ => .pure _

theorem judgeRules_respects (graph : RuleGraph) (event : Event) (rules : List Rule)
    (allowed : ∀ rule ∈ rules, onBehalf (some rule.id)) :
    Respects kin (evaluator.judgeRules graph event deadline rules) := by
  induction rules with
  | nil => exact .pure _
  | cons rule rest ih =>
      have others := ih fun other held => allowed other (List.mem_cons_of_mem _ held)
      refine (isPast_respects respects).bind fun past => ?_
      split
      · refine (skipRule_respects respects event rule).bind fun record => (Respects.pure _).bind fun _ => ?_
        exact others.bind fun _ => .pure _
      · refine (judgeRule_respects respects graph event (allowed rule List.mem_cons_self)).bind
          fun value => ?_
        exact others.bind fun _ => .pure _

theorem evaluate_respects (graph : RuleGraph) (event : Event)
    (allowed : ∀ rule ∈ graph.rulesInOrder true, onBehalf (some rule.id)) :
    Respects kin (evaluator.evaluate graph event) := by
  refine (clock_respects respects).bind fun start => ?_
  refine (judgeRules_respects respects graph event _ allowed).bind fun value => ?_
  exact (Respects.count _).bind fun _ => .pure _

end Evaluator

/-! What is kept of one world -/

/-- Whatever is asked of a platform keeps what holds of the world; scripts need to do so if they
run on behalf of certain rules only. -/
structure Platform.Keeps (platform : Platform World) (onBehalf : Option Uuid → Prop)
    (property : World → Prop) : Prop where
  run : ∀ script context limits world, onBehalf context.invocation.rule → property world →
    property (platform.run script context limits world).2
  clock : ∀ world, property world → property (platform.clock world).2
  now : ∀ world, property world → property (platform.now world).2
  fresh : ∀ world, property world → property (platform.fresh world).2

theorem Platform.Keeps.respects {platform : Platform World} {onBehalf : Option Uuid → Prop}
    {property : World → Prop} (kept : platform.Keeps onBehalf property) :
    platform.Respects onBehalf fun left right => left = right ∧ property left := by
  constructor
  · rintro script context limits allowed world _ ⟨rfl, holds⟩
    exact ⟨rfl, rfl, kept.run script context limits world allowed holds⟩
  · rintro world _ ⟨rfl, holds⟩
    exact ⟨rfl, rfl, kept.clock world holds⟩
  · rintro world _ ⟨rfl, holds⟩
    exact ⟨rfl, rfl, kept.now world holds⟩
  · rintro world _ ⟨rfl, holds⟩
    exact ⟨rfl, rfl, kept.fresh world holds⟩

theorem Evaluator.evaluate_keeps {evaluator : Evaluator World} {onBehalf : Option Uuid → Prop}
    {property : World → Prop} (kept : evaluator.platform.Keeps onBehalf property)
    (graph : RuleGraph) (event : Event)
    (allowed : ∀ rule ∈ graph.rulesInOrder true, onBehalf (some rule.id))
    (progress : Progress World) (holds : property progress.world) :
    property (evaluator.evaluate graph event progress).2.world := by
  obtain ⟨world, metrics⟩ := progress
  obtain ⟨records, first, second, counted, ended, _, _, after⟩ :=
    evaluate_respects kept.respects graph event allowed world world metrics ⟨rfl, holds⟩
  rw [ended]
  exact after

end Rulebook

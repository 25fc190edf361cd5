import Rulebook.Proofs.Evaluation.Acting
import Rulebook.Proofs.Evaluation.Completion
import Rulebook.Proofs.Rules.Binding

/-!
The parts of a record go together, wherever the deadline, a failure or a policy may have cut the
evaluation short: what failed did not match, did not fire and did not succeed, and what an action
came to stands with the trigger that it ran for.
-/

namespace Rulebook

structure TriggerOutcome.IsCoherent (outcome : TriggerOutcome) : Prop where
  failed : outcome.error ≠ none → outcome.kind = .conditional ∧ outcome.fired = false

structure ActionOutcome.IsCoherent (outcome : ActionOutcome) : Prop where
  succeeded : outcome.succeeded = true → outcome.executed = true ∧ outcome.error = none
  failed : outcome.executed = true → outcome.succeeded = false → outcome.error ≠ none
  skipped : outcome.executed = false → outcome.succeeded = false ∧ outcome.error = none ∧
    outcome.logs = [] ∧ outcome.milliseconds = 0
  logs : outcome.logs ≠ [] → outcome.succeeded = true

/-- What became of triggers and of their actions. -/
structure AreCoherent (listed : List Trigger) (triggers : List TriggerOutcome)
    (actions : List ActionOutcome) : Prop where
  eachTrigger : ∀ outcome ∈ triggers, outcome.IsCoherent
  /-- Triggers come in the order in which they are listed; the last ones may be missing. -/
  inOrder : (triggers.map fun outcome => (outcome.trigger, outcome.kind)) <+:
    listed.map fun trigger => (trigger.id, trigger.kind)
  triggersNodup : (triggers.map (·.trigger)).Nodup
  eachAction : ∀ outcome ∈ actions, outcome.IsCoherent
  /-- The actions of the first trigger that fired come first, then those of the next one. -/
  grouped : actions = ((triggers.filter (·.fired)).map (·.trigger)).flatMap fun trigger =>
    actions.filter (·.trigger = trigger)
  actionsNodup : (actions.map fun outcome => (outcome.trigger, outcome.action)).Nodup

structure ExecutionRecord.IsCoherent (listed : List Trigger) (record : ExecutionRecord) : Prop where
  unmatched : record.matched = false → record.triggers = [] ∧ record.actions = []
  failed : record.error ≠ none → record.matched = false
  parts : AreCoherent listed record.triggers record.actions
  backed : ∀ outcome ∈ record.actions, outcome.IsBacked record.triggers

/-! Actions -/

theorem ActionOutcome.skipped_isCoherent (action trigger : Uuid) :
    (ActionOutcome.skipped action trigger).IsCoherent where
  succeeded := fun succeeded => nomatch succeeded
  failed := fun executed => nomatch executed
  skipped := fun _ => ⟨rfl, rfl, rfl, rfl⟩
  logs := fun some => absurd rfl some

namespace Evaluator

variable {World : Type} {evaluator : Evaluator World} {deadline : Nat} {graph : RuleGraph}
  {event : Event} {context : ScriptContext} {seen : List (Observation World)}

theorem skipActions_isCoherent (trigger : Uuid) (actions : List Action) :
    ∀ outcome ∈ skipActions trigger actions, outcome.IsCoherent := by
  intro outcome held
  obtain ⟨action, _, rfl⟩ := List.mem_map.mp held
  exact ActionOutcome.skipped_isCoherent action.id trigger

theorem ActionCourse.isCoherent {trigger : Uuid} {action : Action} {outcome : ActionOutcome}
    {failure : Option Script.Fault}
    (course : ActionCourse evaluator deadline trigger context action outcome failure seen) :
    outcome.IsCoherent := by
  cases course with
  | succeeded start stop ran =>
      exact ⟨fun _ => ⟨rfl, rfl⟩, fun _ failed => (nomatch failed),
        fun skipped => (nomatch skipped), fun _ => rfl⟩
  | failed start stop ran =>
      exact ⟨fun succeeded => (nomatch succeeded), fun _ _ none => (nomatch none),
        fun skipped => (nomatch skipped), fun some => absurd rfl some⟩

theorem ActionCourse.action_eq {trigger : Uuid} {action : Action} {outcome : ActionOutcome}
    {failure : Option Script.Fault}
    (course : ActionCourse evaluator deadline trigger context action outcome failure seen) :
    outcome.action = action.id := by
  cases course <;> rfl

theorem ActionsCourse.isCoherent {trigger : Uuid} {actions : List Action} {batch : ActionBatch}
    (course : ActionsCourse evaluator deadline trigger context actions batch seen) :
    ∀ outcome ∈ batch.outcomes, outcome.IsCoherent := by
  induction course with
  | done => exact fun _ held => nomatch held
  | late => exact skipActions_isCoherent _ _
  | succeeded _ ran _ ih => exact List.forall_mem_cons.mpr ⟨ran.isCoherent, ih⟩
  | cutOff _ ran => exact List.forall_mem_cons.mpr ⟨ran.isCoherent, skipActions_isCoherent _ _⟩
  | aborted _ ran => exact List.forall_mem_cons.mpr ⟨ran.isCoherent, skipActions_isCoherent _ _⟩
  | failed _ ran _ _ _ ih => exact List.forall_mem_cons.mpr ⟨ran.isCoherent, ih⟩

theorem skipActions_actions (trigger : Uuid) (actions : List Action) :
    (skipActions trigger actions).map (·.action) = actions.map (·.id) := by
  rw [skipActions, List.map_map]
  rfl

/-- Every action has its outcome, be it that it was skipped. -/
theorem ActionsCourse.actions_eq {trigger : Uuid} {actions : List Action} {batch : ActionBatch}
    (course : ActionsCourse evaluator deadline trigger context actions batch seen) :
    batch.outcomes.map (·.action) = actions.map (·.id) := by
  induction course with
  | done => rfl
  | late => exact skipActions_actions _ _
  | succeeded _ ran _ ih => rw [List.map_cons, List.map_cons, ran.action_eq, ih]
  | cutOff _ ran => rw [List.map_cons, List.map_cons, ran.action_eq, skipActions_actions]
  | aborted _ ran => rw [List.map_cons, List.map_cons, ran.action_eq, skipActions_actions]
  | failed _ ran _ _ _ ih => rw [List.map_cons, List.map_cons, ran.action_eq, ih]

/-! Triggers -/

theorem AskCourse.unmet {script : String} {verdict : Verdict}
    (course : AskCourse evaluator deadline script context verdict seen)
    (failed : verdict.fault ≠ none) : verdict.holds = false := by
  cases course with
  | answered => exact absurd rfl failed
  | failed => rfl

theorem VerdictCourse.isCoherent {trigger : Trigger} {verdict : Verdict}
    (course : VerdictCourse evaluator deadline context trigger verdict seen) :
    (outcomeOf trigger verdict).IsCoherent := by
  constructor
  intro failed
  have fault : verdict.fault ≠ none := fun none => failed (by rw [outcomeOf, none]; rfl)
  cases course with
  | unconditional => exact absurd rfl fault
  | conditional kind _ asked => exact ⟨kind, asked.unmet fault⟩
  | unasked => exact absurd rfl fault

/-- What the actions of one trigger came to, if it fired. -/
theorem FiringCourse.outcomes {trigger : Trigger} {verdict : Verdict} {batch : ActionBatch}
    (course : FiringCourse evaluator deadline graph context trigger verdict batch seen)
    (intact : graph.Intact) (found : graph.triggers.get? trigger.id = some trigger) :
    (∀ outcome ∈ batch.outcomes, outcome.IsCoherent ∧ outcome.trigger = trigger.id) ∧
      (batch.outcomes.map fun outcome => (outcome.trigger, outcome.action)).Nodup ∧
      (verdict.holds = false → batch.outcomes = []) := by
  cases course with
  | quiet => exact ⟨fun _ held => (nomatch held), List.nodup_nil, fun _ => rfl⟩
  | fired holds running =>
      have actions : (batch.outcomes.map (·.action)).Nodup := by
        rw [running.actions_eq]
        exact (intact.actionsFor_nodup found).sublist (List.filter_sublist.map _)
      refine ⟨fun outcome held =>
          ⟨running.isCoherent outcome held, (running.reports outcome held).1⟩,
        ?_, fun quiet => absurd (holds.symm.trans quiet) (by simp)⟩
      rw [List.Nodup, List.pairwise_map] at actions ⊢
      exact actions.imp fun unequal same => unequal (Prod.ext_iff.mp same).2

end Evaluator

/-! Groups of outcomes -/

section Groups

variable {trigger : Uuid} {keys : List Uuid} {own later : List ActionOutcome}

theorem grouped_append (ofTrigger : ∀ outcome ∈ own, outcome.trigger = trigger)
    (others : ∀ outcome ∈ later, outcome.trigger ∈ keys) (apart : trigger ∉ keys)
    (grouped : later = keys.flatMap fun key => later.filter (·.trigger = key)) :
    own ++ later =
      (trigger :: keys).flatMap fun key => (own ++ later).filter (·.trigger = key) := by
  have ownFirst : (own ++ later).filter (·.trigger = trigger) = own := by
    rw [List.filter_append, List.filter_eq_self.mpr fun outcome held => by
      simp [ofTrigger outcome held], List.filter_eq_nil_iff.mpr, List.append_nil]
    intro outcome held same
    exact apart (of_decide_eq_true same ▸ others outcome held)
  have othersLater : ∀ key ∈ keys,
      (own ++ later).filter (·.trigger = key) = later.filter (·.trigger = key) := by
    intro key held
    rw [List.filter_append, List.filter_eq_nil_iff.mpr, List.nil_append]
    intro outcome inOwn same
    exact apart ((ofTrigger outcome inOwn).symm.trans (of_decide_eq_true same) ▸ held)
  rw [List.flatMap_cons, ownFirst, List.flatMap_congr othersLater, ← grouped]

theorem pairs_append (ofTrigger : ∀ outcome ∈ own, outcome.trigger = trigger)
    (others : ∀ outcome ∈ later, outcome.trigger ∈ keys) (apart : trigger ∉ keys)
    (ownNodup : (own.map fun outcome => (outcome.trigger, outcome.action)).Nodup)
    (laterNodup : (later.map fun outcome => (outcome.trigger, outcome.action)).Nodup) :
    ((own ++ later).map fun outcome => (outcome.trigger, outcome.action)).Nodup := by
  rw [List.map_append, List.nodup_append]
  refine ⟨ownNodup, laterNodup, ?_⟩
  rintro _ inOwn _ inLater rfl
  obtain ⟨first, firstHeld, rfl⟩ := List.mem_map.mp inOwn
  obtain ⟨second, secondHeld, same⟩ := List.mem_map.mp inLater
  have key : second.trigger = trigger := (Prod.ext_iff.mp same).1.trans (ofTrigger first firstHeld)
  exact apart (key ▸ others second secondHeld)

end Groups

namespace AreCoherent

variable {listed : List Trigger} {triggers : List TriggerOutcome} {actions : List ActionOutcome}

theorem nothing (listed : List Trigger) : AreCoherent listed [] [] where
  eachTrigger := fun _ held => nomatch held
  inOrder := List.nil_prefix
  triggersNodup := List.nodup_nil
  eachAction := fun _ held => nomatch held
  grouped := rfl
  actionsNodup := List.nodup_nil

theorem trigger_mem (coherent : AreCoherent listed triggers actions) {outcome : ActionOutcome}
    (held : outcome ∈ actions) :
    outcome.trigger ∈ (triggers.filter (·.fired)).map (·.trigger) := by
  rw [coherent.grouped, List.mem_flatMap] at held
  obtain ⟨key, fired, member⟩ := held
  have same : outcome.trigger = key := by simpa using (List.mem_filter.mp member).2
  exact same ▸ fired

/-- A trigger that comes before others, with what its actions came to. -/
theorem cons {first : Trigger} {outcome : TriggerOutcome} {own : List ActionOutcome}
    (later : AreCoherent listed triggers actions) (apart : first.id ∉ listed.map (·.id))
    (trigger : outcome.trigger = first.id) (kind : outcome.kind = first.kind)
    (coherent : outcome.IsCoherent)
    (each : ∀ action ∈ own, action.IsCoherent ∧ action.trigger = first.id)
    (ownNodup : (own.map fun action => (action.trigger, action.action)).Nodup)
    (quiet : outcome.fired = false → own = []) :
    AreCoherent (first :: listed) (outcome :: triggers) (own ++ actions) := by
  have judged : triggers.map (·.trigger) ⊆ listed.map (·.id) := by
    have keys := later.inOrder.map Prod.fst
    rw [List.map_map, List.map_map] at keys
    exact keys.subset
  have notJudged : first.id ∉ triggers.map (·.trigger) := fun held => apart (judged held)
  have notFired : first.id ∉ (triggers.filter (·.fired)).map (·.trigger) := fun held =>
    notJudged ((List.filter_sublist.map _).subset held)
  have others : ∀ action ∈ actions, action.trigger ∈ (triggers.filter (·.fired)).map (·.trigger) :=
    fun _ held => later.trigger_mem held
  have ofFirst : ∀ action ∈ own, action.trigger = first.id := fun action held =>
    (each action held).2
  constructor
  · exact List.forall_mem_cons.mpr ⟨coherent, later.eachTrigger⟩
  · rw [List.map_cons, List.map_cons, trigger, kind, List.prefix_cons_inj]
    exact later.inOrder
  · rw [List.map_cons, List.nodup_cons, trigger]
    exact ⟨notJudged, later.triggersNodup⟩
  · exact List.forall_mem_append.mpr ⟨fun action held => (each action held).1, later.eachAction⟩
  · cases fired : outcome.fired with
    | true =>
        rw [List.filter_cons_of_pos fired, List.map_cons, trigger]
        exact grouped_append ofFirst others notFired later.grouped
    | false =>
        rw [List.filter_cons_of_neg (by simp [fired]), quiet fired]
        exact later.grouped
  · exact pairs_append ofFirst others notFired ownNodup later.actionsNodup

end AreCoherent

/-! Records -/

namespace Evaluator

variable {World : Type} {evaluator : Evaluator World} {deadline : Nat} {graph : RuleGraph}
  {event : Event} {context : ScriptContext} {seen : List (Observation World)}

theorem TriggersCourse.areCoherent {triggers : List Trigger} {batch : TriggerBatch}
    (course : TriggersCourse evaluator deadline graph context triggers batch seen)
    (intact : graph.Intact)
    (found : ∀ trigger ∈ triggers, graph.triggers.get? trigger.id = some trigger)
    (nodup : (triggers.map (·.id)).Nodup) : AreCoherent triggers batch.outcomes batch.actions := by
  induction course with
  | done => exact .nothing _
  | late => exact .nothing _
  | judged _ judged running _ ih =>
      rw [List.map_cons, List.nodup_cons] at nodup
      obtain ⟨known, othersKnown⟩ := List.forall_mem_cons.mp found
      obtain ⟨each, pairs, quiet⟩ := running.outcomes intact known
      exact (ih othersKnown nodup.2).cons nodup.1 rfl rfl judged.isCoherent each pairs quiet

theorem enabledTriggers_nodup {id : Uuid} {rule : Rule} (intact : graph.Intact)
    (found : graph.rules.get? id = some rule) :
    ((enabledTriggers graph rule).map (·.id)).Nodup := by
  obtain ⟨listed, ids, _, enabled⟩ := enabledTriggers_listed intact found
  rw [enabled]
  have nodup : (listed.map (·.id)).Nodup := ids ▸ (intact.eachRule id rule found).triggersNodup
  exact nodup.sublist (List.filter_sublist.map _)

theorem RuleCourse.isCoherent {id : Uuid} {rule : Rule} {record : ExecutionRecord}
    {interrupted : Bool}
    (course : RuleCourse evaluator deadline graph event rule record interrupted seen)
    (intact : graph.Intact) (found : graph.rules.get? id = some rule) :
    record.IsCoherent (enabledTriggers graph rule) := by
  have backed := course.backed
  cases course with
  | skipped => exact ⟨fun _ => ⟨rfl, rfl⟩, fun failed => absurd rfl failed, .nothing _, backed⟩
  | @judged _ _ _ verdict batch _ _ _ _ _ asked judging =>
      have failed : verdict.fault.map (·.toFailure) ≠ none → verdict.holds = false := by
        intro failed
        exact asked.unmet fun none => failed (by rw [none]; rfl)
      cases judging with
      | matched holds judging =>
          obtain ⟨listed, _, known, enabled⟩ := enabledTriggers_listed intact found
          have eachKnown : ∀ trigger ∈ enabledTriggers graph rule,
              graph.triggers.get? trigger.id = some trigger := by
            intro trigger held
            rw [enabled] at held
            exact known trigger (List.mem_filter.mp held).1
          exact ⟨fun unmatched => absurd (holds.symm.trans unmatched) (by simp), failed,
            judging.areCoherent intact eachKnown (enabledTriggers_nodup intact found), backed⟩
      | unmatched => exact ⟨fun _ => ⟨rfl, rfl⟩, failed, .nothing _, backed⟩

theorem RulesCourse.areCoherent {rules : List Rule} {records : List ExecutionRecord}
    {interrupted : Bool}
    (course : RulesCourse evaluator deadline graph event rules records interrupted seen)
    (intact : graph.Intact) (held : ∀ rule ∈ rules, graph.rules.get? rule.id = some rule) :
    ∀ record ∈ records, ∃ rule ∈ rules, record.rule = rule.id ∧
      record.IsCoherent (enabledTriggers graph rule) := by
  induction course with
  | done => exact fun _ held => nomatch held
  | next judged _ ih =>
      obtain ⟨found, othersFound⟩ := List.forall_mem_cons.mp held
      rw [List.forall_mem_cons]
      constructor
      · exact ⟨_, List.mem_cons_self, judged.rule_eq, judged.isCoherent intact found⟩
      · intro record member
        obtain ⟨rule, listed, coherent⟩ := ih othersFound record member
        exact ⟨rule, List.mem_cons_of_mem _ listed, coherent⟩

theorem PassCourse.areCoherent {records : List ExecutionRecord}
    (course : PassCourse evaluator graph event records seen) (intact : graph.Intact) :
    ∀ record ∈ records, ∃ rule ∈ graph.rulesInOrder true, record.rule = rule.id ∧
      record.IsCoherent (enabledTriggers graph rule) := by
  have known : ∀ rule ∈ graph.rulesInOrder true, graph.rules.get? rule.id = some rule :=
    fun rule held => intact.rules.mem_values_iff.mp (RuleGraph.mem_rulesInOrder.mp held).1
  cases course with
  | pass _ course =>
      intro record held
      obtain ⟨made, member, rfl⟩ := List.mem_map.mp held
      obtain ⟨rule, listed, same, coherent⟩ := course.areCoherent intact known made member
      exact ⟨rule, listed, same, coherent.unmatched, coherent.failed, coherent.parts,
        coherent.backed⟩

end Evaluator

/-- Every record of an evaluation is of an enabled rule and coherent with the enabled triggers of
that rule, whatever scripts and clocks may do. -/
theorem records_coherent {World : Type} (evaluator : Evaluator World) (graph : RuleGraph)
    (event : Event) (progress : Progress World) (reachable : graph.Reachable) :
    ∀ record ∈ (evaluator.evaluate graph event progress).1, ∃ rule,
      graph.rules.get? record.rule = some rule ∧ rule.enabled = true ∧
        record.IsCoherent (Evaluator.enabledTriggers graph rule) := by
  obtain ⟨operations, history⟩ := reachable
  have intact := RuleGraph.Intact.ofHistory history
  have course := evaluator.observations_course graph event progress
  intro record held
  obtain ⟨rule, listed, same, coherent⟩ := course.areCoherent intact record held
  obtain ⟨stored, enabled⟩ := RuleGraph.mem_rulesInOrder.mp listed
  exact ⟨rule, same ▸ intact.rules.mem_values_iff.mp stored, enabled rfl, coherent⟩

/-- A rule with two actions, of which one is also bound to a trigger of it. -/
def sharedOperations : List Operation :=
  let check : ScriptCheck := fun _ => .ok ()
  let now : Instant := ⟨0, 0⟩
  [.createRule check ⟨1⟩ now ⟨"hot", "true", 0, true⟩,
    .createTrigger check ⟨9⟩ now ⟨⟨1⟩, .unconditional, none, true⟩,
    .createTrigger check ⟨2⟩ now ⟨⟨1⟩, .conditional, some "true", true⟩,
    .createAction check ⟨4⟩ now ⟨none, "1", true⟩,
    .createAction check ⟨3⟩ now ⟨none, "2", true⟩,
    .addRuleAction now ⟨1⟩ ⟨4⟩,
    .addRuleAction now ⟨1⟩ ⟨3⟩,
    .bind ⟨2⟩ ⟨4⟩]

/-- Both triggers fire; the first action of each fails, and the one behind it is skipped. -/
theorem sharedOperations_coherent :
    let graph := Operation.run sharedOperations {}
    let evaluator := { tickingEvaluator with policy := .abort }
    let records := (evaluator.evaluate graph ⟨⟨4⟩, .null, ⟨0, 0⟩⟩ ⟨0, []⟩).1
    let actions := records.flatMap (·.actions)
    graph.Reachable ∧ records.map (·.rule) = [⟨1⟩] ∧
      actions.map (·.trigger) = [⟨9⟩, ⟨9⟩, ⟨2⟩] ∧ actions.map (·.action) = [⟨4⟩, ⟨3⟩, ⟨4⟩] ∧
      actions.map (·.executed) = [true, false, true] ∧
      ∀ record ∈ records, ∃ rule, graph.rules.get? record.rule = some rule ∧ rule.enabled = true ∧
        record.IsCoherent (Evaluator.enabledTriggers graph rule) := by
  intro graph evaluator records actions
  have reachable : graph.Reachable := ⟨sharedOperations, History.ofFresh (by decide)⟩
  refine ⟨reachable, by decide +kernel, by decide +kernel, by decide +kernel, by decide +kernel, ?_⟩
  exact records_coherent evaluator graph ⟨⟨4⟩, .null, ⟨0, 0⟩⟩ ⟨0, []⟩ reachable

end Rulebook

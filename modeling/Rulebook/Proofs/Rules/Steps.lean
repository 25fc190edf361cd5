import Mathlib.Logic.Relation
import Rulebook.Engine
import Rulebook.Proofs.Rules.History

/-!
Whatever an engine does, its rules change by operations that go through, and by nothing else. A
part that is refused later on keeps what has been done until then.
-/

namespace Rulebook

/-- Whether an operation makes a graph one version older when it goes through. -/
def Operation.publishes : Operation → Bool
  | .updateRule _ _ _ patch => !patch.isEmpty
  | _ => true

/-- An operation that goes through publishes one version, or it is an empty patch and there is
nothing to publish. -/
theorem Operation.outcome_published {operation : Operation} {graph next : RuleGraph}
    (done : operation.outcome graph = .ok next) :
    if operation.publishes then next.version = graph.version + 1 else next = graph := by
  cases operation with
  | createRule check id now new =>
      obtain ⟨made, done⟩ := map_snd_eq_ok.mp done
      obtain ⟨_, _, rfl⟩ := Change.createRule_eq_ok.mp done
      rfl
  | updateRule check now id patch =>
      obtain ⟨made, done⟩ := map_snd_eq_ok.mp done
      obtain ⟨_, old, _, changed⟩ := Change.updateRule_eq_ok.mp done
      split at changed
      next empty => simpa [publishes, empty] using changed.2
      next given => simp [publishes, given, changed.2]
  | deleteRule id =>
      obtain ⟨made, done⟩ := map_snd_eq_ok.mp done
      obtain ⟨old, _, _, rfl⟩ := Change.deleteRule_eq_ok.mp done
      rfl
  | createTrigger check id now new =>
      obtain ⟨made, done⟩ := map_snd_eq_ok.mp done
      obtain ⟨_, _, owner, _, rfl⟩ := Change.createTrigger_eq_ok.mp done
      rfl
  | updateTrigger check now id patch =>
      obtain ⟨made, done⟩ := map_snd_eq_ok.mp done
      obtain ⟨_, old, _, _, _, rfl⟩ := Change.updateTrigger_eq_ok.mp done
      rfl
  | deleteTrigger id =>
      obtain ⟨made, done⟩ := map_snd_eq_ok.mp done
      obtain ⟨old, _, rfl⟩ := Change.deleteTrigger_eq_ok.mp done
      rfl
  | createAction check id now new =>
      obtain ⟨made, done⟩ := map_snd_eq_ok.mp done
      obtain ⟨_, _, rfl⟩ := Change.createAction_eq_ok.mp done
      rfl
  | updateAction check now id patch =>
      obtain ⟨made, done⟩ := map_snd_eq_ok.mp done
      obtain ⟨_, old, _, _, rfl⟩ := Change.updateAction_eq_ok.mp done
      rfl
  | deleteAction id =>
      obtain ⟨made, done⟩ := map_snd_eq_ok.mp done
      obtain ⟨_, _, rfl⟩ := Change.deleteAction_eq_ok.mp done
      rfl
  | bind trigger action =>
      obtain ⟨made, done⟩ := map_snd_eq_ok.mp done
      obtain ⟨_, _, _, rfl⟩ := Change.bind_eq_ok.mp done
      rfl
  | unbind trigger action =>
      obtain ⟨made, done⟩ := map_snd_eq_ok.mp done
      obtain ⟨_, rfl⟩ := Change.unbind_eq_ok.mp done
      rfl
  | addRuleAction now rule action =>
      obtain ⟨made, done⟩ := map_snd_eq_ok.mp done
      obtain ⟨_, old, _, _, _, rfl⟩ := Change.addRuleAction_eq_ok.mp done
      rfl
  | removeRuleAction now rule action =>
      obtain ⟨made, done⟩ := map_snd_eq_ok.mp done
      obtain ⟨old, _, _, _, rfl⟩ := Change.removeRuleAction_eq_ok.mp done
      rfl

/-- Operations that go through lead from a graph to another one. -/
abbrev RuleGraph.Steps : RuleGraph → RuleGraph → Prop :=
  Relation.ReflTransGen fun graph next => ∃ operation : Operation, operation.outcome graph = .ok next

theorem RuleGraph.Steps.version_le {graph next : RuleGraph} (steps : graph.Steps next) :
    graph.version ≤ next.version := by
  induction steps with
  | refl => exact Nat.le_refl _
  | tail _ step ih =>
      obtain ⟨operation, done⟩ := step
      have published := Operation.outcome_published done
      split at published
      · omega
      · rwa [published]

variable {World α β : Type}

/-- Whether all that a part does to the rules of an engine are operations. -/
def Leads (part : EngineM World α) : Prop :=
  ∀ engine : Engine World, engine.graph.Steps (part.run engine).2.graph

namespace EngineM

theorem run_bind (part : EngineM World α) (rest : α → EngineM World β) (engine : Engine World) :
    (part >>= rest).run engine =
      match part.run engine with
      | (.ok value, between) => (rest value).run between
      | (.error refusal, between) => (.error refusal, between) := by
  change ExceptT.bindCont rest (part.run engine).1 (part.run engine).2 = _
  obtain ⟨_ | value, between⟩ := part.run engine <;> rfl

end EngineM

namespace Leads

theorem pure (value : α) : Leads (Pure.pure value : EngineM World α) :=
  fun _ => .refl

theorem throw (refusal : Refusal) : Leads (MonadExcept.throw refusal : EngineM World α) :=
  fun _ => .refl

theorem ofExcept (answer : Except Refusal α) :
    Leads (MonadExcept.ofExcept answer : EngineM World α) := by
  cases answer with
  | ok value => exact pure value
  | error refusal => exact throw refusal

theorem bind {part : EngineM World α} {rest : α → EngineM World β} (first : Leads part)
    (next : ∀ value, Leads (rest value)) : Leads (part >>= rest) := by
  intro engine
  have steps := first engine
  rw [EngineM.run_bind]
  generalize part.run engine = reached at steps ⊢
  obtain ⟨_ | value, between⟩ := reached
  · exact steps
  · exact steps.trans (next value between)

theorem forM {values : List α} {part : α → EngineM World PUnit}
    (each : ∀ value, Leads (part value)) : Leads (values.forM part) := by
  induction values with
  | nil => exact pure _
  | cons value rest ih => exact (each value).bind fun _ => ih

theorem withWorld (action : Platform World → World → α × World) :
    Leads (Engine.withWorld action) :=
  fun _ => .refl

theorem check : Leads (Engine.check : EngineM World ScriptCheck) :=
  fun _ => .refl

end Leads

namespace Engine

theorem change_run (change : Change α) (engine : Engine World) :
    (Engine.change change).run engine =
      match change engine.graph with
      | .ok (value, graph) => (.ok value, { engine with graph })
      | .error refusal => (.error refusal, engine) := by
  let reply (result : Except Refusal (α × RuleGraph)) : EngineM World α :=
    match result with
    | .ok (value, graph) => do
      set { engine with graph }
      return value
    | .error refusal => throw refusal
  change (reply (change engine.graph)).run engine = _
  cases change engine.graph <;> rfl

theorem change_leads {change : Change α} (operation : Operation)
    (same : ∀ graph, operation.outcome graph = (change graph).map (·.2)) :
    Leads (Engine.change change : EngineM World α) := by
  intro engine
  rw [change_run]
  cases done : change engine.graph with
  | error refusal => exact .refl
  | ok pair =>
      refine .single ⟨operation, ?_⟩
      rw [same, done]
      rfl

theorem createRule_leads (new : NewRule) : Leads (createRule new : EngineM World Rule) :=
  Leads.check.bind fun check => (Leads.withWorld _).bind fun id => (Leads.withWorld _).bind
    fun now => change_leads (.createRule check id now new) fun _ => rfl

theorem createTrigger_leads (new : NewTrigger) : Leads (createTrigger new : EngineM World Trigger) :=
  Leads.check.bind fun check => (Leads.withWorld _).bind fun id => (Leads.withWorld _).bind
    fun now => change_leads (.createTrigger check id now new) fun _ => rfl

theorem createAction_leads (new : NewAction) : Leads (createAction new : EngineM World Action) :=
  Leads.check.bind fun check => (Leads.withWorld _).bind fun id => (Leads.withWorld _).bind
    fun now => change_leads (.createAction check id now new) fun _ => rfl

theorem bind_leads (trigger action : Uuid) : Leads (bind trigger action : EngineM World Unit) :=
  change_leads (.bind trigger action) fun _ => rfl

theorem addRuleAction_leads (rule action : Uuid) :
    Leads (addRuleAction rule action : EngineM World Rule) :=
  (Leads.withWorld _).bind fun now => change_leads (.addRuleAction now rule action) fun _ => rfl

end Engine

end Rulebook

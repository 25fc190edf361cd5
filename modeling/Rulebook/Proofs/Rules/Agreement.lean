import Mathlib.Data.List.Forall2
import Rulebook.Proofs.Rules.Integrity

/-!
Two graphs may hold the same of one rule, and differ in everything else. What the rule is evaluated
by is then the same in both of them.
-/

namespace Rulebook

/-- Actions that do the same under one identifier. -/
structure Action.Alike (left right : Action) : Prop where
  id : left.id = right.id
  script : left.script = right.script
  enabled : left.enabled = right.enabled

/-- Triggers that ask the same under one identifier. -/
structure Trigger.Alike (left right : Trigger) : Prop where
  id : left.id = right.id
  kind : left.kind = right.kind
  condition : left.condition = right.condition
  enabled : left.enabled = right.enabled

namespace RuleGraph

/-- Two graphs hold the same of an enabled rule: its script, its triggers, what is bound to them,
and the actions that they can run. -/
structure AgreeOn (first second : RuleGraph) (left right : Rule) : Prop where
  held : first.rules.get? left.id = some left
  otherHeld : second.rules.get? right.id = some right
  enabled : left.enabled = true
  otherEnabled : right.enabled = true
  id : left.id = right.id
  script : left.script = right.script
  triggers : left.triggers = right.triggers
  actions : left.actions = right.actions
  eachTrigger : ∀ key ∈ left.triggers,
    Option.Rel Trigger.Alike (first.triggers.get? key) (second.triggers.get? key)
  bindings : ∀ key ∈ left.triggers, first.boundActions key = second.boundActions key
  eachAction : ∀ key, (key ∈ left.actions ∨ ∃ trigger ∈ left.triggers,
      key ∈ first.boundActions trigger) →
    Option.Rel Action.Alike (first.actions.get? key) (second.actions.get? key)

/-- Triggers that ask the same, and run actions that do the same. -/
structure FireAlike (first second : RuleGraph) (left right : Trigger) : Prop where
  alike : left.Alike right
  actions : List.Forall₂ Action.Alike ((first.actionsFor left).filter (·.enabled))
    ((second.actionsFor right).filter (·.enabled))

theorem forall₂_lookUp {α : Type} {related : α → α → Prop} {first second : Table α}
    {keys : List Uuid}
    (each : ∀ key ∈ keys, Option.Rel related (first.get? key) (second.get? key)) :
    List.Forall₂ related (keys.filterMap fun key => first.get? key)
      (keys.filterMap fun key => second.get? key) :=
  List.rel_filterMap (fun _ _ related => related) (List.forall₂_same.mpr each)

variable {first second : RuleGraph} {left right : Rule}

theorem Intact.rule_eq (intact : first.Intact) (held : first.rules.get? left.id = some left)
    {trigger : Trigger} (found : first.triggers.get? trigger.id = some trigger)
    (listed : trigger.id ∈ left.triggers) : trigger.rule = left.id := by
  obtain ⟨same, search, owner⟩ := (intact.listed trigger.id left.id).mpr ⟨left, held, listed⟩
  rw [found] at search
  cases search
  exact owner

theorem Intact.actionsFor_eq (intact : first.Intact)
    (held : first.rules.get? left.id = some left) {trigger : Trigger}
    (found : first.triggers.get? trigger.id = some trigger)
    (listed : trigger.id ∈ left.triggers) :
    first.actionsFor trigger =
      (if (first.boundActions trigger.id).isEmpty then left.actions
        else first.boundActions trigger.id).filterMap fun id => first.actions.get? id := by
  rw [RuleGraph.actionsFor, intact.rule_eq held found listed, held]
  rfl

theorem AgreeOn.fireAlike (agree : first.AgreeOn second left right) (intact : first.Intact)
    (otherIntact : second.Intact) {trigger other : Trigger} (alike : trigger.Alike other)
    (found : first.triggers.get? trigger.id = some trigger)
    (otherFound : second.triggers.get? other.id = some other)
    (listed : trigger.id ∈ left.triggers) : first.FireAlike second trigger other := by
  have otherListed : other.id ∈ right.triggers := by
    rw [← alike.id, ← agree.triggers]
    exact listed
  refine ⟨alike, ?_⟩
  rw [intact.actionsFor_eq agree.held found listed,
    otherIntact.actionsFor_eq agree.otherHeld otherFound otherListed, ← alike.id,
    ← agree.bindings trigger.id listed, ← agree.actions]
  refine List.rel_filter (fun _ _ alike => by simp only [alike.enabled]) (forall₂_lookUp ?_)
  intro key held
  apply agree.eachAction
  split at held
  · exact .inl held
  · exact .inr ⟨trigger.id, listed, held⟩

/-- The enabled triggers of a rule ask the same and run the same in graphs that agree on it. -/
theorem AgreeOn.forall₂_fireAlike (agree : first.AgreeOn second left right)
    (intact : first.Intact) (otherIntact : second.Intact) {listed others : List Trigger}
    (keys : listed.map (·.id) = left.triggers)
    (found : ∀ trigger ∈ listed, first.triggers.get? trigger.id = some trigger)
    (otherKeys : others.map (·.id) = right.triggers)
    (otherFound : ∀ trigger ∈ others, second.triggers.get? trigger.id = some trigger) :
    List.Forall₂ (first.FireAlike second) (listed.filter (·.enabled))
      (others.filter (·.enabled)) := by
  have same : listed.map (·.id) = others.map (·.id) := by rw [keys, otherKeys, agree.triggers]
  have paired : List.Forall₂ (fun trigger other => trigger.id = other.id) listed others := by
    rw [← List.forall₂_eq_eq_eq, List.forall₂_map_left_iff, List.forall₂_map_right_iff] at same
    exact same
  refine List.rel_filter (R := first.FireAlike second)
    (fun _ _ alike => by simp only [alike.alike.enabled]) ?_
  have within : ∀ trigger ∈ listed, trigger.id ∈ left.triggers := by
    intro trigger held
    rw [← keys]
    exact List.mem_map_of_mem held
  clear keys otherKeys same
  induction paired with
  | nil => exact .nil
  | @cons trigger other rest others same _ ih =>
      have here := found trigger List.mem_cons_self
      have there := otherFound other List.mem_cons_self
      have listed := within trigger List.mem_cons_self
      have alike := agree.eachTrigger trigger.id listed
      rw [here, same, there] at alike
      cases alike with
      | some alike =>
          refine .cons (agree.fireAlike intact otherIntact alike here there listed) (ih ?_ ?_ ?_)
          · exact fun trigger held => found trigger (List.mem_cons_of_mem _ held)
          · exact fun trigger held => otherFound trigger (List.mem_cons_of_mem _ held)
          · exact fun trigger held => within trigger (List.mem_cons_of_mem _ held)

theorem Intact.eq_of_id_eq (intact : first.Intact) (held : left ∈ first.rules.values)
    (otherHeld : right ∈ first.rules.values) (same : left.id = right.id) : left = right := by
  obtain ⟨id, found⟩ := (Table.mem_values_iff intact.rules.nodup).mp held
  obtain ⟨other, otherFound⟩ := (Table.mem_values_iff intact.rules.nodup).mp otherHeld
  have keys : id = other := by
    rw [← intact.rules.own id left found, ← intact.rules.own other right otherFound, same]
  rw [keys, otherFound] at found
  cases found
  rfl

end RuleGraph

end Rulebook

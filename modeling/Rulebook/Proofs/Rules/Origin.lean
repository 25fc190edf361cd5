import Rulebook.Proofs.Rules.Condition

/-!
Where the rules, triggers and actions of a graph come from. An operation that goes through makes
some of them, or alters what was there under the same identifier, and leaves all others alone.
-/

namespace Rulebook

/-! Tables that change -/

namespace Table

variable {α : Type}

/-- A table takes in one value, alters one in its place, or loses some. What is there anew must
have been made for its identifier. -/
inductive Changes (made : Uuid → α → Prop) (table : Table α) : Table α → Prop where
  | same : Changes made table table
  | put {id : Uuid} {value : α} : made id value → Changes made table (table.put id value)
  | modified {id : Uuid} {change : α → α} :
      (∀ value, table.get? id = some value → made id (change value)) →
      Changes made table (table.modify id change)
  | dropped (ids : List Uuid) : Changes made table (table.eraseAll ids)

namespace Changes

variable {made : Uuid → α → Prop} {table next : Table α}

theorem found (changes : Changes made table next) {id : Uuid} {value : α}
    (held : next.get? id = some value) : table.get? id = some value ∨ made id value := by
  cases changes with
  | same => exact .inl held
  | put fine =>
      rw [get?_put] at held
      split at held
      next here =>
        cases held
        exact .inr (here ▸ fine)
      next elsewhere => exact .inl held
  | modified fine =>
      rw [get?_modify] at held
      split at held
      next here =>
        obtain ⟨old, before, rfl⟩ := Option.map_eq_some_iff.mp held
        subst here
        exact .inr (fine old before)
      next elsewhere => exact .inl held
  | dropped ids =>
      rw [get?_eraseAll] at held
      split at held
      next gone => cases held
      next kept => exact .inl held

theorem nodup (changes : Changes made table next) (distinct : table.keys.Nodup) :
    next.keys.Nodup := by
  cases changes with
  | same => exact distinct
  | @put id value fine =>
      rw [keys_put]
      split
      next known => exact distinct
      next unknown =>
        refine List.nodup_append.mpr ⟨distinct, List.nodup_singleton id, ?_⟩
        intro other held last final same
        rw [List.mem_singleton.mp final] at same
        exact unknown (same ▸ held)
  | modified fine =>
      rw [keys_modify]
      exact distinct
  | dropped ids =>
      rw [keys_eraseAll]
      exact distinct.filter _

theorem keyed {key : α → Uuid} (changes : Changes made table next) (before : table.KeyedBy key)
    (own : ∀ id value, made id value → key value = id) : next.KeyedBy key where
  nodup := changes.nodup before.nodup
  own id value held := by
    rcases changes.found held with old | new
    · exact before.own id value old
    · exact own id value new

end Changes

end Table

/-! What operations make -/

namespace Operation

/-- A rule is made, or it is an old one with something else in its place. -/
inductive MakesRule (graph : RuleGraph) (key : Uuid) (rule : Rule) : Operation → Prop where
  | created {check : ScriptCheck} {now : Instant} {new : NewRule} :
      IsName new.name → IsScript check new.script → rule.id = key → rule.name = new.name →
      rule.script = new.script → MakesRule graph key rule (.createRule check key now new)
  | updated {check : ScriptCheck} {now : Instant} {id : Uuid} {patch : RulePatch} {old : Rule} :
      graph.rules.get? id = some old → IfGiven IsName patch.name →
      IfGiven (IsScript check) patch.script → key = old.id →
      rule = Change.applyRulePatch patch now old →
      MakesRule graph key rule (.updateRule check now id patch)
  | relisted {operation : Operation} {id : Uuid} {old : Rule} :
      graph.rules.get? id = some old → key = id ∨ key = old.id → rule.id = old.id →
      rule.name = old.name → rule.script = old.script → MakesRule graph key rule operation

inductive MakesAction (graph : RuleGraph) (key : Uuid) (action : Action) : Operation → Prop where
  | created {check : ScriptCheck} {now : Instant} {new : NewAction} :
      IfGiven IsName new.name → IsScript check new.script →
      action = ⟨key, new.name, new.script, new.enabled, now, now⟩ →
      MakesAction graph key action (.createAction check key now new)
  | updated {check : ScriptCheck} {now : Instant} {id : Uuid} {patch : ActionPatch}
      {old : Action} :
      graph.actions.get? id = some old → IfGiven IsName patch.name →
      IfGiven (IsScript check) patch.script → key = old.id →
      action = Change.applyActionPatch patch now old →
      MakesAction graph key action (.updateAction check now id patch)

def MakesTrigger (graph : RuleGraph) (key : Uuid) (trigger : Trigger) (operation : Operation) :
    Prop :=
  trigger.id = key ∧ operation.MadeTrigger graph key trigger

/-- All that happens to the tables of a graph when an operation goes through. -/
structure Reworks (operation : Operation) (graph next : RuleGraph) : Prop where
  rules : graph.rules.Changes (operation.MakesRule graph) next.rules
  triggers : graph.triggers.Changes (operation.MakesTrigger graph) next.triggers
  actions : graph.actions.Changes (operation.MakesAction graph) next.actions

theorem outcome_reworks {operation : Operation} {graph next : RuleGraph}
    (done : operation.outcome graph = .ok next) : operation.Reworks graph next := by
  cases operation with
  | createRule check id now new =>
      obtain ⟨made, done⟩ := map_snd_eq_ok.mp done
      obtain ⟨⟨name, script⟩, rfl, rfl⟩ := Change.createRule_eq_ok.mp done
      exact ⟨.put (.created name script rfl rfl rfl), .same, .same⟩
  | updateRule check now id patch =>
      obtain ⟨made, done⟩ := map_snd_eq_ok.mp done
      obtain ⟨⟨name, script⟩, old, held, changed⟩ := Change.updateRule_eq_ok.mp done
      split at changed
      next empty =>
        obtain ⟨_, rfl⟩ := changed
        exact ⟨.same, .same, .same⟩
      next given =>
        obtain ⟨rfl, rfl⟩ := changed
        exact ⟨.put (.updated held name script rfl rfl), .same, .same⟩
  | deleteRule id =>
      obtain ⟨made, done⟩ := map_snd_eq_ok.mp done
      obtain ⟨old, held, rfl, rfl⟩ := Change.deleteRule_eq_ok.mp done
      exact ⟨.dropped [id], .dropped old.triggers, .dropped _⟩
  | createTrigger check id now new =>
      obtain ⟨made, done⟩ := map_snd_eq_ok.mp done
      obtain ⟨condition, same, owner, held, rfl⟩ := Change.createTrigger_eq_ok.mp done
      have own : made.id = id := by rw [same]
      exact ⟨.put (.relisted held (.inr rfl) rfl rfl rfl), .put ⟨own, .created condition same⟩,
        .same⟩
  | updateTrigger check now id patch =>
      obtain ⟨made, done⟩ := map_snd_eq_ok.mp done
      obtain ⟨script, old, held, allowed, same, rfl⟩ := Change.updateTrigger_eq_ok.mp done
      exact ⟨.same, .put ⟨rfl, .updated held script allowed same⟩, .same⟩
  | deleteTrigger id =>
      obtain ⟨made, done⟩ := map_snd_eq_ok.mp done
      obtain ⟨old, held, rfl⟩ := Change.deleteTrigger_eq_ok.mp done
      have unlisted : graph.rules.Changes ((Operation.deleteTrigger id).MakesRule graph)
          (graph.rules.modify old.rule fun owner =>
            { owner with triggers := owner.triggers.filter (· ≠ id) }) :=
        .modified fun owner found => .relisted found (.inl rfl) rfl rfl rfl
      exact ⟨unlisted, .dropped [id], .same⟩
  | createAction check id now new =>
      obtain ⟨made, done⟩ := map_snd_eq_ok.mp done
      obtain ⟨⟨name, script⟩, rfl, rfl⟩ := Change.createAction_eq_ok.mp done
      exact ⟨.same, .same, .put (.created name script rfl)⟩
  | updateAction check now id patch =>
      obtain ⟨made, done⟩ := map_snd_eq_ok.mp done
      obtain ⟨⟨name, script⟩, old, held, rfl, rfl⟩ := Change.updateAction_eq_ok.mp done
      exact ⟨.same, .same, .put (.updated held name script rfl rfl)⟩
  | deleteAction id =>
      obtain ⟨made, done⟩ := map_snd_eq_ok.mp done
      obtain ⟨_, _, rfl⟩ := Change.deleteAction_eq_ok.mp done
      exact ⟨.same, .same, .dropped [id]⟩
  | bind trigger action =>
      obtain ⟨made, done⟩ := map_snd_eq_ok.mp done
      obtain ⟨_, _, _, rfl⟩ := Change.bind_eq_ok.mp done
      exact ⟨.same, .same, .same⟩
  | unbind trigger action =>
      obtain ⟨made, done⟩ := map_snd_eq_ok.mp done
      obtain ⟨_, rfl⟩ := Change.unbind_eq_ok.mp done
      exact ⟨.same, .same, .same⟩
  | addRuleAction now rule action =>
      obtain ⟨made, done⟩ := map_snd_eq_ok.mp done
      obtain ⟨_, old, held, _, rfl, rfl⟩ := Change.addRuleAction_eq_ok.mp done
      exact ⟨.put (.relisted held (.inr rfl) rfl rfl rfl), .same, .same⟩
  | removeRuleAction now rule action =>
      obtain ⟨made, done⟩ := map_snd_eq_ok.mp done
      obtain ⟨old, held, _, rfl, rfl⟩ := Change.removeRuleAction_eq_ok.mp done
      exact ⟨.put (.relisted held (.inr rfl) rfl rfl rfl), .same, .same⟩

end Operation

/-! Identifiers -/

namespace RuleGraph

/-- Everything goes by the identifier that it has itself, and by no other one. -/
structure IsKeyed (graph : RuleGraph) : Prop where
  rules : graph.rules.KeyedBy Rule.id
  triggers : graph.triggers.KeyedBy Trigger.id
  actions : graph.actions.KeyedBy Action.id

theorem IsKeyed.empty : IsKeyed {} :=
  ⟨.empty, .empty, .empty⟩

theorem IsKeyed.outcome {operation : Operation} {graph next : RuleGraph} (keyed : graph.IsKeyed)
    (done : operation.outcome graph = .ok next) : next.IsKeyed := by
  obtain ⟨rules, triggers, actions⟩ := Operation.outcome_reworks done
  refine ⟨rules.keyed keyed.rules ?_, triggers.keyed keyed.triggers ?_,
    actions.keyed keyed.actions ?_⟩
  · intro key rule made
    cases made with
    | created _ _ own => exact own
    | updated _ _ _ place same => rw [same, place]; rfl
    | @relisted _ id old held place own =>
        have oldKey : old.id = id := keyed.rules.own id old held
        rcases place with here | here
        · rw [own, oldKey, here]
        · rw [own, here]
  · exact fun key trigger made => made.1
  · intro key action made
    cases made with
    | created _ _ same => rw [same]
    | updated _ _ _ place same => rw [same, place]; rfl

end RuleGraph

end Rulebook

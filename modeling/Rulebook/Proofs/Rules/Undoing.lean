import Rulebook.Proofs.Rules.Content

/-!
Removing what was just made. Nothing can refer to what goes by a fresh identifier, so that its
removal leads back to the content from before, whatever else a removal may take along.
-/

namespace Rulebook

/-- The second operation removes what the first one makes. -/
inductive Operation.UndoneBy : Operation → Operation → Prop where
  | rule (check : ScriptCheck) (id : Uuid) (now : Instant) (new : NewRule) :
      UndoneBy (.createRule check id now new) (.deleteRule id)
  | trigger (check : ScriptCheck) (id : Uuid) (now : Instant) (new : NewTrigger) :
      UndoneBy (.createTrigger check id now new) (.deleteTrigger id)
  | action (check : ScriptCheck) (id : Uuid) (now : Instant) (new : NewAction) :
      UndoneBy (.createAction check id now new) (.deleteAction id)
  | binding (trigger action : Uuid) : UndoneBy (.bind trigger action) (.unbind trigger action)
  | ruleAction (now later : Instant) (rule action : Uuid) :
      UndoneBy (.addRuleAction now rule action) (.removeRuleAction later rule action)

theorem filter_ne_append {list : List Uuid} {id : Uuid} (absent : id ∉ list) :
    (list ++ [id]).filter (· ≠ id) = list := by
  have kept : list.filter (· ≠ id) = list := by
    rw [List.filter_eq_self]
    intro other held
    have different : other ≠ id := fun same => absent (same ▸ held)
    simpa using different
  rw [List.filter_append, kept]
  simp

namespace RuleGraph.Intact

variable {graph next : RuleGraph} {check : ScriptCheck} {id : Uuid} {now : Instant}

/-! Nothing refers to what is not there -/

theorem bindings_trigger_ne (intact : graph.Intact) (lacks : graph.Lacks id) :
    ∀ binding ∈ graph.bindings, binding.trigger ≠ id :=
  fun binding held same => (intact.bindingsHeld binding held).1 (same ▸ lacks.2.1)

theorem isReferenced_of_lacks (intact : graph.Intact) (lacks : graph.Lacks id) :
    graph.isReferenced id = false := by
  rw [isReferenced_eq_false_iff intact.rules.nodup]
  refine ⟨fun binding held same => ?_, fun key rule found listed => ?_⟩
  · exact (intact.bindingsHeld binding held).2 (same ▸ lacks.2.2)
  · exact (intact.eachRule key rule found).actionsHeld id listed lacks.2.2

theorem triggers_of_lacks {key : Uuid} {rule : Rule} (intact : graph.Intact)
    (lacks : graph.Lacks id) (found : graph.rules.get? key = some rule) : id ∉ rule.triggers := by
  intro listed
  obtain ⟨trigger, held, _⟩ := (intact.listed id key).mpr ⟨rule, found, listed⟩
  rw [lacks.2.1] at held
  cases held

/-! The pairs -/

theorem deleteRule_createRule {new : NewRule} {made : Rule} (lacks : graph.Lacks id)
    (done : Change.createRule check id now new graph = .ok (made, next)) :
    ∃ last, Change.deleteRule id next = .ok (⟨id, [], []⟩, last) ∧
      last.content = graph.content := by
  obtain ⟨_, rfl, rfl⟩ := Change.createRule_eq_ok.mp done
  refine ⟨_, Change.deleteRule_eq_ok.mpr ⟨_, by rw [Table.get?_put, if_pos rfl], ?_, rfl⟩, ?_⟩
  · simp [Change.dropUnreferenced]
  · simp [Change.dropUnreferenced, Change.dropTriggers, Table.erase_put_of_absent lacks.1,
      RuleGraph.content, RuleGraph.undated, RuleGraph.aged]

theorem deleteTrigger_createTrigger {new : NewTrigger} {made : Trigger} (intact : graph.Intact)
    (lacks : graph.Lacks id)
    (done : Change.createTrigger check id now new graph = .ok (made, next)) :
    ∃ last, Change.deleteTrigger id next = .ok ((), last) ∧ last.content = graph.content := by
  obtain ⟨_, rfl, owner, found, rfl⟩ := Change.createTrigger_eq_ok.mp done
  refine ⟨_, Change.deleteTrigger_eq_ok.mpr ⟨_, by rw [Table.get?_put, if_pos rfl], rfl⟩, ?_⟩
  -- the owner lists the trigger last and nowhere else, and no other rule lists it
  have rules : (graph.rules.put owner.id { owner with triggers := owner.triggers ++ [id] }).modify
      new.rule (fun rule => { rule with triggers := rule.triggers.filter (· ≠ id) }) =
        graph.rules := by
    have listing := intact.rules.put_eq_modify found
      (fun rule => { rule with triggers := rule.triggers ++ [id] }) rfl
    rw [listing, Table.modify_modify]
    apply Table.modify_eq_self
    intro rule held
    have inGraph := (Table.mem_entries_iff intact.rules.nodup).mp held
    simp only [filter_ne_append (intact.triggers_of_lacks lacks inGraph)]
  have bindings : graph.bindings.filter (·.trigger ≠ id) = graph.bindings := by
    rw [List.filter_eq_self]
    simpa using intact.bindings_trigger_ne lacks
  simp only [rules, Table.erase_put_of_absent lacks.2.1, bindings, RuleGraph.content,
    RuleGraph.undated]

theorem deleteAction_createAction {new : NewAction} {made : Action} (intact : graph.Intact)
    (lacks : graph.Lacks id)
    (done : Change.createAction check id now new graph = .ok (made, next)) :
    ∃ last, Change.deleteAction id next = .ok ((), last) ∧ last.content = graph.content := by
  obtain ⟨_, rfl, rfl⟩ := Change.createAction_eq_ok.mp done
  refine ⟨_, Change.deleteAction_eq_ok.mpr ⟨⟨_, by rw [Table.get?_put, if_pos rfl]⟩,
    intact.isReferenced_of_lacks lacks, rfl⟩, ?_⟩
  simp only [Table.erase_put_of_absent lacks.2.2, RuleGraph.content, RuleGraph.undated]

theorem unbind_bind {trigger action : Uuid}
    (done : Change.bind trigger action graph = .ok ((), next)) :
    ∃ last, Change.unbind trigger action next = .ok ((), last) ∧ last.content = graph.content := by
  obtain ⟨_, _, free, rfl⟩ := Change.bind_eq_ok.mp done
  have kept : graph.bindings.filter (fun binding =>
      ¬ (binding.trigger = trigger ∧ binding.action = action)) = graph.bindings := by
    rw [List.filter_eq_self]
    simpa [Change.isBound, Decidable.imp_iff_not_or] using free
  refine ⟨_, Change.unbind_eq_ok.mpr ⟨by simp [Change.isBound], rfl⟩, ?_⟩
  simp only [List.filter_append, kept, RuleGraph.content, RuleGraph.undated]
  simp

theorem removeRuleAction_addRuleAction {later : Instant} {rule action : Uuid} {made : Rule}
    (intact : graph.Intact)
    (done : Change.addRuleAction now rule action graph = .ok (made, next)) :
    ∃ last, (∃ answer, Change.removeRuleAction later rule action next = .ok (answer, last)) ∧
      last.content = graph.content := by
  obtain ⟨_, old, found, free, rfl, rfl⟩ := Change.addRuleAction_eq_ok.mp done
  obtain rfl : old.id = rule := intact.rules.own rule old found
  refine ⟨_, ⟨_, Change.removeRuleAction_eq_ok.mpr
    ⟨_, by rw [Table.get?_put, if_pos rfl], by simp, rfl, rfl⟩⟩, ?_⟩
  have same : Rule.undated { old with updatedAt := later } = Rule.undated old := rfl
  simp only [filter_ne_append free, RuleGraph.content, RuleGraph.undated]
  rw [Table.put_put (by simp [found]), Table.map_put intact.rules.nodup found same]

end RuleGraph.Intact

/-- In a graph that can be reached, whatever is made can be removed again, and then everything is
as it was. A rule takes nothing along that it did not come with. -/
theorem removal_undoes {graph next : RuleGraph} {creation removal : Operation}
    (reachable : graph.Reachable) (pair : creation.UndoneBy removal)
    (fresh : creation.IsFresh graph) (done : creation.outcome graph = .ok next) :
    ∃ last, removal.outcome next = .ok last ∧ last.content = graph.content ∧
      ∀ id, removal = .deleteRule id → Change.deleteRule id next = .ok (⟨id, [], []⟩, last) := by
  have intact := reachable.intact
  cases pair with
  | rule check id now new =>
      obtain ⟨made, created⟩ := Operation.map_snd_eq_ok.mp done
      obtain ⟨last, deleted, same⟩ := RuleGraph.Intact.deleteRule_createRule fresh created
      refine ⟨last, Operation.map_snd_eq_ok.mpr ⟨_, deleted⟩, same, ?_⟩
      rintro _ ⟨⟩
      exact deleted
  | trigger check id now new =>
      obtain ⟨made, created⟩ := Operation.map_snd_eq_ok.mp done
      obtain ⟨last, deleted, same⟩ := intact.deleteTrigger_createTrigger fresh created
      exact ⟨last, Operation.map_snd_eq_ok.mpr ⟨_, deleted⟩, same, nofun⟩
  | action check id now new =>
      obtain ⟨made, created⟩ := Operation.map_snd_eq_ok.mp done
      obtain ⟨last, deleted, same⟩ := intact.deleteAction_createAction fresh created
      exact ⟨last, Operation.map_snd_eq_ok.mpr ⟨_, deleted⟩, same, nofun⟩
  | binding trigger action =>
      obtain ⟨made, bound⟩ := Operation.map_snd_eq_ok.mp done
      obtain ⟨last, unbound, same⟩ := RuleGraph.Intact.unbind_bind bound
      exact ⟨last, Operation.map_snd_eq_ok.mpr ⟨_, unbound⟩, same, nofun⟩
  | ruleAction now later rule action =>
      obtain ⟨made, added⟩ := Operation.map_snd_eq_ok.mp done
      obtain ⟨last, removed, same⟩ := intact.removeRuleAction_addRuleAction added
      exact ⟨last, Operation.map_snd_eq_ok.mpr removed, same, nofun⟩

/-- A second trigger of a rule comes and goes. -/
theorem boundOperations_restored :
    let graph := Operation.run boundOperations {}
    let creation : Operation := .createTrigger (fun _ => .ok ()) ⟨4⟩ ⟨1, 0⟩
      ⟨⟨1⟩, .unconditional, none, true⟩
    ∃ next last, creation.outcome graph = .ok next ∧ next.triggers.size = 2 ∧
      (Operation.deleteTrigger ⟨4⟩).outcome next = .ok last ∧ last.content = graph.content := by
  intro graph creation
  have reachable : graph.Reachable := ⟨boundOperations, History.ofFresh (by decide)⟩
  have done : creation.outcome graph = .ok (creation.apply graph) := by decide
  obtain ⟨last, removed, same, _⟩ :=
    removal_undoes reachable (.trigger _ ⟨4⟩ ⟨1, 0⟩ _) (by decide) done
  exact ⟨creation.apply graph, last, done, by decide, removed, same⟩

end Rulebook

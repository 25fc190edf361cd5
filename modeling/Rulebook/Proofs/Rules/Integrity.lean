import Rulebook.Proofs.Rules.History

/-!
The tables of a graph refer to one another, and no reference ever leads nowhere: whatever
operations lead to a graph, it is intact. What is listed in it can therefore be looked up in it.
-/

namespace Rulebook

/-- Numbers that were given out one after the other, up to the last one. -/
structure Numbered (numbers : List Nat) (last : Nat) : Prop where
  nodup : numbers.Nodup
  bounded : ∀ number ∈ numbers, number ≤ last

theorem Numbered.next {numbers more : List Nat} {last : Nat} (numbered : Numbered numbers last)
    (grown : more.Perm ((last + 1) :: numbers)) : Numbered more (last + 1) where
  nodup := by
    rw [grown.nodup_iff, List.nodup_cons]
    refine ⟨fun held => ?_, numbered.nodup⟩
    have bound := numbered.bounded _ held
    omega
  bounded := by
    intro number held
    rcases List.mem_cons.mp (grown.subset held) with rfl | old
    · exact Nat.le_refl _
    · exact Nat.le_succ_of_le (numbered.bounded number old)

theorem Numbered.sublist {numbers fewer : List Nat} {last : Nat} (numbered : Numbered numbers last)
    (part : fewer.Sublist numbers) : Numbered fewer last where
  nodup := numbered.nodup.sublist part
  bounded := fun number held => numbered.bounded number (part.subset held)

/-- A rule lists nothing twice, and no action that is not there. -/
structure Rule.IsIntact (actions : Table Action) (rule : Rule) : Prop where
  triggersNodup : rule.triggers.Nodup
  actionsNodup : rule.actions.Nodup
  actionsHeld : ∀ action ∈ rule.actions, actions.get? action ≠ none

namespace RuleGraph

def sequences (graph : RuleGraph) : List Nat :=
  graph.rules.values.map (·.sequence) ++ graph.bindings.map (·.sequence)

/-- Every reference leads to something, and nothing is there twice. -/
structure Intact (graph : RuleGraph) : Prop where
  rules : graph.rules.KeyedBy Rule.id
  triggers : graph.triggers.KeyedBy Trigger.id
  actions : graph.actions.KeyedBy Action.id
  /-- A rule lists those triggers that say they are its own. -/
  listed : ∀ id owner,
    (∃ trigger, graph.triggers.get? id = some trigger ∧ trigger.rule = owner) ↔
      ∃ rule, graph.rules.get? owner = some rule ∧ id ∈ rule.triggers
  eachRule : ∀ id rule, graph.rules.get? id = some rule → rule.IsIntact graph.actions
  bindingsHeld : ∀ binding ∈ graph.bindings,
    graph.triggers.get? binding.trigger ≠ none ∧ graph.actions.get? binding.action ≠ none
  bindingsNodup : (graph.bindings.map fun binding => (binding.trigger, binding.action)).Nodup
  numbered : Numbered graph.sequences graph.lastSequence

variable {graph : RuleGraph} {id : Uuid}

theorem isReferenced_eq_false_iff (nodup : graph.rules.keys.Nodup) :
    graph.isReferenced id = false ↔
      (∀ binding ∈ graph.bindings, binding.action ≠ id) ∧
        ∀ key rule, graph.rules.get? key = some rule → id ∉ rule.actions := by
  simp only [isReferenced, Bool.or_eq_false_iff, List.any_eq_false, decide_eq_true_eq,
    List.contains_iff_mem, Table.mem_values_iff nodup]
  refine and_congr_right' ⟨?_, ?_⟩
  · exact fun free key rule found => free rule ⟨key, found⟩
  · rintro free rule ⟨key, found⟩
    exact free key rule found

theorem mem_boundActions_iff {trigger action : Uuid} :
    action ∈ graph.boundActions trigger ↔
      ∃ binding ∈ graph.bindings, binding.trigger = trigger ∧ binding.action = action := by
  simp only [boundActions, List.mem_map, List.mem_mergeSort, List.mem_filter, decide_eq_true_eq,
    and_assoc]

namespace Intact

theorem empty : Intact {} where
  rules := .empty
  triggers := .empty
  actions := .empty
  listed := by simp [Table.get?_empty]
  eachRule := by simp [Table.get?_empty]
  bindingsHeld := by simp
  bindingsNodup := List.nodup_nil
  numbered := ⟨List.nodup_nil, by simp [sequences, Table.values]⟩

theorem withVersion (intact : graph.Intact) (version : Nat) : { graph with version }.Intact :=
  { intact with }

/-! Rules -/

theorem addRule (intact : graph.Intact) (rule : Rule) (lacks : graph.Lacks id)
    (own : rule.id = id) (noTriggers : rule.triggers = []) (noActions : rule.actions = [])
    (sequence : rule.sequence = graph.lastSequence + 1) :
    { graph with
      lastSequence := graph.lastSequence + 1
      rules := graph.rules.put id rule }.Intact := by
  have absent : graph.rules.get? id = none := lacks.1
  refine { intact with
    rules := intact.rules.put own
    listed := ?_, eachRule := ?_, numbered := ?_ }
  · intro trigger owner
    rw [intact.listed, Table.get?_put]
    by_cases equal : owner = id
    · subst equal
      simp [absent, noTriggers]
    · simp [equal]
  · intro key found
    rw [Table.get?_put]
    split
    · rintro ⟨⟩
      exact ⟨by simp [noTriggers], by simp [noActions], by simp [noActions]⟩
    · exact intact.eachRule key found
  · apply intact.numbered.next
    simp only [sequences, Table.values_put_of_absent absent, List.map_append, List.map_cons,
      List.map_nil, sequence, List.append_assoc, List.singleton_append]
    exact List.perm_middle

theorem replaceRule {old : Rule} (intact : graph.Intact) (new : Rule)
    (found : graph.rules.get? id = some old) (own : new.id = old.id)
    (triggers : new.triggers = old.triggers) (sequence : new.sequence = old.sequence)
    (whole : new.IsIntact graph.actions) :
    { graph with rules := graph.rules.put new.id new }.Intact := by
  have key : new.id = id := own.trans (intact.rules.own id old found)
  rw [key]
  refine { intact with
    rules := intact.rules.put key
    listed := ?_, eachRule := ?_, numbered := ?_ }
  · intro trigger owner
    rw [intact.listed, Table.get?_put]
    by_cases equal : owner = id
    · subst equal
      simp [found, triggers]
    · simp [equal]
  · intro other held
    rw [Table.get?_put]
    split
    · rintro ⟨⟩
      exact whole
    · exact intact.eachRule other held
  · have same : (graph.rules.put id new).values.map (·.sequence) =
        graph.rules.values.map (·.sequence) :=
      Table.map_values_put _ intact.rules.nodup found sequence
    simpa only [sequences, same] using intact.numbered

theorem dropRule {old : Rule} (intact : graph.Intact) (found : graph.rules.get? id = some old) :
    (Change.dropTriggers old.triggers { graph with rules := graph.rules.erase id }).Intact := by
  have own : ∀ trigger, trigger ∈ old.triggers ↔
      ∃ held, graph.triggers.get? trigger = some held ∧ held.rule = id := by
    intro trigger
    rw [intact.listed]
    simp [found]
  have bindingsKept : (graph.bindings.filter fun binding =>
      !old.triggers.contains binding.trigger).Sublist graph.bindings := List.filter_sublist
  refine { intact with
    rules := intact.rules.erase
    triggers := intact.triggers.eraseAll old.triggers
    listed := ?_, eachRule := ?_, bindingsHeld := ?_, bindingsNodup := ?_, numbered := ?_ }
  · intro trigger owner
    change (∃ held, (graph.triggers.eraseAll old.triggers).get? trigger = some held ∧ _) ↔
      ∃ rule, (graph.rules.erase id).get? owner = some rule ∧ _
    rw [Table.get?_eraseAll, Table.get?_erase]
    by_cases dropped : trigger ∈ old.triggers
    · obtain ⟨held, search, ofOld⟩ := (own trigger).mp dropped
      by_cases equal : owner = id
      · simp [dropped, equal]
      · rw [if_pos dropped, if_neg equal, ← intact.listed, search]
        simp [ofOld, Ne.symm equal]
    · rw [if_neg dropped, intact.listed]
      by_cases equal : owner = id
      · subst equal
        simp [found, dropped]
      · rw [if_neg equal]
  · intro key rule held
    change (graph.rules.erase id).get? key = some rule at held
    rw [Table.get?_erase] at held
    split at held
    · simp at held
    · exact intact.eachRule key rule held
  · intro binding held
    obtain ⟨inGraph, notDropped⟩ := List.mem_filter.mp held
    have kept : binding.trigger ∉ old.triggers := by simpa using notDropped
    refine ⟨?_, (intact.bindingsHeld binding inGraph).2⟩
    change (graph.triggers.eraseAll old.triggers).get? binding.trigger ≠ none
    rw [Table.get?_eraseAll, if_neg kept]
    exact (intact.bindingsHeld binding inGraph).1
  · exact intact.bindingsNodup.sublist (bindingsKept.map _)
  · exact intact.numbered.sublist
      ((Table.values_erase_sublist.map _).append (bindingsKept.map _))

/-- Actions go that nothing needs any more. -/
theorem dropActions {ids : List Uuid} (intact : graph.Intact)
    (free : ∀ action ∈ ids, graph.isReferenced action = false) :
    { graph with actions := graph.actions.eraseAll ids }.Intact := by
  have unneeded := fun action member =>
    (isReferenced_eq_false_iff intact.rules.nodup).mp (free action member)
  refine { intact with
    actions := intact.actions.eraseAll ids
    eachRule := ?_, bindingsHeld := ?_ }
  · intro key rule found
    refine { intact.eachRule key rule found with actionsHeld := ?_ }
    intro action listed
    have kept : action ∉ ids := fun member => (unneeded action member).2 key rule found listed
    rw [Table.get?_eraseAll, if_neg kept]
    exact (intact.eachRule key rule found).actionsHeld action listed
  · intro binding held
    have kept : binding.action ∉ ids := fun member =>
      (unneeded binding.action member).1 binding held rfl
    refine ⟨(intact.bindingsHeld binding held).1, ?_⟩
    rw [Table.get?_eraseAll, if_neg kept]
    exact (intact.bindingsHeld binding held).2

theorem dropUnreferenced (intact : graph.Intact) (candidates : List Uuid) :
    (Change.dropUnreferenced candidates graph).2.Intact := by
  apply intact.dropActions
  intro action member
  have chosen := (List.mem_filter.mp member).2
  simp only [Bool.and_eq_true, Bool.not_eq_true'] at chosen
  exact chosen.1

/-! Triggers -/

theorem addTrigger {owner : Rule} (intact : graph.Intact) (trigger : Trigger)
    (lacks : graph.Lacks id) (own : trigger.id = id)
    (found : graph.rules.get? trigger.rule = some owner) :
    { graph with
      rules := graph.rules.put owner.id { owner with triggers := owner.triggers ++ [id] }
      triggers := graph.triggers.put id trigger }.Intact := by
  have key : owner.id = trigger.rule := intact.rules.own _ _ found
  have absent : graph.triggers.get? id = none := lacks.2.1
  have unlisted : ∀ other rule, graph.rules.get? other = some rule → id ∉ rule.triggers := by
    intro other rule held listed
    obtain ⟨present, search, _⟩ := (intact.listed id other).mpr ⟨rule, held, listed⟩
    simp [absent] at search
  obtain ⟨listing, made⟩ : ∃ rule : Rule, rule = { owner with triggers := owner.triggers ++ [id] } :=
    ⟨_, rfl⟩
  have listingKey : listing.id = trigger.rule := made ▸ key
  rw [← made, key]
  refine { intact with
    rules := intact.rules.put listingKey
    triggers := intact.triggers.put own
    listed := ?_, eachRule := ?_, bindingsHeld := ?_, numbered := ?_ }
  · intro other rule
    rw [Table.get?_put, Table.get?_put]
    by_cases same : other = id
    · subst same
      by_cases equal : rule = trigger.rule
      · simp [equal, made]
      · have foreign : ∀ held, graph.rules.get? rule = some held → other ∉ held.triggers :=
          unlisted rule
        simp only [if_true, Option.some.injEq, exists_eq_left', if_neg equal]
        constructor
        · exact fun ownRule => absurd ownRule.symm equal
        · rintro ⟨held, search, listed⟩
          exact absurd listed (foreign held search)
    · rw [if_neg same, intact.listed]
      by_cases equal : rule = trigger.rule
      · subst equal
        simp [found, made, same]
      · rw [if_neg equal]
  · intro other rule
    rw [Table.get?_put]
    split
    · rintro ⟨⟩
      have before := intact.eachRule _ _ found
      subst made
      refine { before with triggersNodup := ?_ }
      rw [List.nodup_append]
      refine ⟨before.triggersNodup, List.nodup_singleton id, ?_⟩
      intro listed member last single equal
      rw [List.mem_singleton.mp single] at equal
      exact unlisted _ _ found (equal ▸ member)
    · exact intact.eachRule other rule
  · intro binding held
    refine ⟨?_, (intact.bindingsHeld binding held).2⟩
    rw [Table.get?_put]
    split
    · simp
    · exact (intact.bindingsHeld binding held).1
  · have same : (graph.rules.put trigger.rule listing).values.map (·.sequence) =
        graph.rules.values.map (·.sequence) :=
      Table.map_values_put _ intact.rules.nodup found (by rw [made])
    simpa only [sequences, same] using intact.numbered

theorem replaceTrigger {old : Trigger} (intact : graph.Intact) (new : Trigger)
    (found : graph.triggers.get? id = some old) (own : new.id = old.id)
    (sameRule : new.rule = old.rule) :
    { graph with triggers := graph.triggers.put new.id new }.Intact := by
  have key : new.id = id := own.trans (intact.triggers.own id old found)
  rw [key]
  refine { intact with
    triggers := intact.triggers.put key
    listed := ?_, bindingsHeld := ?_ }
  · intro trigger owner
    rw [← intact.listed, Table.get?_put]
    by_cases equal : trigger = id
    · subst equal
      simp [found, sameRule]
    · simp [equal]
  · intro binding held
    refine ⟨?_, (intact.bindingsHeld binding held).2⟩
    rw [Table.get?_put]
    split
    · simp
    · exact (intact.bindingsHeld binding held).1

theorem dropTrigger {old : Trigger} (intact : graph.Intact)
    (found : graph.triggers.get? id = some old) :
    { graph with
      rules := graph.rules.modify old.rule fun rule =>
        { rule with triggers := rule.triggers.filter (· ≠ id) }
      triggers := graph.triggers.erase id
      bindings := graph.bindings.filter (·.trigger ≠ id) }.Intact := by
  have bindingsKept : (graph.bindings.filter (·.trigger ≠ id)).Sublist graph.bindings :=
    List.filter_sublist
  refine { intact with
    rules := ?_
    triggers := intact.triggers.erase
    listed := ?_, eachRule := ?_, bindingsHeld := ?_, bindingsNodup := ?_, numbered := ?_ }
  · dsimp only
    exact intact.rules.modify fun _ => rfl
  · intro trigger owner
    rw [Table.get?_erase, Table.get?_modify]
    by_cases same : trigger = id
    · subst same
      by_cases equal : owner = old.rule
      · simp [equal]
      · rw [if_pos rfl, if_neg equal, ← intact.listed, found]
        simp [Ne.symm equal]
    · rw [if_neg same, intact.listed]
      by_cases equal : owner = old.rule
      · subst equal
        cases graph.rules.get? old.rule with
        | none => simp
        | some rule => simp [same]
      · rw [if_neg equal]
  · intro key rule held
    rw [Table.get?_modify] at held
    split at held
    · obtain ⟨before, search, rfl⟩ := Option.map_eq_some_iff.mp held
      have whole := intact.eachRule key before search
      exact { whole with triggersNodup := whole.triggersNodup.filter _ }
    · exact intact.eachRule key rule held
  · intro binding held
    obtain ⟨inGraph, other⟩ := List.mem_filter.mp held
    have kept : binding.trigger ≠ id := by simpa using other
    refine ⟨?_, (intact.bindingsHeld binding inGraph).2⟩
    rw [Table.get?_erase, if_neg kept]
    exact (intact.bindingsHeld binding inGraph).1
  · exact intact.bindingsNodup.sublist (bindingsKept.map _)
  · have same : (graph.rules.modify old.rule fun rule =>
          { rule with triggers := rule.triggers.filter (· ≠ id) }).values.map (·.sequence) =
        graph.rules.values.map (·.sequence) :=
      Table.map_values_modify _ _ fun _ => rfl
    apply intact.numbered.sublist
    rw [sequences, same]
    exact (List.Sublist.refl _).append (bindingsKept.map _)

/-! Actions and bindings -/

theorem putAction (intact : graph.Intact) (action : Action) (own : action.id = id) :
    { graph with actions := graph.actions.put id action }.Intact := by
  have held : ∀ other, graph.actions.get? other ≠ none →
      (graph.actions.put id action).get? other ≠ none := by
    intro other before
    rw [Table.get?_put]
    split
    · simp
    · exact before
  refine { intact with
    actions := intact.actions.put own
    eachRule := ?_, bindingsHeld := ?_ }
  · intro key rule found
    have whole := intact.eachRule key rule found
    exact { whole with actionsHeld := fun other listed => held other (whole.actionsHeld other listed) }
  · intro binding member
    have ends := intact.bindingsHeld binding member
    exact ⟨ends.1, held _ ends.2⟩

theorem isBound_eq_false_iff {trigger action : Uuid} :
    Change.isBound graph trigger action = false ↔
      (trigger, action) ∉ graph.bindings.map fun binding => (binding.trigger, binding.action) := by
  simp [Change.isBound]

theorem addBinding {trigger action : Uuid} (intact : graph.Intact)
    (knownTrigger : graph.triggers.get? trigger ≠ none)
    (knownAction : graph.actions.get? action ≠ none)
    (free : Change.isBound graph trigger action = false) :
    { graph with
      lastSequence := graph.lastSequence + 1
      bindings := graph.bindings ++ [Binding.mk trigger action (graph.lastSequence + 1)] }.Intact := by
  refine { intact with
    bindingsHeld := ?_, bindingsNodup := ?_, numbered := ?_ }
  · intro binding held
    rcases List.mem_append.mp held with before | last
    · exact intact.bindingsHeld binding before
    · rw [List.mem_singleton.mp last]
      exact ⟨knownTrigger, knownAction⟩
  · rw [List.map_append, List.nodup_append]
    refine ⟨intact.bindingsNodup, List.nodup_singleton _, ?_⟩
    rintro pair held last single rfl
    rw [List.mem_singleton.mp single] at held
    exact isBound_eq_false_iff.mp free held
  · apply intact.numbered.next
    simp only [sequences, List.map_append, List.map_cons, List.map_nil]
    rw [← List.append_assoc]
    exact List.perm_append_singleton _ _

theorem dropBindings {kept : Binding → Bool} (intact : graph.Intact) :
    { graph with bindings := graph.bindings.filter kept }.Intact := by
  have part : (graph.bindings.filter kept).Sublist graph.bindings := List.filter_sublist
  refine { intact with
    bindingsHeld := fun binding held => intact.bindingsHeld binding (part.subset held)
    bindingsNodup := intact.bindingsNodup.sublist (part.map _)
    numbered := intact.numbered.sublist ((List.Sublist.refl _).append (part.map _)) }

/-- Nothing that goes through leaves a reference that leads nowhere. -/
theorem outcome {operation : Operation} {next : RuleGraph} (intact : graph.Intact)
    (fresh : operation.IsFresh graph) (done : operation.outcome graph = .ok next) :
    next.Intact := by
  cases operation with
  | createRule check id now new =>
      obtain ⟨made, done⟩ := Operation.map_snd_eq_ok.mp done
      obtain ⟨_, rfl, rfl⟩ := Change.createRule_eq_ok.mp done
      exact (intact.addRule _ fresh rfl rfl rfl rfl).withVersion _
  | updateRule check now id patch =>
      obtain ⟨made, done⟩ := Operation.map_snd_eq_ok.mp done
      obtain ⟨_, old, found, changed⟩ := Change.updateRule_eq_ok.mp done
      split at changed
      · exact changed.2 ▸ intact
      · obtain ⟨changed, rfl⟩ := changed
        have whole := intact.eachRule id old found
        refine (intact.replaceRule made found ?_ ?_ ?_ ?_).withVersion _
        all_goals subst changed
        · rfl
        · rfl
        · rfl
        · exact { whole with }
  | deleteRule id =>
      obtain ⟨made, done⟩ := Operation.map_snd_eq_ok.mp done
      obtain ⟨old, found, rfl, rfl⟩ := Change.deleteRule_eq_ok.mp done
      exact ((intact.dropRule found).dropUnreferenced _).withVersion _
  | createTrigger check id now new =>
      obtain ⟨made, done⟩ := Operation.map_snd_eq_ok.mp done
      obtain ⟨_, changed, owner, found, rfl⟩ := Change.createTrigger_eq_ok.mp done
      refine (intact.addTrigger made fresh ?_ ?_).withVersion _
      · rw [changed]
      · rw [changed]
        exact found
  | updateTrigger check now id patch =>
      obtain ⟨made, done⟩ := Operation.map_snd_eq_ok.mp done
      obtain ⟨_, old, found, _, changed, rfl⟩ := Change.updateTrigger_eq_ok.mp done
      refine (intact.replaceTrigger made found ?_ ?_).withVersion _
      · rw [changed]
        rfl
      · rw [changed]
        rfl
  | deleteTrigger id =>
      obtain ⟨made, done⟩ := Operation.map_snd_eq_ok.mp done
      obtain ⟨old, found, rfl⟩ := Change.deleteTrigger_eq_ok.mp done
      exact (intact.dropTrigger found).withVersion _
  | createAction check id now new =>
      obtain ⟨made, done⟩ := Operation.map_snd_eq_ok.mp done
      obtain ⟨_, changed, rfl⟩ := Change.createAction_eq_ok.mp done
      refine (intact.putAction made ?_).withVersion _
      rw [changed]
  | updateAction check now id patch =>
      obtain ⟨made, done⟩ := Operation.map_snd_eq_ok.mp done
      obtain ⟨_, old, found, changed, rfl⟩ := Change.updateAction_eq_ok.mp done
      exact (intact.putAction made rfl).withVersion _
  | deleteAction id =>
      obtain ⟨made, done⟩ := Operation.map_snd_eq_ok.mp done
      obtain ⟨_, free, rfl⟩ := Change.deleteAction_eq_ok.mp done
      have alone : ∀ action ∈ [id], graph.isReferenced action = false := by simpa using free
      exact (intact.dropActions alone).withVersion _
  | bind trigger action =>
      obtain ⟨made, done⟩ := Operation.map_snd_eq_ok.mp done
      obtain ⟨⟨_, knownTrigger⟩, ⟨_, knownAction⟩, free, rfl⟩ := Change.bind_eq_ok.mp done
      exact (intact.addBinding (by simp [knownTrigger]) (by simp [knownAction]) free).withVersion _
  | unbind trigger action =>
      obtain ⟨made, done⟩ := Operation.map_snd_eq_ok.mp done
      obtain ⟨_, rfl⟩ := Change.unbind_eq_ok.mp done
      exact intact.dropBindings.withVersion _
  | addRuleAction now rule action =>
      obtain ⟨made, done⟩ := Operation.map_snd_eq_ok.mp done
      obtain ⟨⟨_, known⟩, old, found, free, changed, rfl⟩ := Change.addRuleAction_eq_ok.mp done
      have whole := intact.eachRule rule old found
      refine (intact.replaceRule made found ?_ ?_ ?_ ?_).withVersion _
      all_goals subst changed
      · rfl
      · rfl
      · rfl
      · refine { whole with actionsNodup := ?_, actionsHeld := ?_ }
        · rw [List.nodup_append]
          refine ⟨whole.actionsNodup, List.nodup_singleton _, ?_⟩
          rintro listed member last single rfl
          rw [List.mem_singleton.mp single] at member
          exact free member
        · intro other listed
          rcases List.mem_append.mp listed with before | last
          · exact whole.actionsHeld other before
          · rw [List.mem_singleton.mp last]
            simp [known]
  | removeRuleAction now rule action =>
      obtain ⟨made, done⟩ := Operation.map_snd_eq_ok.mp done
      obtain ⟨old, found, _, changed, rfl⟩ := Change.removeRuleAction_eq_ok.mp done
      have whole := intact.eachRule rule old found
      refine (intact.replaceRule made found ?_ ?_ ?_ ?_).withVersion _
      all_goals subst changed
      · rfl
      · rfl
      · rfl
      · exact { whole with
          actionsNodup := whole.actionsNodup.filter _
          actionsHeld := fun other listed => whole.actionsHeld other (List.mem_filter.mp listed).1 }

theorem ofHistory {operations : List Operation} (history : History operations graph) :
    graph.Intact := by
  induction history with
  | start => exact empty
  | next _ fresh ih => exact Operation.apply_keeps ih fun _ done => ih.outcome fresh done

/-! Looking up what is listed -/

end Intact

end RuleGraph

theorem Table.map_filterMap_get? {α : Type} {key : α → Uuid} {table : Table α} {ids : List Uuid}
    (keyed : table.KeyedBy key) (held : ∀ id ∈ ids, table.get? id ≠ none) :
    (ids.filterMap fun id => table.get? id).map key = ids := by
  induction ids with
  | nil => rfl
  | cons id rest ih =>
      obtain ⟨value, found⟩ := Option.ne_none_iff_exists'.mp (held id (by simp))
      have others := ih fun other member => held other (by simp [member])
      simp only [List.filterMap_cons, found, List.map_cons, keyed.own id value found, others]

namespace RuleGraph.Intact

variable {graph : RuleGraph}

theorem ruleDetail {id : Uuid} {rule : Rule} (intact : graph.Intact)
    (found : graph.rules.get? id = some rule) :
    ∃ detail, graph.ruleDetail id = .ok detail ∧ detail.rule = rule ∧
      detail.triggers.map (·.id) = rule.triggers ∧ detail.actions.map (·.id) = rule.actions := by
  refine ⟨⟨rule, rule.triggers.filterMap fun id => graph.triggers.get? id,
    rule.actions.filterMap fun id => graph.actions.get? id⟩, ?_, rfl, ?_, ?_⟩
  · simp [RuleGraph.ruleDetail, rule_eq_ok.mpr found]
  · apply Table.map_filterMap_get? intact.triggers
    intro trigger listed
    obtain ⟨held, search, _⟩ := (intact.listed trigger id).mpr ⟨rule, found, listed⟩
    simp [search]
  · exact Table.map_filterMap_get? intact.actions (intact.eachRule id rule found).actionsHeld

theorem actionsFor {id : Uuid} {trigger : Trigger} (intact : graph.Intact)
    (found : graph.triggers.get? id = some trigger) :
    ∃ owner, graph.rules.get? trigger.rule = some owner ∧
      (graph.actionsFor trigger).map (·.id) =
        if graph.boundActions id = [] then owner.actions else graph.boundActions id := by
  obtain ⟨owner, ownerFound, _⟩ := (intact.listed id trigger.rule).mp ⟨trigger, found, rfl⟩
  refine ⟨owner, ownerFound, ?_⟩
  rw [RuleGraph.actionsFor, intact.triggers.own id trigger found]
  by_cases none : graph.boundActions id = []
  · simp only [none, List.isEmpty_nil, if_true, ownerFound, Option.map_some, Option.getD_some]
    exact Table.map_filterMap_get? intact.actions
      (intact.eachRule _ owner ownerFound).actionsHeld
  · simp only [List.isEmpty_iff, none, if_false]
    apply Table.map_filterMap_get? intact.actions
    intro action listed
    obtain ⟨binding, held, _, rfl⟩ := mem_boundActions_iff.mp listed
    exact (intact.bindingsHeld binding held).2

theorem listedOnce {id : Uuid} {trigger : Trigger} (intact : graph.Intact)
    (found : graph.triggers.get? id = some trigger) :
    ∃! owner, ∃ rule, graph.rules.get? owner = some rule ∧ id ∈ rule.triggers := by
  refine ⟨trigger.rule, (intact.listed id trigger.rule).mp ⟨trigger, found, rfl⟩, ?_⟩
  intro owner listed
  obtain ⟨held, search, ofOwner⟩ := (intact.listed id owner).mpr listed
  rw [found] at search
  rw [Option.some.inj search, ofOwner]

end RuleGraph.Intact

/-- Whatever operations led to a graph, all that it refers to is there, and whoever looks up what
is listed gets all of it. -/
theorem history_intact {operations : List Operation} {graph : RuleGraph}
    (history : History operations graph) :
    graph.Intact ∧
      (∀ id trigger, graph.triggers.get? id = some trigger →
        ∃! owner, ∃ rule, graph.rules.get? owner = some rule ∧ id ∈ rule.triggers) ∧
      (∀ id rule, graph.rules.get? id = some rule →
        ∃ detail, graph.ruleDetail id = .ok detail ∧ detail.rule = rule ∧
          detail.triggers.map (·.id) = rule.triggers ∧
          detail.actions.map (·.id) = rule.actions) ∧
      (∀ id trigger, graph.triggers.get? id = some trigger →
        ∃ owner, graph.rules.get? trigger.rule = some owner ∧
          (graph.actionsFor trigger).map (·.id) =
            if graph.boundActions id = [] then owner.actions else graph.boundActions id) := by
  have intact := RuleGraph.Intact.ofHistory history
  exact ⟨intact, fun _ _ found => intact.listedOnce found, fun _ _ found => intact.ruleDetail found,
    fun _ _ found => intact.actionsFor found⟩

/-- A rule with a trigger, to which an action is bound that the rule does not list; deleting the
action is refused. -/
def boundOperations : List Operation :=
  let check : ScriptCheck := fun _ => .ok ()
  let now : Instant := ⟨0, 0⟩
  [.createRule check ⟨1⟩ now ⟨"hot", "true", 0, true⟩,
    .createTrigger check ⟨2⟩ now ⟨⟨1⟩, .unconditional, none, true⟩,
    .createAction check ⟨3⟩ now ⟨none, "1", true⟩,
    .bind ⟨2⟩ ⟨3⟩,
    .deleteAction ⟨3⟩]

theorem boundOperations_intact :
    let graph := Operation.run boundOperations {}
    let trigger : Trigger := ⟨⟨2⟩, ⟨1⟩, .unconditional, none, true, ⟨0, 0⟩, ⟨0, 0⟩⟩
    History boundOperations graph ∧ graph.Intact ∧ graph.bindings = [⟨⟨2⟩, ⟨3⟩, 2⟩] ∧
      ∃ owner, graph.rules.get? ⟨1⟩ = some owner ∧
        (graph.actionsFor trigger).map (·.id) =
          if graph.boundActions ⟨2⟩ = [] then owner.actions else graph.boundActions ⟨2⟩ := by
  intro graph trigger
  have history : History boundOperations graph := History.ofFresh (by decide)
  obtain ⟨intact, _, _, complete⟩ := history_intact history
  exact ⟨history, intact, by decide, complete ⟨2⟩ trigger (by decide)⟩

end Rulebook

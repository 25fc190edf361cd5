import Rulebook.Proofs.Rules.Binding
import Rulebook.Proofs.Rules.Content
import Rulebook.Proofs.Rules.Creation
import Rulebook.Proofs.Rules.Origin

/-!
What a graph gains while things are only added to it. New entities stand behind those that were
there before, which stay as they are; only what was added last can still be added to.
-/

namespace Rulebook

namespace Table

variable {α : Type} {key : α → Uuid} {table : Table α} {id : Uuid}

theorem KeyedBy.values_modify (keyed : table.KeyedBy key) (change : α → α) :
    (table.modify id change).values =
      table.values.map fun value => if key value = id then change value else value := by
  rw [values, values, Table.modify, List.map_map, List.map_map]
  apply List.map_congr_left
  rintro ⟨other, value⟩ held
  have own : key value = other := keyed.own other value ((mem_entries_iff keyed.nodup).mp held)
  simp [own]

theorem KeyedBy.values_put_last {front : List α} {old : α} (keyed : table.KeyedBy key) (new : α)
    (values : table.values = front ++ [old]) (same : key new = key old) :
    (table.put (key new) new).values = front ++ [new] := by
  have found : table.get? (key old) = some old :=
    keyed.mem_values_iff.mp (by simp [values])
  have distinct : ((front ++ [old]).map key).Nodup := by
    rw [← values, keyed.map_values]
    exact keyed.nodup
  have others : ∀ value ∈ front, key value ≠ key old := by
    intro value held equal
    rw [List.map_append, List.nodup_append] at distinct
    exact distinct.2.2 _ (List.mem_map_of_mem held) (key old) (by simp) equal
  rw [same, Table.put_eq_modify keyed.nodup found fun _ => new, keyed.values_modify, values,
    List.map_append]
  congr 1
  · conv_rhs => rw [← List.map_id front]
    apply List.map_congr_left
    intro value held
    rw [if_neg (others value held), id]
  · simp

theorem KeyedBy.get?_of_append {next : Table α} {more : List α} {value : α}
    (keyed : table.KeyedBy key) (further : next.KeyedBy key)
    (values : next.values = table.values ++ more) (found : table.get? id = some value) :
    next.get? id = some value := by
  have held : value ∈ table.values := (Table.mem_values_iff keyed.nodup).mpr ⟨id, found⟩
  rw [← keyed.own id value found]
  exact further.mem_values_iff.mp (values ▸ List.mem_append_left more held)

end Table

/-! Rules of one priority -/

/-- Sorting by priority leaves the rules of one priority in the order in which they were. -/
theorem Rule.filter_byPriority {rules : List Rule}
    (growing : rules.Pairwise fun left right => left.sequence < right.sequence) (priority : Int) :
    (Rule.byPriority rules).filter (·.priority = priority) =
      rules.filter (·.priority = priority) := by
  have sorted : ((Rule.byPriority rules).filter (·.priority = priority)).Pairwise
      fun left right => left.sequence < right.sequence := by
    rw [List.pairwise_filter]
    refine (Rule.byPriority_precede growing).imp fun precedes left right => ?_
    simp only [decide_eq_true_eq] at left right
    unfold Precedes at precedes
    omega
  refine ((List.mergeSort_perm _ _).filter _).eq_of_pairwise ?_ sorted
    (growing.sublist List.filter_sublist)
  intro left right _ _ before after
  omega

/-! Identifiers -/

/-- The identifier of what an operation makes. -/
def Operation.identifier? : Operation → Option Uuid
  | .createRule _ id _ _ | .createTrigger _ id _ _ | .createAction _ id _ _ => some id
  | _ => none

/-- What is not there is not there afterwards, unless it is what was made. -/
theorem RuleGraph.Intact.lacks_outcome {graph next : RuleGraph} {operation : Operation} {id : Uuid}
    (intact : graph.Intact) (done : operation.outcome graph = .ok next) (lacks : graph.Lacks id)
    (other : operation.identifier? ≠ some id) : next.Lacks id := by
  obtain ⟨rules, triggers, actions⟩ := Operation.outcome_reworks done
  -- what was changed had its identifier before as well, so that it would have been there
  have absent {α : Type} {found : Option α} (nothing : ∀ value, found ≠ some value) :
      found = none := Option.eq_none_iff_forall_ne_some.mpr nothing
  refine ⟨absent fun rule held => ?_, absent fun trigger held => ?_, absent fun action held => ?_⟩
  · rcases rules.found held with before | made
    · rw [lacks.1] at before
      cases before
    · cases made with
      | created _ _ _ _ _ => exact other rfl
      | updated found _ _ same _ =>
          have own := intact.rules.own _ _ found
          rw [← own, ← same, lacks.1] at found
          cases found
      | relisted found same _ _ _ =>
          have own := intact.rules.own _ _ found
          rcases same with rfl | rfl
          · rw [lacks.1] at found
            cases found
          · rw [← own, lacks.1] at found
            cases found
  · rcases triggers.found held with before | ⟨own, made⟩
    · rw [lacks.2.1] at before
      cases before
    · cases made with
      | created _ _ => exact other rfl
      | @updated _ _ _ _ old found _ _ same =>
          have ofOld := intact.triggers.own _ _ found
          have sameId : old.id = id := by rwa [same] at own
          rw [← ofOld, sameId, lacks.2.1] at found
          cases found
  · rcases actions.found held with before | made
    · rw [lacks.2.2] at before
      cases before
    · cases made with
      | created _ _ _ => exact other rfl
      | updated found _ _ same _ =>
          have own := intact.actions.own _ _ found
          rw [← own, ← same, lacks.2.2] at found
          cases found

namespace RuleGraph

variable {graph next after : RuleGraph} {check : ScriptCheck} {id : Uuid} {now : Instant}

theorem Reachable.boundActions (reachable : graph.Reachable) (trigger : Uuid) :
    graph.boundActions trigger =
      (graph.bindings.filter (·.trigger = trigger)).map (·.action) := by
  obtain ⟨operations, history⟩ := reachable
  exact (Ledger.follow_history history).2.ordered.boundActions

theorem Reachable.rulesInOrder_filter (reachable : graph.Reachable) (enabledOnly : Bool)
    (priority : Int) :
    (graph.rulesInOrder enabledOnly).filter (·.priority = priority) =
      (graph.rules.values.filter fun rule => !enabledOnly || rule.enabled).filter
        (·.priority = priority) := by
  obtain ⟨operations, history⟩ := reachable
  have growing := (Follows.ofHistory history).sequences_growing.sublist
    (List.filter_sublist (p := fun rule : Rule => !enabledOnly || rule.enabled))
  rw [rulesInOrder, Rule.mergeSort_eq_byPriority (List.Perm.refl _) growing,
    Rule.filter_byPriority growing]

/-! Triggers with what is bound to them -/

def linksOf (trigger : Trigger × List Uuid) : List (Uuid × Uuid) :=
  trigger.2.map fun action => (trigger.1.id, action)

theorem filter_linksOf_of_absent {triggers : List (Trigger × List Uuid)}
    (absent : ∀ pair ∈ triggers, pair.1.id ≠ id) :
    (triggers.flatMap linksOf).filter (·.1 = id) = [] := by
  rw [List.filter_eq_nil_iff]
  intro link held
  obtain ⟨pair, inTriggers, inLinks⟩ := List.mem_flatMap.mp held
  obtain ⟨action, _, rfl⟩ := List.mem_map.mp inLinks
  simpa using absent pair inTriggers

theorem filter_linksOf {triggers : List (Trigger × List Uuid)} {trigger : Trigger}
    {bound : List Uuid} (distinct : (triggers.map (·.1.id)).Nodup)
    (held : (trigger, bound) ∈ triggers) :
    ((triggers.flatMap linksOf).filter (·.1 = trigger.id)).map (·.2) = bound := by
  induction triggers with
  | nil => cases held
  | cons pair rest ih =>
      obtain ⟨first, others⟩ := List.nodup_cons.mp distinct
      rw [List.flatMap_cons, List.filter_append, List.map_append]
      rcases List.mem_cons.mp held with rfl | later
      · have absent : ∀ pair ∈ rest, pair.1.id ≠ trigger.id := fun pair held same =>
          first (List.mem_map.mpr ⟨pair, held, same⟩)
        rw [filter_linksOf_of_absent absent]
        simp [linksOf, List.filter_map, Function.comp_def]
      · have different : pair.1.id ≠ trigger.id := fun same =>
          first (List.mem_map.mpr ⟨_, later, same.symm⟩)
        have none : (linksOf pair).filter (·.1 = trigger.id) = [] := by
          simp [linksOf, List.filter_map, Function.comp_def, different]
        rw [none, ih others later, List.map_nil, List.nil_append]

/-- A graph has got new actions, new rules, and new triggers, each with what has been bound to
it. -/
structure Grown (graph next : RuleGraph) (newActions : List Action) (newRules : List Rule)
    (newTriggers : List (Trigger × List Uuid)) : Prop where
  reachable : next.Reachable
  actions : next.actions.values = graph.actions.values ++ newActions
  rules : next.rules.values = graph.rules.values ++ newRules
  triggers : next.triggers.values = graph.triggers.values ++ newTriggers.map (·.1)
  bindings : ∃ more, next.bindings = graph.bindings ++ more ∧
    more.map (fun binding => (binding.trigger, binding.action)) = newTriggers.flatMap linksOf

namespace Grown

variable {actions : List Action} {rules : List Rule} {triggers : List (Trigger × List Uuid)}

theorem refl (reachable : graph.Reachable) : Grown graph graph [] [] [] where
  reachable := reachable
  actions := (List.append_nil _).symm
  rules := (List.append_nil _).symm
  triggers := (List.append_nil _).symm
  bindings := ⟨[], (List.append_nil _).symm, rfl⟩

theorem createAction {new : NewAction} {made : Action}
    (grown : Grown graph next actions rules triggers) (lacks : next.Lacks id)
    (done : Change.createAction check id now new next = .ok (made, after)) :
    Grown graph after (actions ++ [made]) rules triggers := by
  have reachable := grown.reachable.outcome (.createAction check id now new) lacks
    (Operation.map_snd_eq_ok.mpr ⟨made, done⟩)
  obtain ⟨_, _, rfl⟩ := Change.createAction_eq_ok.mp done
  refine { grown with reachable := reachable, actions := ?_ }
  rw [Table.values_put_of_absent lacks.2.2, grown.actions, List.append_assoc]

theorem createRule {new : NewRule} {made : Rule} (grown : Grown graph next actions rules triggers)
    (lacks : next.Lacks id) (done : Change.createRule check id now new next = .ok (made, after)) :
    Grown graph after actions (rules ++ [made]) triggers := by
  have reachable := grown.reachable.outcome (.createRule check id now new) lacks
    (Operation.map_snd_eq_ok.mpr ⟨made, done⟩)
  obtain ⟨_, _, rfl⟩ := Change.createRule_eq_ok.mp done
  refine { grown with reachable := reachable, rules := ?_ }
  rw [Table.values_put_of_absent lacks.1, grown.rules, List.append_assoc]

variable {rule : Rule}

theorem rule_found (grown : Grown graph next actions (rules ++ [rule]) triggers) :
    next.rules.get? rule.id = some rule :=
  grown.reachable.intact.rules.mem_values_iff.mp (by simp [grown.rules])

theorem rules_put (grown : Grown graph next actions (rules ++ [rule]) triggers) (made : Rule)
    (same : made.id = rule.id) :
    (next.rules.put made.id made).values = graph.rules.values ++ (rules ++ [made]) := by
  have values : next.rules.values = (graph.rules.values ++ rules) ++ [rule] := by
    rw [grown.rules, List.append_assoc]
  rw [grown.reachable.intact.rules.values_put_last made values same, List.append_assoc]

theorem addRuleAction {action : Uuid} {made : Rule}
    (grown : Grown graph next actions (rules ++ [rule]) triggers)
    (done : Change.addRuleAction now rule.id action next = .ok (made, after)) :
    made = { rule with actions := rule.actions ++ [action], updatedAt := now } ∧
      Grown graph after actions (rules ++ [made]) triggers := by
  have reachable := grown.reachable.outcome (.addRuleAction now rule.id action) trivial
    (Operation.map_snd_eq_ok.mpr ⟨made, done⟩)
  obtain ⟨_, old, found, _, changed, rfl⟩ := Change.addRuleAction_eq_ok.mp done
  rw [grown.rule_found] at found
  obtain rfl := Option.some.inj found
  exact ⟨changed, { grown with
    reachable := reachable, rules := grown.rules_put made (by rw [changed]) }⟩

theorem createTrigger {new : NewTrigger} {made : Trigger}
    (grown : Grown graph next actions (rules ++ [rule]) triggers) (lacks : next.Lacks id)
    (owner : new.rule = rule.id)
    (done : Change.createTrigger check id now new next = .ok (made, after)) :
    Grown graph after actions (rules ++ [{ rule with triggers := rule.triggers ++ [id] }])
      (triggers ++ [(made, [])]) := by
  have reachable := grown.reachable.outcome (.createTrigger check id now new) lacks
    (Operation.map_snd_eq_ok.mpr ⟨made, done⟩)
  obtain ⟨_, _, old, found, rfl⟩ := Change.createTrigger_eq_ok.mp done
  rw [owner, grown.rule_found] at found
  obtain rfl := Option.some.inj found
  refine { grown with
    reachable := reachable, triggers := ?_, bindings := ?_
    rules := grown.rules_put { rule with triggers := rule.triggers ++ [id] } rfl }
  · rw [Table.values_put_of_absent lacks.2.1, grown.triggers, List.map_append, List.append_assoc]
    rfl
  · obtain ⟨more, bindings, links⟩ := grown.bindings
    exact ⟨more, bindings, by simp [links, linksOf]⟩

theorem bind {trigger : Trigger} {bound : List Uuid} {action : Uuid}
    (grown : Grown graph next actions rules (triggers ++ [(trigger, bound)]))
    (done : Change.bind trigger.id action next = .ok ((), after)) :
    Grown graph after actions rules (triggers ++ [(trigger, bound ++ [action])]) := by
  have reachable := grown.reachable.outcome (.bind trigger.id action) trivial
    (Operation.map_snd_eq_ok.mpr ⟨(), done⟩)
  obtain ⟨_, _, _, rfl⟩ := Change.bind_eq_ok.mp done
  obtain ⟨more, bindings, links⟩ := grown.bindings
  refine { grown with
    reachable := reachable, triggers := ?_
    bindings := ⟨more ++ [⟨trigger.id, action, next.lastSequence + 1⟩], ?_, ?_⟩ }
  · simpa using grown.triggers
  · rw [bindings, List.append_assoc]
  · rw [List.map_append, links]
    simp [linksOf]

theorem kept (grown : Grown graph next actions rules triggers) (reachable : graph.Reachable) :
    (∀ id rule, graph.rules.get? id = some rule → next.rules.get? id = some rule) ∧
      (∀ id trigger, graph.triggers.get? id = some trigger →
        next.triggers.get? id = some trigger) ∧
      ∀ id action, graph.actions.get? id = some action → next.actions.get? id = some action := by
  have before := reachable.intact
  have now := grown.reachable.intact
  exact ⟨fun _ _ found => before.rules.get?_of_append now.rules grown.rules found,
    fun _ _ found => before.triggers.get?_of_append now.triggers grown.triggers found,
    fun _ _ found => before.actions.get?_of_append now.actions grown.actions found⟩

/-! What is bound -/

theorem triggers_nodup (grown : Grown graph next actions rules triggers) :
    (graph.triggers.values.map (·.id) ++ triggers.map (·.1.id)).Nodup := by
  have nodup := grown.reachable.intact.triggers.nodup
  rw [← grown.reachable.intact.triggers.map_values, grown.triggers] at nodup
  simpa [Function.comp_def] using nodup

theorem boundActions_append (grown : Grown graph next actions rules triggers)
    (reachable : graph.Reachable) (id : Uuid) :
    next.boundActions id = graph.boundActions id ++
      ((triggers.flatMap linksOf).filter (·.1 = id)).map (·.2) := by
  obtain ⟨more, bindings, links⟩ := grown.bindings
  rw [grown.reachable.boundActions, reachable.boundActions, bindings, List.filter_append,
    List.map_append, ← links, List.filter_map, List.map_map]
  rfl

theorem boundActions_of_old (grown : Grown graph next actions rules triggers)
    (reachable : graph.Reachable) {id : Uuid} (old : graph.triggers.get? id ≠ none) :
    next.boundActions id = graph.boundActions id := by
  have absent : ∀ pair ∈ triggers, pair.1.id ≠ id := by
    rintro pair held rfl
    have known : pair.1.id ∈ graph.triggers.values.map (·.id) := by
      rw [reachable.intact.triggers.map_values]
      exact not_not.mp (mt Table.get?_eq_none_iff.mpr old)
    exact (List.nodup_append.mp grown.triggers_nodup).2.2 _ known _
      (List.mem_map_of_mem held) rfl
  rw [grown.boundActions_append reachable, filter_linksOf_of_absent absent, List.map_nil,
    List.append_nil]

theorem boundActions_of_new (grown : Grown graph next actions rules triggers)
    (reachable : graph.Reachable) {trigger : Trigger} {bound : List Uuid}
    (new : (trigger, bound) ∈ triggers) : next.boundActions trigger.id = bound := by
  obtain ⟨_, distinct, apart⟩ := List.nodup_append.mp grown.triggers_nodup
  have nothing : graph.boundActions trigger.id = [] := by
    rw [reachable.boundActions, List.map_eq_nil_iff, List.filter_eq_nil_iff]
    intro binding held
    have known : binding.trigger ∈ graph.triggers.values.map (·.id) := by
      rw [reachable.intact.triggers.map_values]
      exact not_not.mp
        (mt Table.get?_eq_none_iff.mpr (reachable.intact.bindingsHeld binding held).1)
    have different := apart _ known trigger.id (List.mem_map_of_mem new)
    simpa using different
  rw [grown.boundActions_append reachable, nothing, filter_linksOf distinct new, List.nil_append]

theorem rulesInOrder_append (grown : Grown graph next actions rules triggers)
    (reachable : graph.Reachable) (enabledOnly : Bool) (priority : Int) :
    (next.rulesInOrder enabledOnly).filter (·.priority = priority) =
      (graph.rulesInOrder enabledOnly).filter (·.priority = priority) ++
        (rules.filter fun rule => !enabledOnly || rule.enabled).filter (·.priority = priority) := by
  rw [grown.reachable.rulesInOrder_filter, reachable.rulesInOrder_filter, grown.rules,
    List.filter_append, List.filter_append]

end Grown

end RuleGraph

end Rulebook

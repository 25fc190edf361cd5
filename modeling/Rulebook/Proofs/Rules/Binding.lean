import Rulebook.Proofs.Rules.Integrity
import Rulebook.Proofs.Sorting

/-!
The bindings of all triggers stand in one table and are numbered together with the rules. What the
table comes to is a list of actions for each trigger. Such lists are kept here beside the graph,
by the operations that go through, and the table is shown to stand for them.
-/

namespace Rulebook

/-- Whose each trigger is, and which actions are bound to it, in order. -/
structure Ledger where
  owner : Uuid → Option Uuid := fun _ => none
  bound : Uuid → List Uuid := fun _ => []

namespace Ledger

def enroll (trigger rule : Uuid) (ledger : Ledger) : Ledger where
  owner := Function.update ledger.owner trigger (some rule)
  bound := Function.update ledger.bound trigger []

def discard (gone : Uuid → Prop) [DecidablePred gone] (ledger : Ledger) : Ledger where
  owner trigger := if gone trigger then none else ledger.owner trigger
  bound trigger := if gone trigger then [] else ledger.bound trigger

def setBound (trigger : Uuid) (actions : List Uuid) (ledger : Ledger) : Ledger :=
  { ledger with bound := Function.update ledger.bound trigger actions }

/-- Enters an operation that went through. -/
def enter (ledger : Ledger) : Operation → Ledger
  | .createTrigger _ id _ new => ledger.enroll id new.rule
  | .bind trigger action => ledger.setBound trigger (ledger.bound trigger ++ [action])
  | .unbind trigger action => ledger.setBound trigger ((ledger.bound trigger).erase action)
  | .deleteTrigger id => ledger.discard (· = id)
  | .deleteRule id => ledger.discard (ledger.owner · = some id)
  | .createRule .. | .updateRule .. | .updateTrigger .. | .createAction .. | .updateAction ..
  | .deleteAction _ | .addRuleAction .. | .removeRuleAction .. => ledger

/-- An operation that is refused is not entered. -/
def step (state : RuleGraph × Ledger) (operation : Operation) : RuleGraph × Ledger :=
  match operation.outcome state.1 with
  | .ok next => (next, state.2.enter operation)
  | .error _ => state

def ofOperations (operations : List Operation) : Ledger :=
  (operations.foldl step ({}, {})).2

end Ledger

/-! The search in a table by its keys -/

namespace Binding

/-- Keys are in order of their triggers, and those of one trigger in order of their actions. -/
def compareKeys (left right : Uuid × Uuid) : Ordering :=
  (compare left.1 right.1).then (compare left.2 right.2)

def key (binding : Binding) : Uuid × Uuid :=
  (binding.trigger, binding.action)

/-- The bindings of a trigger among bindings in the order of their keys: those from its least key
on, as long as they are its own. -/
def scan (trigger : Uuid) (keyed : List Binding) : List Binding :=
  (keyed.dropWhile fun binding => compareKeys binding.key (trigger, Uuid.zero) = .lt).takeWhile
    (·.trigger = trigger)

end Binding

section Scanning

variable {α : Type} {measure : α → Nat} {list : List α} {bound : Nat}

theorem dropWhile_eq_filter
    (sorted : list.Pairwise fun left right => measure left ≤ measure right) :
    list.dropWhile (fun item => measure item < bound) =
      list.filter (fun item => bound ≤ measure item) := by
  induction list with
  | nil => rfl
  | cons first rest ih =>
      obtain ⟨least, restSorted⟩ := List.pairwise_cons.mp sorted
      by_cases small : measure first < bound
      · have dropped : ¬ bound ≤ measure first := by omega
        simp [small, dropped, ih restSorted]
      · have all : ∀ item ∈ first :: rest, decide (bound ≤ measure item) = true := by
          intro item member
          have above : measure first ≤ measure item := by
            rcases List.mem_cons.mp member with rfl | later
            · exact Nat.le_refl _
            · exact least item later
          simp only [decide_eq_true_eq]
          omega
        rw [List.filter_eq_self.mpr all]
        simp [small]

theorem takeWhile_eq_filter
    (sorted : list.Pairwise fun left right => measure left ≤ measure right)
    (above : ∀ item ∈ list, bound ≤ measure item) :
    list.takeWhile (fun item => measure item = bound) =
      list.filter (fun item => measure item = bound) := by
  induction list with
  | nil => rfl
  | cons first rest ih =>
      obtain ⟨least, restSorted⟩ := List.pairwise_cons.mp sorted
      by_cases same : measure first = bound
      · simp [same, ih restSorted fun item member => above item (by simp [member])]
      · have none : ∀ item ∈ first :: rest, ¬ decide (measure item = bound) = true := by
          intro item member
          have firstAbove := above first (by simp)
          have later : measure first ≤ measure item := by
            rcases List.mem_cons.mp member with rfl | inRest
            · exact Nat.le_refl _
            · exact least item inRest
          simp only [decide_eq_true_eq]
          omega
        rw [List.filter_eq_nil_iff.mpr none]
        simp [same]

end Scanning

namespace Binding

variable {keyed : List Binding} {trigger : Uuid}

def triggerNumber (binding : Binding) : Nat :=
  binding.trigger.bits.toNat

theorem triggerNumber_eq_iff {binding : Binding} :
    binding.triggerNumber = trigger.bits.toNat ↔ binding.trigger = trigger := by
  rw [triggerNumber, ← BitVec.toNat_eq]
  cases binding.trigger
  cases trigger
  simp

theorem triggerNumber_le {left right : Binding}
    (ordered : compareKeys left.key right.key ≠ .gt) :
    left.triggerNumber ≤ right.triggerNumber := by
  by_contra above
  have greater : compare left.trigger right.trigger = .gt :=
    Nat.compare_eq_gt.mpr (Nat.lt_of_not_le above)
  exact ordered (by simp [compareKeys, key, greater])

theorem compareKeys_least {binding : Binding} :
    compareKeys binding.key (trigger, Uuid.zero) = .lt ↔
      binding.triggerNumber < trigger.bits.toNat := by
  have least : compare binding.action Uuid.zero ≠ .lt := by
    intro less
    exact Nat.not_lt_zero _ (Nat.compare_eq_lt.mp less)
  rw [compareKeys, Ordering.then_eq_lt]
  constructor
  · rintro (less | ⟨_, less⟩)
    · exact Nat.compare_eq_lt.mp less
    · exact absurd less least
  · exact fun less => .inl (Nat.compare_eq_lt.mpr less)

theorem scan_eq_filter
    (sorted : keyed.Pairwise fun left right => compareKeys left.key right.key ≠ .gt) :
    scan trigger keyed = keyed.filter (·.trigger = trigger) := by
  have byTrigger : keyed.Pairwise fun left right => left.triggerNumber ≤ right.triggerNumber :=
    sorted.imp triggerNumber_le
  simp only [scan, compareKeys_least, ← triggerNumber_eq_iff]
  rw [dropWhile_eq_filter byTrigger, takeWhile_eq_filter (byTrigger.sublist List.filter_sublist),
    List.filter_filter]
  · apply List.filter_congr
    intro binding _
    by_cases same : binding.triggerNumber = trigger.bits.toNat
    · simp [same]
    · simp [same]
  · intro binding member
    simpa using (List.mem_filter.mp member).2

end Binding

namespace RuleGraph

variable {graph : RuleGraph} {trigger : Uuid}

/-- The bindings are numbered in the order in which they stand. -/
def InOrder (graph : RuleGraph) : Prop :=
  graph.bindings.Pairwise fun left right => left.sequence < right.sequence

theorem Intact.boundNodup (intact : graph.Intact) (trigger : Uuid) :
    ((graph.bindings.filter (·.trigger = trigger)).map (·.action)).Nodup := by
  have keys := intact.bindingsNodup.sublist
    ((List.filter_sublist (p := fun binding => decide (binding.trigger = trigger))).map _)
  rw [List.Nodup, List.pairwise_map] at keys ⊢
  refine keys.imp_of_mem ?_
  intro left right leftHeld rightHeld unequal same
  have leftOf : left.trigger = trigger := by simpa using (List.mem_filter.mp leftHeld).2
  have rightOf : right.trigger = trigger := by simpa using (List.mem_filter.mp rightHeld).2
  exact unequal (Prod.ext (leftOf.trans rightOf.symm) same)

theorem Intact.boundActions_nodup (intact : graph.Intact) (trigger : Uuid) :
    (graph.boundActions trigger).Nodup := by
  rw [boundActions, ((List.mergeSort_perm _ _).map _).nodup_iff]
  exact intact.boundNodup trigger

theorem Intact.actionsFor_nodup {trigger : Trigger} (intact : graph.Intact)
    (found : graph.triggers.get? trigger.id = some trigger) :
    ((graph.actionsFor trigger).map (·.id)).Nodup := by
  obtain ⟨owner, ownerFound, ids⟩ := intact.actionsFor found
  rw [ids]
  split
  · exact (intact.eachRule _ owner ownerFound).actionsNodup
  · exact intact.boundActions_nodup trigger.id

theorem InOrder.mergeSort_of_perm {bindings chosen : List Binding}
    (ordered : bindings.Pairwise fun left right => left.sequence < right.sequence)
    (perm : chosen.Perm bindings) :
    (chosen.mergeSort fun left right => left.sequence ≤ right.sequence) = bindings := by
  refine mergeSort_eq_of_strict ?_ ?_ (ordered.imp fun before => ?_) perm
  · intro left middle right
    simp only [decide_eq_true_eq]
    omega
  · intro left right
    simp only [Bool.or_eq_true, decide_eq_true_eq]
    omega
  · simpa using before

theorem InOrder.boundActions (ordered : graph.InOrder) :
    graph.boundActions trigger =
      (graph.bindings.filter (·.trigger = trigger)).map (·.action) := by
  rw [RuleGraph.boundActions,
    mergeSort_of_perm (List.Pairwise.sublist List.filter_sublist ordered) (List.Perm.refl _)]

/-- A search of the table by its keys finds what is bound to a trigger, and the numbers tell in
which order it was bound. -/
theorem InOrder.scan {keyed : List Binding} (ordered : graph.InOrder)
    (perm : keyed.Perm graph.bindings)
    (sorted : keyed.Pairwise fun left right => Binding.compareKeys left.key right.key ≠ .gt) :
    ((Binding.scan trigger keyed).mergeSort fun left right =>
      left.sequence ≤ right.sequence).map (·.action) = graph.boundActions trigger := by
  rw [Binding.scan_eq_filter sorted, ordered.boundActions,
    mergeSort_of_perm (List.Pairwise.sublist List.filter_sublist ordered) (perm.filter _)]

theorem InOrder.filter {kept : Binding → Bool} (ordered : graph.InOrder) :
    { graph with bindings := graph.bindings.filter kept }.InOrder :=
  List.Pairwise.sublist List.filter_sublist ordered

theorem InOrder.append {action : Uuid} (ordered : graph.InOrder) (intact : graph.Intact) :
    { graph with
      bindings := graph.bindings ++ [Binding.mk trigger action (graph.lastSequence + 1)] }.InOrder := by
  refine List.pairwise_append.mpr ⟨ordered, List.pairwise_singleton _ _, ?_⟩
  intro binding held last single
  have bound : binding.sequence ≤ graph.lastSequence :=
    intact.numbered.bounded _ (List.mem_append_right _ (List.mem_map_of_mem held))
  rw [List.mem_singleton.mp single]
  exact Nat.lt_succ_of_le bound

end RuleGraph

namespace Ledger

/-- What a ledger says is what is to be read off a graph. -/
structure Fits (ledger : Ledger) (graph : RuleGraph) : Prop where
  owner : ∀ trigger, ledger.owner trigger = (graph.triggers.get? trigger).map (·.rule)
  bound : ∀ trigger,
    ledger.bound trigger = (graph.bindings.filter (·.trigger = trigger)).map (·.action)
  ordered : graph.InOrder

namespace Fits

variable {ledger : Ledger} {graph next : RuleGraph} {id trigger action : Uuid}

theorem start : Fits {} {} where
  owner := fun _ => rfl
  bound := fun _ => rfl
  ordered := List.Pairwise.nil

theorem keep (fits : ledger.Fits graph) (triggers : next.triggers = graph.triggers)
    (bindings : next.bindings = graph.bindings) : ledger.Fits next where
  owner := triggers ▸ fits.owner
  bound := bindings ▸ fits.bound
  ordered := by
    rw [RuleGraph.InOrder, bindings]
    exact fits.ordered

theorem createTrigger (fits : ledger.Fits graph) (intact : graph.Intact) (lacks : graph.Lacks id)
    (made : Trigger) (triggers : next.triggers = graph.triggers.put id made)
    (bindings : next.bindings = graph.bindings) :
    (ledger.enroll id made.rule).Fits next where
  owner := by
    intro trigger
    simp only [triggers, Table.get?_put, enroll, Function.update_apply]
    split
    · rfl
    · exact fits.owner trigger
  bound := by
    intro trigger
    simp only [bindings, enroll, Function.update_apply]
    split
    · rename_i same
      -- Nothing can be bound to a trigger before it is made.
      have none : graph.bindings.filter (·.trigger = trigger) = [] := by
        rw [List.filter_eq_nil_iff]
        intro binding held ofTrigger
        have known := (intact.bindingsHeld binding held).1
        rw [decide_eq_true_eq.mp ofTrigger, same] at known
        exact known lacks.2.1
      rw [none, List.map_nil]
    · exact fits.bound trigger
  ordered := by
    rw [RuleGraph.InOrder, bindings]
    exact fits.ordered

theorem updateTrigger {old made : Trigger} (fits : ledger.Fits graph)
    (found : graph.triggers.get? id = some old) (sameRule : made.rule = old.rule)
    (triggers : next.triggers = graph.triggers.put id made)
    (bindings : next.bindings = graph.bindings) : ledger.Fits next where
  owner := by
    intro trigger
    rw [triggers, Table.get?_put, fits.owner]
    split
    · rename_i same
      rw [same, found, Option.map_some, Option.map_some, sameRule]
    · rfl
  bound := bindings ▸ fits.bound
  ordered := by
    rw [RuleGraph.InOrder, bindings]
    exact fits.ordered

theorem discard {gone : Uuid → Prop} [DecidablePred gone] (fits : ledger.Fits graph)
    (triggers : ∀ trigger,
      next.triggers.get? trigger = if gone trigger then none else graph.triggers.get? trigger)
    (bindings : next.bindings = graph.bindings.filter fun binding => ¬ gone binding.trigger) :
    (ledger.discard gone).Fits next where
  owner := by
    intro trigger
    simp only [triggers, Ledger.discard]
    split
    · rfl
    · exact fits.owner trigger
  bound := by
    intro trigger
    simp only [bindings, Ledger.discard, List.filter_filter]
    split
    · rename_i dropped
      have none : ∀ binding ∈ graph.bindings,
          ¬ (decide (binding.trigger = trigger) && decide (¬ gone binding.trigger)) = true := by
        intro binding _ both
        simp only [Bool.and_eq_true, decide_eq_true_eq] at both
        exact both.2 (both.1 ▸ dropped)
      rw [List.filter_eq_nil_iff.mpr none, List.map_nil]
    · rename_i kept
      rw [fits.bound]
      congr 1
      apply List.filter_congr
      intro binding _
      by_cases same : binding.trigger = trigger
      · simp [same, kept]
      · simp [same]
  ordered := by
    rw [RuleGraph.InOrder, bindings]
    exact fits.ordered.filter

theorem bind (fits : ledger.Fits graph) (intact : graph.Intact)
    (triggers : next.triggers = graph.triggers)
    (bindings : next.bindings =
      graph.bindings ++ [⟨trigger, action, graph.lastSequence + 1⟩]) :
    (ledger.setBound trigger (ledger.bound trigger ++ [action])).Fits next where
  owner := triggers ▸ fits.owner
  bound := by
    intro other
    simp only [bindings, setBound, Function.update_apply, List.filter_append, List.map_append]
    split
    · rename_i same
      simp [same, fits.bound]
    · rename_i different
      have foreign : ¬ trigger = other := fun same => different same.symm
      simp [foreign, fits.bound]
  ordered := by
    rw [RuleGraph.InOrder, bindings]
    exact fits.ordered.append intact

theorem unbind (fits : ledger.Fits graph) (intact : graph.Intact)
    (triggers : next.triggers = graph.triggers)
    (bindings : next.bindings = graph.bindings.filter fun binding =>
      ¬ (binding.trigger = trigger ∧ binding.action = action)) :
    (ledger.setBound trigger ((ledger.bound trigger).erase action)).Fits next where
  owner := triggers ▸ fits.owner
  bound := by
    intro other
    simp only [bindings, setBound, Function.update_apply, List.filter_filter]
    split
    · rename_i same
      rw [fits.bound, (intact.boundNodup trigger).erase_eq_filter, List.filter_map,
        List.filter_filter, same]
      congr 1
      apply List.filter_congr
      intro binding _
      by_cases ofTrigger : binding.trigger = trigger
      · by_cases ofAction : binding.action = action
        · simp [ofAction]
        · simp [ofAction]
      · simp [ofTrigger]
    · rename_i different
      rw [fits.bound]
      congr 1
      apply List.filter_congr
      intro binding _
      by_cases same : binding.trigger = other
      · simp [same, different]
      · simp [same]
  ordered := by
    rw [RuleGraph.InOrder, bindings]
    exact fits.ordered.filter

theorem enter {operation : Operation} (fits : ledger.Fits graph) (intact : graph.Intact)
    (fresh : operation.IsFresh graph) (done : operation.outcome graph = .ok next) :
    (ledger.enter operation).Fits next := by
  cases operation with
  | createRule check id now new =>
      obtain ⟨made, done⟩ := Operation.map_snd_eq_ok.mp done
      obtain ⟨_, _, rfl⟩ := Change.createRule_eq_ok.mp done
      exact fits.keep rfl rfl
  | updateRule check now id patch =>
      obtain ⟨made, done⟩ := Operation.map_snd_eq_ok.mp done
      obtain ⟨_, old, _, changed⟩ := Change.updateRule_eq_ok.mp done
      split at changed
      · exact changed.2 ▸ fits
      · obtain ⟨_, rfl⟩ := changed
        exact fits.keep rfl rfl
  | deleteRule id =>
      obtain ⟨made, done⟩ := Operation.map_snd_eq_ok.mp done
      obtain ⟨old, found, _, rfl⟩ := Change.deleteRule_eq_ok.mp done
      -- The triggers that the rule lists are those that the ledger has as its own.
      have own : ∀ trigger, ledger.owner trigger = some id ↔ trigger ∈ old.triggers := by
        intro trigger
        rw [fits.owner, Option.map_eq_some_iff, intact.listed]
        simp [found]
      apply fits.discard
      · intro trigger
        simp only [own]
        exact Table.get?_eraseAll old.triggers graph.triggers trigger
      · simp only [own]
        change graph.bindings.filter (fun binding => !old.triggers.contains binding.trigger) = _
        simp
  | createTrigger check id now new =>
      obtain ⟨made, done⟩ := Operation.map_snd_eq_ok.mp done
      obtain ⟨_, changed, owner, _, rfl⟩ := Change.createTrigger_eq_ok.mp done
      have sameRule : made.rule = new.rule := by rw [changed]
      rw [Ledger.enter, ← sameRule]
      exact fits.createTrigger intact fresh made rfl rfl
  | updateTrigger check now id patch =>
      obtain ⟨made, done⟩ := Operation.map_snd_eq_ok.mp done
      obtain ⟨_, old, found, _, changed, rfl⟩ := Change.updateTrigger_eq_ok.mp done
      have own : made.id = id := by
        rw [changed]
        exact intact.triggers.own id old found
      refine fits.updateTrigger found ?_ (by rw [own]) rfl
      rw [changed]
      rfl
  | deleteTrigger id =>
      obtain ⟨made, done⟩ := Operation.map_snd_eq_ok.mp done
      obtain ⟨old, _, rfl⟩ := Change.deleteTrigger_eq_ok.mp done
      exact fits.discard (fun trigger => Table.get?_erase graph.triggers id trigger) rfl
  | createAction check id now new =>
      obtain ⟨made, done⟩ := Operation.map_snd_eq_ok.mp done
      obtain ⟨_, _, rfl⟩ := Change.createAction_eq_ok.mp done
      exact fits.keep rfl rfl
  | updateAction check now id patch =>
      obtain ⟨made, done⟩ := Operation.map_snd_eq_ok.mp done
      obtain ⟨_, old, _, _, rfl⟩ := Change.updateAction_eq_ok.mp done
      exact fits.keep rfl rfl
  | deleteAction id =>
      obtain ⟨made, done⟩ := Operation.map_snd_eq_ok.mp done
      obtain ⟨_, _, rfl⟩ := Change.deleteAction_eq_ok.mp done
      exact fits.keep rfl rfl
  | bind trigger action =>
      obtain ⟨made, done⟩ := Operation.map_snd_eq_ok.mp done
      obtain ⟨_, _, _, rfl⟩ := Change.bind_eq_ok.mp done
      exact fits.bind intact rfl rfl
  | unbind trigger action =>
      obtain ⟨made, done⟩ := Operation.map_snd_eq_ok.mp done
      obtain ⟨_, rfl⟩ := Change.unbind_eq_ok.mp done
      exact fits.unbind intact rfl rfl
  | addRuleAction now rule action =>
      obtain ⟨made, done⟩ := Operation.map_snd_eq_ok.mp done
      obtain ⟨_, old, _, _, _, rfl⟩ := Change.addRuleAction_eq_ok.mp done
      exact fits.keep rfl rfl
  | removeRuleAction now rule action =>
      obtain ⟨made, done⟩ := Operation.map_snd_eq_ok.mp done
      obtain ⟨old, _, _, _, rfl⟩ := Change.removeRuleAction_eq_ok.mp done
      exact fits.keep rfl rfl

end Fits

variable {operations : List Operation} {graph : RuleGraph}

theorem follow_history (history : History operations graph) :
    (operations.foldl step ({}, {})).1 = graph ∧ (ofOperations operations).Fits graph := by
  induction history with
  | start => exact ⟨rfl, .start⟩
  | @next operations graph operation history fresh ih =>
      obtain ⟨same, fits⟩ := ih
      have intact := RuleGraph.Intact.ofHistory history
      rw [ofOperations] at fits ⊢
      rw [List.foldl_append, List.foldl_cons, List.foldl_nil, step, Operation.apply, same]
      cases done : operation.outcome graph with
      | ok next => exact ⟨rfl, fits.enter intact fresh done⟩
      | error _ => exact ⟨same, fits⟩

end Ledger

theorem RuleGraph.Intact.actionsFor_forall {graph : RuleGraph} {id : Uuid} {trigger : Trigger}
    (intact : graph.Intact) (found : graph.triggers.get? id = some trigger) :
    ∃ owner, graph.rules.get? trigger.rule = some owner ∧
      List.Forall₂ (fun action held => graph.actions.get? action = some held)
        (if graph.boundActions id = [] then owner.actions else graph.boundActions id)
        (graph.actionsFor trigger) := by
  obtain ⟨owner, ownerFound, ids⟩ := intact.actionsFor found
  refine ⟨owner, ownerFound, ?_⟩
  rw [← ids, List.forall₂_map_left_iff, List.forall₂_same]
  intro action listed
  rw [RuleGraph.actionsFor, List.mem_filterMap] at listed
  obtain ⟨key, _, held⟩ := listed
  rw [intact.actions.own key action held]
  exact held

/-- Whatever operations led to a graph, what it takes to be bound to a trigger is the list of what
was bound to it and neither unbound nor discarded since, in the order of binding, and so is what a
search by keys finds. A trigger runs the actions of its list, or those of its rule if it is empty. -/
theorem bindings_kept_in_order {operations : List Operation} {graph : RuleGraph}
    (history : History operations graph) :
    let ledger := Ledger.ofOperations operations
    (∀ id, graph.boundActions id = ledger.bound id) ∧
      (∀ id keyed, keyed.Perm graph.bindings →
        keyed.Pairwise (fun left right => Binding.compareKeys left.key right.key ≠ .gt) →
        ((Binding.scan id keyed).mergeSort fun left right =>
          left.sequence ≤ right.sequence).map (·.action) = ledger.bound id) ∧
      ∀ id trigger, graph.triggers.get? id = some trigger →
        ∃ owner, graph.rules.get? trigger.rule = some owner ∧
          List.Forall₂ (fun action held => graph.actions.get? action = some held)
            (if ledger.bound id = [] then owner.actions else ledger.bound id)
            (graph.actionsFor trigger) := by
  intro ledger
  have fits : ledger.Fits graph := (Ledger.follow_history history).2
  have bound : ∀ id, graph.boundActions id = ledger.bound id := by
    intro id
    rw [fits.ordered.boundActions, fits.bound]
  refine ⟨bound, ?_, ?_⟩
  · intro id keyed perm sorted
    rw [fits.ordered.scan perm sorted, bound]
  · intro id trigger found
    have run := (RuleGraph.Intact.ofHistory history).actionsFor_forall found
    rwa [bound] at run

/-- Two triggers of one rule with the same actions, of which the first one is bound anew. -/
def reboundOperations : List Operation :=
  let check : ScriptCheck := fun _ => .ok ()
  let now : Instant := ⟨0, 0⟩
  [.createRule check ⟨1⟩ now ⟨"hot", "true", 0, true⟩,
    .createTrigger check ⟨9⟩ now ⟨⟨1⟩, .unconditional, none, true⟩,
    .createTrigger check ⟨2⟩ now ⟨⟨1⟩, .unconditional, none, true⟩,
    .createAction check ⟨4⟩ now ⟨none, "1", true⟩,
    .createAction check ⟨3⟩ now ⟨none, "2", true⟩,
    .bind ⟨9⟩ ⟨3⟩,
    .bind ⟨2⟩ ⟨3⟩,
    .bind ⟨9⟩ ⟨4⟩,
    .bind ⟨9⟩ ⟨4⟩,
    .unbind ⟨9⟩ ⟨3⟩,
    .bind ⟨9⟩ ⟨3⟩]

theorem reboundOperations_kept :
    let graph := Operation.run reboundOperations {}
    let trigger : Trigger := ⟨⟨9⟩, ⟨1⟩, .unconditional, none, true, ⟨0, 0⟩, ⟨0, 0⟩⟩
    History reboundOperations graph ∧ graph.boundActions ⟨9⟩ = [⟨4⟩, ⟨3⟩] ∧
      List.Forall₂ (fun action held => graph.actions.get? action = some held) [⟨4⟩, ⟨3⟩]
        (graph.actionsFor trigger) := by
  intro graph trigger
  have history : History reboundOperations graph := History.ofFresh (by decide)
  have bound : (Ledger.ofOperations reboundOperations).bound ⟨9⟩ = [⟨4⟩, ⟨3⟩] := by decide
  obtain ⟨same, _, runs⟩ := bindings_kept_in_order history
  obtain ⟨_, _, held⟩ := runs ⟨9⟩ trigger (by decide)
  rw [bound] at held
  exact ⟨history, (same ⟨9⟩).trans bound, held⟩

end Rulebook

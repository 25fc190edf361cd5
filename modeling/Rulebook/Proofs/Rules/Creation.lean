import Rulebook.Proofs.Rules.Order

/-!
Rules of one priority come in the order in which they were made. That order is kept here by the
operations alone, as a roster of the rules that are left, and the numbers that the rules have are
shown to stand for it.
-/

namespace Rulebook

/-! The roster -/

namespace Operation

/-- Enters an operation that went through in the roster of rules. -/
def enroll (roster : List Uuid) : Operation → List Uuid
  | .createRule _ id _ _ => roster ++ [id]
  | .deleteRule id => roster.erase id
  | .updateRule .. | .createTrigger .. | .updateTrigger .. | .deleteTrigger _ | .createAction ..
  | .updateAction .. | .deleteAction _ | .bind .. | .unbind .. | .addRuleAction ..
  | .removeRuleAction .. => roster

/-- The rules that operations made and did not delete, in the order in which they were made. -/
def roster (operations : List Operation) : List Uuid :=
  (succeeding operations {}).foldl enroll []

theorem roster_append (operations : List Operation) (operation : Operation) :
    roster (operations ++ [operation]) =
      match operation.outcome (run operations {}) with
      | .ok _ => enroll (roster operations) operation
      | .error _ => roster operations := by
  rw [roster, succeeding_append, List.foldl_append, succeeding]
  cases operation.outcome (run operations {}) <;> rfl

end Operation

namespace RuleGraph

variable {graph next : RuleGraph} {id : Uuid}

/-- The rules with their numbers, in the order in which they stand. -/
def numberedRules (graph : RuleGraph) : List (Uuid × Nat) :=
  graph.rules.outline (·.sequence)

theorem Intact.numberedRules_replace {old : Rule} (intact : graph.Intact) (new : Rule)
    (found : graph.rules.get? id = some old) (own : new.id = old.id)
    (sequence : new.sequence = old.sequence) :
    (graph.rules.put new.id new).outline (·.sequence) = graph.numberedRules := by
  rw [own, intact.rules.own id old found]
  exact Table.outline_put _ intact.rules.nodup found sequence

/-- The rules with their numbers after an operation that goes through. A rule gets the next number
and comes last when it is made, and keeps its number and its place until it is deleted. -/
def numberedRulesAfter (graph : RuleGraph) : Operation → List (Uuid × Nat)
  | .createRule _ id _ _ => graph.numberedRules ++ [(id, graph.lastSequence + 1)]
  | .deleteRule id => graph.numberedRules.filter (·.1 ≠ id)
  | .updateRule .. | .createTrigger .. | .updateTrigger .. | .deleteTrigger _ | .createAction ..
  | .updateAction .. | .deleteAction _ | .bind .. | .unbind .. | .addRuleAction ..
  | .removeRuleAction .. => graph.numberedRules

theorem Intact.numberedRules_outcome {operation : Operation} (intact : graph.Intact)
    (fresh : operation.IsFresh graph) (done : operation.outcome graph = .ok next) :
    next.numberedRules = graph.numberedRulesAfter operation := by
  cases operation with
  | createRule check id now new =>
      obtain ⟨made, done⟩ := Operation.map_snd_eq_ok.mp done
      obtain ⟨_, rfl, rfl⟩ := Change.createRule_eq_ok.mp done
      exact Table.outline_put_of_absent _ fresh.1
  | updateRule check now id patch =>
      obtain ⟨made, done⟩ := Operation.map_snd_eq_ok.mp done
      obtain ⟨_, old, found, changed⟩ := Change.updateRule_eq_ok.mp done
      split at changed
      · exact changed.2 ▸ rfl
      · obtain ⟨rfl, rfl⟩ := changed
        exact intact.numberedRules_replace _ found rfl rfl
  | deleteRule id =>
      obtain ⟨made, done⟩ := Operation.map_snd_eq_ok.mp done
      obtain ⟨old, _, _, rfl⟩ := Change.deleteRule_eq_ok.mp done
      exact Table.outline_erase _
  | createTrigger check id now new =>
      obtain ⟨made, done⟩ := Operation.map_snd_eq_ok.mp done
      obtain ⟨_, _, owner, found, rfl⟩ := Change.createTrigger_eq_ok.mp done
      exact intact.numberedRules_replace { owner with triggers := owner.triggers ++ [id] } found rfl
        rfl
  | updateTrigger check now id patch =>
      obtain ⟨made, done⟩ := Operation.map_snd_eq_ok.mp done
      obtain ⟨_, old, _, _, _, rfl⟩ := Change.updateTrigger_eq_ok.mp done
      rfl
  | deleteTrigger id =>
      obtain ⟨made, done⟩ := Operation.map_snd_eq_ok.mp done
      obtain ⟨old, _, rfl⟩ := Change.deleteTrigger_eq_ok.mp done
      exact Table.outline_modify _ _ fun _ => rfl
  | createAction check id now new =>
      obtain ⟨made, done⟩ := Operation.map_snd_eq_ok.mp done
      obtain ⟨_, _, rfl⟩ := Change.createAction_eq_ok.mp done
      rfl
  | updateAction check now id patch =>
      obtain ⟨made, done⟩ := Operation.map_snd_eq_ok.mp done
      obtain ⟨_, old, _, _, rfl⟩ := Change.updateAction_eq_ok.mp done
      rfl
  | deleteAction id =>
      obtain ⟨made, done⟩ := Operation.map_snd_eq_ok.mp done
      obtain ⟨_, _, rfl⟩ := Change.deleteAction_eq_ok.mp done
      rfl
  | bind trigger action =>
      obtain ⟨made, done⟩ := Operation.map_snd_eq_ok.mp done
      obtain ⟨_, _, _, rfl⟩ := Change.bind_eq_ok.mp done
      rfl
  | unbind trigger action =>
      obtain ⟨made, done⟩ := Operation.map_snd_eq_ok.mp done
      obtain ⟨_, rfl⟩ := Change.unbind_eq_ok.mp done
      rfl
  | addRuleAction now rule action =>
      obtain ⟨made, done⟩ := Operation.map_snd_eq_ok.mp done
      obtain ⟨_, old, found, _, rfl, rfl⟩ := Change.addRuleAction_eq_ok.mp done
      exact intact.numberedRules_replace _ found rfl rfl
  | removeRuleAction now rule action =>
      obtain ⟨made, done⟩ := Operation.map_snd_eq_ok.mp done
      obtain ⟨old, found, _, rfl, rfl⟩ := Change.removeRuleAction_eq_ok.mp done
      exact intact.numberedRules_replace _ found rfl rfl

/-- The rules stand as the roster has them, and their numbers grow. -/
structure Follows (graph : RuleGraph) (roster : List Uuid) : Prop where
  listed : graph.rules.keys = roster
  growing : graph.numberedRules.Pairwise fun left right => left.2 < right.2

theorem Follows.start : Follows {} [] :=
  ⟨rfl, List.Pairwise.nil⟩

theorem Intact.number_le {entry : Uuid × Nat} (intact : graph.Intact)
    (held : entry ∈ graph.numberedRules) : entry.2 ≤ graph.lastSequence := by
  have number : entry.2 ∈ graph.rules.values.map (·.sequence) := by
    rw [← Table.outline_values]
    exact List.mem_map_of_mem held
  exact intact.numbered.bounded _ (List.mem_append_left _ number)

/-- Followed by a roster, an operation that goes through is followed by its entry. -/
theorem Follows.enroll {operation : Operation} {roster : List Uuid} (follows : graph.Follows roster)
    (intact : graph.Intact) (fresh : operation.IsFresh graph)
    (done : operation.outcome graph = .ok next) : next.Follows (operation.enroll roster) := by
  have numbers := intact.numberedRules_outcome fresh done
  have keys : next.rules.keys = next.numberedRules.map (·.1) := (Table.outline_keys _ _).symm
  have before : graph.numberedRules.map (·.1) = roster :=
    (Table.outline_keys _ _).trans follows.listed
  constructor
  · rw [keys, numbers]
    cases operation with
    | createRule check id now new =>
        rw [numberedRulesAfter, List.map_append, before]
        rfl
    | deleteRule id =>
        have nodup : roster.Nodup := follows.listed ▸ intact.rules.nodup
        rw [Operation.enroll, nodup.erase_eq_filter, ← before, List.filter_map]
        simp [numberedRulesAfter, Function.comp_def, bne, beq_eq_decide]
    | _ => exact before
  · rw [numbers]
    cases operation with
    | createRule check id now new =>
        refine List.pairwise_append.mpr ⟨follows.growing, List.pairwise_singleton _ _, ?_⟩
        intro entry held last single
        rw [List.mem_singleton.mp single]
        exact Nat.lt_succ_of_le (intact.number_le held)
    | deleteRule id => exact follows.growing.sublist List.filter_sublist
    | _ => exact follows.growing

theorem Follows.ofHistory {operations : List Operation} (history : History operations graph) :
    graph.Follows (Operation.roster operations) := by
  induction history with
  | start => exact .start
  | @next operations graph operation history fresh ih =>
      rw [Operation.roster_append, history.run_eq, Operation.apply]
      cases done : operation.outcome graph with
      | ok next => exact ih.enroll (.ofHistory history) fresh done
      | error _ => exact ih

variable {roster : List Uuid}

theorem Follows.rules_eq (follows : graph.Follows roster) (intact : graph.Intact) :
    (roster.filterMap fun id => graph.rules.get? id) = graph.rules.values := by
  rw [← follows.listed]
  exact Table.filterMap_get?_keys intact.rules.nodup

theorem Follows.sequences_growing (follows : graph.Follows roster) :
    graph.rules.values.Pairwise fun left right => left.sequence < right.sequence := by
  have numbers := follows.growing
  rwa [numberedRules, ← List.pairwise_map (f := Prod.snd), Table.outline_values,
    List.pairwise_map] at numbers

end RuleGraph

/-! Sorting by priority -/

/-- Rules of higher priority come first; other than that, the order stays as it is. -/
def Rule.byPriority (rules : List Rule) : List Rule :=
  rules.mergeSort fun left right => right.priority ≤ left.priority

/-- Where numbers grow, it takes no numbers to sort rules. -/
theorem Rule.byPriority_precede {rules : List Rule}
    (growing : rules.Pairwise fun left right => left.sequence < right.sequence) :
    (Rule.byPriority rules).Pairwise Rule.Precedes := by
  have trans : ∀ first second third : Rule, decide (second.priority ≤ first.priority) = true →
      decide (third.priority ≤ second.priority) = true →
        decide (third.priority ≤ first.priority) = true := by
    intro first second third
    simp only [decide_eq_true_eq]
    omega
  have total : ∀ first second : Rule, (decide (second.priority ≤ first.priority) ||
      decide (first.priority ≤ second.priority)) = true := by
    intro first second
    simp only [Bool.or_eq_true, decide_eq_true_eq]
    omega
  induction rules with
  | nil => simp [byPriority]
  | cons rule rest ih =>
      obtain ⟨least, restGrowing⟩ := List.pairwise_cons.mp growing
      -- The first rule lands behind all those of higher priority, and before all others.
      obtain ⟨higher, others, sorted, restSorted, above⟩ :=
        List.mergeSort_cons trans total rule rest
      have weak := List.pairwise_mergeSort trans total (rule :: rest)
      have inRest : ∀ other ∈ others, other ∈ rest := by
        intro other held
        rw [← List.mem_mergeSort, restSorted]
        exact List.mem_append_right _ held
      have ordered := ih restGrowing
      rw [byPriority, restSorted, List.pairwise_append] at ordered
      obtain ⟨first, second, across⟩ := ordered
      rw [sorted, List.pairwise_append, List.pairwise_cons] at weak
      rw [byPriority, sorted, List.pairwise_append, List.pairwise_cons]
      refine ⟨first, ⟨fun other held => ?_, second⟩, fun left leftHeld right rightHeld => ?_⟩
      · have lower := weak.2.1.1 other held
        have later := least other (inRest other held)
        rw [decide_eq_true_eq] at lower
        unfold Precedes
        omega
      · rcases List.mem_cons.mp rightHeld with rfl | rightHeld
        · have greater := above left leftHeld
          simp only [Bool.not_eq_true', decide_eq_false_iff_not] at greater
          exact .inl (Int.lt_of_not_ge greater)
        · exact across left leftHeld right rightHeld

/-- Rules whose numbers grow need no numbers to be sorted, in whatever order they are gone
through. -/
theorem Rule.mergeSort_eq_byPriority {rules visited : List Rule} (perm : visited.Perm rules)
    (growing : rules.Pairwise fun left right => left.sequence < right.sequence) :
    visited.mergeSort Rule.isBefore = Rule.byPriority rules :=
  mergeSort_eq_of_strict isBefore_trans isBefore_total
    ((byPriority_precede growing).imp isBefore_eq_false.mpr)
    (perm.trans (List.mergeSort_perm _ _).symm)

/-- Whatever operations led to a graph, its rules are those of the roster, and their order is that
of the roster, sorted by priority. In which order the rules are gone through before they are sorted
makes no difference. -/
theorem rules_in_order_of_creation {operations : List Operation} {graph : RuleGraph}
    (history : History operations graph) :
    let survivors := (Operation.roster operations).filterMap fun id => graph.rules.get? id
    survivors.map (·.id) = Operation.roster operations ∧
      (∀ id rule, graph.rules.get? id = some rule → rule ∈ survivors) ∧
      ∀ enabledOnly,
        let chosen (rules : List Rule) := rules.filter fun rule => !enabledOnly || rule.enabled
        graph.rulesInOrder enabledOnly = Rule.byPriority (chosen survivors) ∧
          (∀ visited, visited.Perm graph.rules.values →
            (chosen visited).mergeSort Rule.isBefore = Rule.byPriority (chosen survivors)) ∧
          ((graph.rulesInOrder enabledOnly).map (·.id)).Nodup ∧
          ∀ rule, rule ∈ graph.rulesInOrder enabledOnly ↔
            graph.rules.get? rule.id = some rule ∧ (enabledOnly = true → rule.enabled = true) := by
  intro survivors
  have intact := RuleGraph.Intact.ofHistory history
  have follows := RuleGraph.Follows.ofHistory history
  have all : survivors = graph.rules.values := follows.rules_eq intact
  have names : survivors.map (·.id) = Operation.roster operations := by
    rw [all, intact.rules.map_values, follows.listed]
  refine ⟨names, ?_, fun enabledOnly => ?_⟩
  · intro id rule found
    rw [all]
    exact (Table.mem_values_iff intact.rules.nodup).mpr ⟨id, found⟩
  intro chosen
  have sorted (visited : List Rule) (perm : visited.Perm graph.rules.values) :
      (chosen visited).mergeSort Rule.isBefore = Rule.byPriority (chosen survivors) := by
    rw [all]
    exact Rule.mergeSort_eq_byPriority (perm.filter _)
      (follows.sequences_growing.sublist List.filter_sublist)
  refine ⟨sorted _ (List.Perm.refl _), sorted, ?_, fun rule => ?_⟩
  · have distinct : (graph.rules.values.map (·.id)).Nodup :=
      intact.rules.map_values ▸ intact.rules.nodup
    rw [RuleGraph.rulesInOrder, ((List.mergeSort_perm _ _).map _).nodup_iff]
    exact distinct.sublist (List.filter_sublist.map _)
  · rw [RuleGraph.mem_rulesInOrder, intact.rules.mem_values_iff]

/-- Rules of which one is refused, one is deleted and made anew, and two get other priorities. -/
def reorderedOperations : List Operation :=
  let check : ScriptCheck := fun _ => .ok ()
  let now : Instant := ⟨0, 0⟩
  [.createRule check ⟨9⟩ now ⟨"first", "true", 0, true⟩,
    .createRule check ⟨4⟩ now ⟨"second", "true", 5, true⟩,
    .createRule check ⟨7⟩ now ⟨" ", "true", 9, true⟩,
    .createRule check ⟨6⟩ now ⟨"third", "true", 0, false⟩,
    .createTrigger check ⟨2⟩ now ⟨⟨9⟩, .unconditional, none, true⟩,
    .createRule check ⟨1⟩ now ⟨"fourth", "true", 0, true⟩,
    .deleteRule ⟨9⟩,
    .createRule check ⟨9⟩ now ⟨"first again", "true", 0, true⟩,
    .updateRule check now ⟨4⟩ ⟨none, none, some 0, none⟩,
    .updateRule check now ⟨9⟩ ⟨none, none, some 3, none⟩]

theorem reorderedOperations_sorted :
    let graph := Operation.run reorderedOperations {}
    History reorderedOperations graph ∧
      Operation.roster reorderedOperations = [⟨4⟩, ⟨6⟩, ⟨1⟩, ⟨9⟩] ∧
      (graph.rulesInOrder true).map (·.id) = [⟨9⟩, ⟨4⟩, ⟨1⟩] := by
  intro graph
  have history : History reorderedOperations graph := History.ofFresh (by decide +kernel)
  have roster : Operation.roster reorderedOperations = [⟨4⟩, ⟨6⟩, ⟨1⟩, ⟨9⟩] := by decide +kernel
  have rules : ([⟨4⟩, ⟨6⟩, ⟨1⟩, ⟨9⟩] : List Uuid).filterMap (fun id => graph.rules.get? id) =
      [⟨⟨4⟩, "second", "true", 0, true, [], [], ⟨0, 0⟩, ⟨0, 0⟩, 2⟩,
        ⟨⟨6⟩, "third", "true", 0, false, [], [], ⟨0, 0⟩, ⟨0, 0⟩, 3⟩,
        ⟨⟨1⟩, "fourth", "true", 0, true, [], [], ⟨0, 0⟩, ⟨0, 0⟩, 4⟩,
        ⟨⟨9⟩, "first again", "true", 3, true, [], [], ⟨0, 0⟩, ⟨0, 0⟩, 5⟩] := by decide +kernel
  obtain ⟨_, _, sorted⟩ := rules_in_order_of_creation history
  refine ⟨history, roster, ?_⟩
  rw [(sorted true).1, roster, rules]
  simp [Rule.byPriority, List.mergeSort]

end Rulebook

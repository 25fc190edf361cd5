import Rulebook.Proofs.Rules.Integrity
import Rulebook.Proofs.Sorting

/-!
The order in which rules are evaluated. Since no two rules have one sequence number, there is only
one.
-/

namespace Rulebook

/-- Rules of higher priority come first, and of one priority those that were made earlier. -/
def Rule.Precedes (left right : Rule) : Prop :=
  right.priority < left.priority ∨
    (left.priority = right.priority ∧ left.sequence < right.sequence)

theorem Rule.isBefore_iff {left right : Rule} :
    left.isBefore right = true ↔ right.priority < left.priority ∨
      (left.priority = right.priority ∧ left.sequence ≤ right.sequence) := by
  simp [isBefore]

theorem Rule.isBefore_trans (left middle right : Rule) (first : left.isBefore middle = true)
    (second : middle.isBefore right = true) : left.isBefore right = true := by
  rw [isBefore_iff] at *
  omega

theorem Rule.isBefore_total (left right : Rule) :
    (left.isBefore right || right.isBefore left) = true := by
  rw [Bool.or_eq_true, isBefore_iff, isBefore_iff]
  omega

theorem Rule.isBefore_eq_false {left right : Rule} :
    right.isBefore left = false ↔ left.Precedes right := by
  rw [← Bool.not_eq_true, isBefore_iff, Precedes]
  omega

theorem Rule.mergeSort_precede {rules : List Rule} (numbers : (rules.map (·.sequence)).Nodup) :
    (rules.mergeSort Rule.isBefore).Pairwise Rule.Precedes := by
  refine (mergeSort_strict isBefore_trans isBefore_total ?_).imp isBefore_eq_false.mp
  refine (List.pairwise_map.mp numbers).imp fun unequal => ?_
  rw [isBefore_eq_false, isBefore_eq_false, Precedes, Precedes]
  omega

namespace RuleGraph

variable {graph : RuleGraph} {enabledOnly : Bool}

theorem mem_rulesInOrder {rule : Rule} :
    rule ∈ graph.rulesInOrder enabledOnly ↔
      rule ∈ graph.rules.values ∧ (enabledOnly = true → rule.enabled = true) := by
  cases enabledOnly <;> simp [rulesInOrder]

theorem Intact.sequences_nodup (intact : graph.Intact) :
    (graph.rules.values.map (·.sequence)).Nodup :=
  intact.numbered.nodup.sublist (List.sublist_append_left _ _)

theorem Intact.rulesInOrder_precede (intact : graph.Intact) :
    (graph.rulesInOrder enabledOnly).Pairwise Rule.Precedes :=
  Rule.mergeSort_precede (intact.sequences_nodup.sublist (List.filter_sublist.map _))

/-- The enabled rules come in a pass as they do among all rules. -/
theorem Intact.rulesInOrder_true (intact : graph.Intact) :
    graph.rulesInOrder true = (graph.rulesInOrder false).filter (·.enabled) := by
  refine mergeSort_eq_of_strict Rule.isBefore_trans Rule.isBefore_total ?_ ?_
  · exact (intact.rulesInOrder_precede.sublist List.filter_sublist).imp
      Rule.isBefore_eq_false.mpr
  · have all : graph.rules.values.Perm (graph.rulesInOrder false) := by
      simpa [rulesInOrder] using (List.mergeSort_perm graph.rules.values Rule.isBefore).symm
    simpa using all.filter (·.enabled)

theorem Intact.rulesInOrder_ids_nodup (intact : graph.Intact) (enabledOnly : Bool) :
    ((graph.rulesInOrder enabledOnly).map (·.id)).Nodup := by
  have distinct : (graph.rules.values.map (·.id)).Nodup :=
    intact.rules.map_values ▸ intact.rules.nodup
  rw [rulesInOrder, ((List.mergeSort_perm _ _).map _).nodup_iff]
  exact distinct.sublist (List.filter_sublist.map _)

end RuleGraph

end Rulebook

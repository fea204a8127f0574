import Mathlib

namespace FinanceCore.Sorting

variable {α κ : Type} [LinearOrder κ] {key : α → κ}

/-- The stable sort by a key. -/
def sortOn (key : α → κ) (values : List α) : List α := values.insertionSort fun first second => key first ≤ key second

theorem perm_sortOn (key : α → κ) (values : List α) : (sortOn key values).Perm values := List.perm_insertionSort _ _

theorem mem_sortOn {values : List α} {value : α} : value ∈ sortOn key values ↔ value ∈ values :=
  (perm_sortOn key values).mem_iff

theorem pairwise_sortOn (key : α → κ) (values : List α) :
    (sortOn key values).Pairwise fun first second => key first ≤ key second := by
  exact List.pairwise_insertionSort _ _

/-- Values with distinct keys are sorted alike from every order. -/
theorem sortOn_eq_of_perm {values others : List α} (perm : values.Perm others)
    (distinct : (values.map key).Nodup) : sortOn key values = sortOn key others := by
  refine List.Perm.eq_of_pairwise ?_ (pairwise_sortOn key values) (pairwise_sortOn key others) ?_
  · intro first second inside insideToo before after
    apply List.inj_on_of_nodup_map distinct
    · exact mem_sortOn.mp inside
    · exact perm.mem_iff.mpr (mem_sortOn.mp insideToo)
    · exact le_antisymm before after
  · exact (perm_sortOn key values).trans (perm.trans (perm_sortOn key others).symm)

end FinanceCore.Sorting

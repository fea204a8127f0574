import FinanceCore.Foundation.Sorting

namespace FinanceCore.NumberedRows

open Sorting List

variable {α : Type} {number : α → ℕ} {rows : List α}

/-- The rows carry the numbers from one on, in their order. -/
def Numbered (number : α → ℕ) (rows : List α) : Prop := rows.map number = List.range' 1 rows.length

theorem numbered_nil (number : α → ℕ) : Numbered number [] := rfl

namespace Numbered

section

variable (numbered : Numbered number rows)
include numbered

theorem concat {row : α} (next : number row = rows.length + 1) : Numbered number (rows ++ [row]) := by
  rw [Numbered, map_append, length_append, numbered, map_singleton, next, length_singleton, List.range'_1_concat]
  simp [Nat.add_comm]

theorem bounds {row : α} (member : row ∈ rows) : 1 ≤ number row ∧ number row ≤ rows.length := by
  have inside : number row ∈ rows.map number := mem_map_of_mem member
  rw [numbered, mem_range'_1] at inside
  omega

theorem exists_row {index : ℕ} (positive : 1 ≤ index) (within : index ≤ rows.length) :
    ∃ row ∈ rows, number row = index := by
  have inside : index ∈ rows.map number := by
    rw [numbered, mem_range'_1]
    omega
  exact mem_map.mp inside

theorem nodup : (rows.map number).Nodup := by
  rw [numbered]
  exact nodup_range'

theorem injective {first second : α} (member : first ∈ rows) (other : second ∈ rows)
    (same : number first = number second) : first = second :=
  inj_on_of_nodup_map numbered.nodup member other same

/-- The row with the greatest number is the last one. -/
theorem newest : ((rows.argmax number).map number).getD 0 = rows.length := by
  cases latest : rows.argmax number with
  | none =>
    rw [argmax_eq_none] at latest
    rw [latest]
    rfl
  | some row =>
    have bounded := numbered.bounds (argmax_mem latest)
    obtain ⟨last, member, number⟩ := numbered.exists_row (bounded.1.trans bounded.2) le_rfl
    have greatest := le_of_mem_argmax member latest
    simp only [Option.map_some, Option.getD_some]
    omega

/-- Sorting by the numbers changes nothing. -/
theorem sortOn_eq : sortOn number rows = rows := by
  apply Pairwise.insertionSort_eq
  have ordered : (rows.map number).Pairwise (· ≤ ·) := by
    rw [numbered]
    exact (pairwise_lt_range' 1).imp Nat.le_of_lt
  exact pairwise_map.mp ordered

end

end Numbered

end FinanceCore.NumberedRows

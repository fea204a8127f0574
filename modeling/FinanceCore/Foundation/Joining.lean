import Mathlib

namespace FinanceCore.Joining

open List

/-- The texts between the separators of all parts, in their order. -/
def pieces (separator : Char) (parts : List String) : List (List Char) :=
  parts.flatMap fun part => part.toList.splitOn separator

def join (separator : Char) (parts : List String) : String := (String.singleton separator).intercalate parts

/-- Splitting a joined text gives the pieces of its parts, also when a part holds the separator. -/
theorem splitOn_join (separator : Char) {parts : List String} (nonempty : parts ≠ []) :
    (join separator parts).toList.splitOn separator = pieces separator parts := by
  rw [join, String.toList_intercalate, String.toList_singleton]
  induction parts with
  | nil => exact absurd rfl nonempty
  | cons part rest ih =>
    cases rest with
    | nil => simp [pieces]
    | cons next rest =>
      rw [pieces, flatMap_cons, ← pieces, ← ih (cons_ne_nil next rest), map_cons, map_cons,
        intercalate_cons_cons, append_assoc, singleton_append]
      exact splitOnP_append_cons _ _ (beq_self_eq_true separator)

/-- Joined texts agree exactly when their parts have the same pieces. -/
theorem join_eq_iff {separator : Char} {first second : List String} (nonempty : first ≠ [])
    (other : second ≠ []) :
    join separator first = join separator second ↔ pieces separator first = pieces separator second := by
  rw [← splitOn_join separator nonempty, ← splitOn_join separator other]
  constructor
  · intro same
    rw [same]
  · intro same
    have texts := congrArg (intercalate [separator]) same
    rwa [intercalate_splitOn, intercalate_splitOn, String.toList_inj] at texts

theorem pieces_of_plain {separator : Char} {parts : List String}
    (plain : ∀ part ∈ parts, separator ∉ part.toList) :
    pieces separator parts = parts.map String.toList := by
  induction parts with
  | nil => rfl
  | cons part rest ih =>
    rw [forall_mem_cons] at plain
    rw [pieces, flatMap_cons, splitOn_eq_singleton plain.1, ← pieces, ih plain.2]
    rfl

/-- Joined texts are read back from their ends, when only the first part may hold the separator. -/
theorem join_cons_inj {separator : Char} {first second : String} {rest others : List String}
    (plain : ∀ part ∈ rest ++ others, separator ∉ part.toList)
    (lengths : rest.length = others.length)
    (same : join separator (first :: rest) = join separator (second :: others)) : first = second ∧
      rest = others := by
  rw [forall_mem_append] at plain
  rw [join_eq_iff (cons_ne_nil _ _) (cons_ne_nil _ _), pieces, pieces, flatMap_cons, flatMap_cons, ← pieces, ← pieces,
    pieces_of_plain plain.1, pieces_of_plain plain.2] at same
  have parts := append_inj' same (by simpa using lengths)
  have heads := congrArg (intercalate [separator]) parts.1
  rw [intercalate_splitOn, intercalate_splitOn, String.toList_inj] at heads
  exact ⟨heads, map_injective_iff.mpr (fun _ _ => String.toList_inj.mp) parts.2⟩

end FinanceCore.Joining

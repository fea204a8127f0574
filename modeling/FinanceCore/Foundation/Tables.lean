import Mathlib

namespace FinanceCore.Tables

open List

variable {α β κ ν : Type} {rows : List α}

variable {row : α}

/-- A query that only one row answers finds that row. -/
theorem find?_eq_of_unique {asked : α → Bool} (member : row ∈ rows) (answers : asked row = true)
    (unique : ∀ other ∈ rows, asked other = true → other = row) : rows.find? asked = some row := by
  cases found : rows.find? asked with
  | none =>
    rw [List.find?_eq_none] at found
    exact absurd answers (found row member)
  | some other =>
    rw [unique other (mem_of_find?_eq_some found) (List.find?_some found)]

/-- A query by key finds a row with the key. -/
theorem find?_key [DecidableEq κ] {key : α → κ} {identity : κ}
    (found : rows.find? (fun other => key other = identity) = some row) : row ∈ rows ∧ key row = identity :=
  ⟨mem_of_find?_eq_some found, of_decide_eq_true (List.find?_some found :)⟩

/-- No two rows of a table have one key. -/
def Keyed (key : α → κ) (rows : List α) : Prop := (rows.map key).Nodup

theorem keyed_nil (key : α → κ) : Keyed key [] := nodup_nil

namespace Keyed

variable {key : α → κ} (keyed : Keyed key rows)
include keyed

theorem concat (fresh : ∀ other ∈ rows, key other ≠ key row) : Keyed key (rows ++ [row]) := by
  rw [Keyed, map_append, map_singleton, nodup_append]
  refine ⟨keyed, nodup_singleton _, ?_⟩
  intro found member other single
  rw [mem_map] at member
  obtain ⟨earlier, inside, rfl⟩ := member
  rw [mem_singleton] at single
  rw [single]
  exact fresh earlier inside

theorem injective {first second : α} (member : first ∈ rows) (other : second ∈ rows)
    (same : key first = key second) : first = second := inj_on_of_nodup_map keyed member other same

theorem filter (kept : α → Bool) : Keyed key (rows.filter kept) :=
  List.Nodup.sublist (filter_sublist.map key) keyed

/-- A query by its key finds a row. -/
theorem find?_eq [DecidableEq κ] (member : row ∈ rows) :
    rows.find? (fun other => key other = key row) = some row := by
  apply find?_eq_of_unique member (by simp)
  intro other inside same
  exact keyed.injective inside member (of_decide_eq_true same)

/-- The rows with the key of a row are that row. -/
theorem filter_eq [DecidableEq κ] (member : row ∈ rows) : rows.filter (fun other => key other = key row) = [row] := by
  have distinct : rows.Nodup := List.Nodup.of_map key keyed
  refine perm_singleton.mp ((perm_ext_iff_of_nodup (distinct.filter _) (nodup_singleton row)).mpr fun other => ?_)
  rw [mem_filter, mem_singleton, decide_eq_true_iff]
  constructor
  · intro held
    exact keyed.injective held.1 member held.2
  · rintro rfl
    exact ⟨member, rfl⟩

end Keyed

/-- A journal and a table in lockstep: each row has exactly one entry, which shows it. -/
theorem only_entry [DecidableEq κ] {journal : List β} {view : β → Option ν} {shown : α → ν}
    {key : ν → κ}
    (lockstep : journal.filterMap view = rows.map shown) (keyed : Keyed (key ∘ shown) rows)
    (member : row ∈ rows) :
    ∃ entry, journal.filter (fun entry => (view entry).map key = some (key (shown row))) = [entry] ∧
      view entry = some (shown row) := by
  have selected : (journal.filter fun entry => (view entry).map key = some (key (shown row))).filterMap view =
      [shown row] := by
    calc (journal.filter fun entry => (view entry).map key = some (key (shown row))).filterMap view
        = (journal.filterMap view).filter (fun value => key value = key (shown row)) := by
          rw [filter_filterMap, filterMap_filter]
          congr 1
          funext entry
          cases view entry with
          | none => simp
          | some value => simp [Option.filter]
      _ = (rows.filter (fun other => (key ∘ shown) other = (key ∘ shown) row)).map shown := by
          rw [lockstep, filter_map]
          rfl
      _ = [shown row] := by
          rw [keyed.filter_eq member, map_singleton]
  have viewed : ∀ entry ∈ journal.filter fun entry => (view entry).map key = some (key (shown row)),
      (view entry).isSome := by
    intro entry inside
    obtain ⟨value, found, _⟩ := Option.map_eq_some_iff.mp (of_decide_eq_true (mem_filter.mp inside).2)
    rw [found]
    rfl
  have single := congrArg length selected
  rw [filterMap_length_eq_length.mpr viewed] at single
  obtain ⟨entry, only⟩ := length_eq_one_iff.mp single
  rw [only] at selected
  refine ⟨entry, only, ?_⟩
  cases found : view entry with
  | none => simp [found] at selected
  | some value => simpa [found] using selected

section OneToOne

/-- Each element of one list is related to exactly one of the other. -/
def OneToOne (related : α → β → Prop) (left : List α) (right : List β) : Prop :=
  (∀ first ∈ left, ∃! second, second ∈ right ∧ related first second) ∧
    ∀ second ∈ right, ∃! first, first ∈ left ∧ related first second

variable {related : α → β → Prop} {left : List α} {right : List β}

theorem OneToOne.symm (pairs : OneToOne related left right) :
    OneToOne (fun second first => related first second) right left := ⟨pairs.2, pairs.1⟩

/-- Related elements share a key that no other element has, and every key occurs on both sides. -/
theorem oneToOne_of_keys {tag : α → κ} {key : β → κ} (tags : Keyed tag left)
    (keys : Keyed key right)
    (shared : ∀ first second, related first second → tag first = key second)
    (answered : ∀ first ∈ left, ∃ second ∈ right, related first second)
    (covered : ∀ second ∈ right, ∃ first ∈ left, tag first = key second) : OneToOne related left right := by
  constructor
  · intro first member
    obtain ⟨second, inside, same⟩ := answered first member
    refine ⟨second, ⟨inside, same⟩, ?_⟩
    rintro other ⟨insideToo, sameToo⟩
    apply keys.injective insideToo inside
    rw [← shared first other sameToo, ← shared first second same]
  · intro second member
    obtain ⟨first, inside, same⟩ := covered second member
    obtain ⟨found, known, paired⟩ := answered first inside
    have identical : found = second := by
      apply keys.injective known member
      rw [← shared first found paired, same]
    rw [identical] at paired
    refine ⟨first, ⟨inside, paired⟩, ?_⟩
    rintro other ⟨insideToo, pairedToo⟩
    apply tags.injective insideToo inside
    rw [shared other second pairedToo, same]

/-- A correspondence is lost when one of its elements is removed. -/
theorem OneToOne.not_without [DecidableEq β] (pairs : OneToOne related left right) {second : β}
    (member : second ∈ right) : ¬ OneToOne related left (right.filter fun other => other ≠ second) := by
  intro fewer
  obtain ⟨first, ⟨inside, paired⟩, _⟩ := pairs.2 second member
  obtain ⟨other, ⟨kept, pairedToo⟩, _⟩ := fewer.1 first inside
  rw [mem_filter, decide_eq_true_iff] at kept
  have same := (pairs.1 first inside).unique ⟨kept.1, pairedToo⟩ ⟨member, paired⟩
  exact kept.2 same

end OneToOne

end FinanceCore.Tables

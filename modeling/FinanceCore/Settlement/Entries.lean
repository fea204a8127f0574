import FinanceCore.Foundation.Decimal
import FinanceCore.Foundation.Matching

namespace FinanceCore.Settlement

open Decimal Matching List

variable {balance : String → ℚ} {people : List String} {person : String} {ctx : Context} {places : ℕ}

/-- A participant with an open amount. -/
abbrev BalanceEntry : Type := String × ℚ

/-- Entries run from the largest amount down, and equal amounts by participant. -/
def entryBefore (context : Context) (first second : BalanceEntry) : Prop :=
  context.neg first.2 < context.neg second.2 ∨ (context.neg first.2 = context.neg second.2 ∧ first.1 ≤ second.1)

instance (context : Context) : DecidableRel (entryBefore context) :=
  fun _ _ => inferInstanceAs (Decidable (_ ∨ _))

def sortEntries (context : Context) (entries : List BalanceEntry) : List BalanceEntry :=
  entries.insertionSort (entryBefore context)

theorem sortEntries_perm (ctx : Context) (entries : List BalanceEntry) : (sortEntries ctx entries).Perm entries :=
  perm_insertionSort _ _

/-- The positive balances are owed to their participants. -/
def creditEntries (balances : List BalanceEntry) : List BalanceEntry :=
  balances.filter fun entry => 0 < entry.2

/-- The negative balances are owed by their participants. -/
def debitEntries (context : Context) (balances : List BalanceEntry) : List BalanceEntry :=
  (balances.filter fun entry => entry.2 < 0).map fun entry => (entry.1, context.neg entry.2)

/-- The balances of the participants in order. -/
def balanceEntries (balance : String → ℚ) (participants : List String) : List BalanceEntry :=
  participants.map fun participant => (participant, balance participant)

/-- Amounts of which only one is not zero add up to that one. -/
theorem sum_single {κ : Type} [DecidableEq κ] {keys : List κ} {key : κ} {amount : κ → ℚ}
    (nodup : keys.Nodup)
    (member : key ∈ keys) (others : ∀ other ∈ keys, other ≠ key → amount other = 0) :
    (keys.map amount).sum = amount key := by
  have rest : (keys.erase key).map amount = (keys.erase key).map fun _ => (0 : ℚ) := by
    apply map_congr_left
    intro other inside
    have known := nodup.mem_erase_iff.mp inside
    exact others other known.2 known.1
  rw [← sum_map_erase _ member, rest]
  simp

/-- A filter that only one key of a list can pass leaves that key or nothing. -/
theorem filter_only {κ : Type} {keys : List κ} {key : κ} {keep : κ → Bool} (nodup : keys.Nodup)
    (member : key ∈ keys) (only : ∀ other ∈ keys, keep other = true → other = key) :
    keys.filter keep = if keep key = true then [key] else [] := by
  split_ifs with kept
  · refine perm_singleton.mp ((perm_ext_iff_of_nodup (nodup.filter _) (nodup_singleton key)).mpr ?_)
    intro other
    rw [mem_filter, mem_singleton]
    constructor
    · intro inside
      exact only other inside.1 inside.2
    · intro same
      exact same ▸ ⟨member, kept⟩
  · rw [filter_eq_nil_iff]
    intro other inside kept'
    exact kept (only other inside kept' ▸ kept')

variable {entry : BalanceEntry} {entries : List BalanceEntry}

theorem mem_balanceEntries :
    entry ∈ balanceEntries balance people ↔ entry.1 ∈ people ∧ entry.2 = balance entry.1 := by
  obtain ⟨person, amount⟩ := entry
  simp only [balanceEntries, mem_map, Prod.mk.injEq]
  constructor
  · rintro ⟨_, member, rfl, rfl⟩
    exact ⟨member, rfl⟩
  · rintro ⟨member, rfl⟩
    exact ⟨person, member, rfl, rfl⟩

theorem mem_creditEntries :
    entry ∈ creditEntries (balanceEntries balance people) ↔
      entry.1 ∈ people ∧ 0 < balance entry.1 ∧ entry.2 = balance entry.1 := by
  rw [creditEntries, mem_filter, mem_balanceEntries, decide_eq_true_iff]
  constructor
  · rintro ⟨⟨member, same⟩, positive⟩
    exact ⟨member, same ▸ positive, same⟩
  · rintro ⟨member, positive, same⟩
    exact ⟨⟨member, same⟩, same ▸ positive⟩

theorem mem_debitEntries :
    entry ∈ debitEntries ctx (balanceEntries balance people) ↔
      entry.1 ∈ people ∧ balance entry.1 < 0 ∧ entry.2 = ctx.neg (balance entry.1) := by
  obtain ⟨person, amount⟩ := entry
  simp only [debitEntries, mem_map, mem_filter, mem_balanceEntries, decide_eq_true_iff, Prod.exists, Prod.mk.injEq]
  constructor
  · rintro ⟨_, _, ⟨⟨member, rfl⟩, negative⟩, rfl, rfl⟩
    exact ⟨member, negative, rfl⟩
  · rintro ⟨member, negative, rfl⟩
    exact ⟨person, balance person, ⟨⟨member, rfl⟩, negative⟩, rfl, rfl⟩

theorem keys_creditEntries (balance : String → ℚ) (people : List String) :
    (creditEntries (balanceEntries balance people)).map Prod.fst =
      people.filter fun person => 0 < balance person := by
  simp [creditEntries, balanceEntries, filter_map, Function.comp_def]

theorem keys_debitEntries (ctx : Context) (balance : String → ℚ) (people : List String) :
    (debitEntries ctx (balanceEntries balance people)).map Prod.fst =
      people.filter fun person => balance person < 0 := by
  simp [debitEntries, balanceEntries, filter_map, Function.comp_def]

section Held

variable {amount moved : ℚ}

theorem neg_held (held : ctx.Holds places amount) : ctx.neg amount = -amount :=
  held.neg.fix

/-- The open entries of a walk are positive amounts that the context holds. -/
def Open (context : Context) (places : ℕ) (entries : List BalanceEntry) : Prop :=
  Positive entries ∧ ∀ entry ∈ entries, context.Holds places entry.2

variable (scaled : ∀ person ∈ people, ctx.Holds places (balance person))
include scaled

theorem open_creditEntries : Open ctx places (creditEntries (balanceEntries balance people)) := by
  constructor
  · intro entry member
    obtain ⟨_, positive, same⟩ := mem_creditEntries.mp member
    rwa [same]
  · intro entry member
    obtain ⟨listed, _, same⟩ := mem_creditEntries.mp member
    rw [same]
    exact scaled entry.1 listed

theorem open_debitEntries : Open ctx places (debitEntries ctx (balanceEntries balance people)) := by
  constructor
  · intro entry member
    obtain ⟨listed, negative, same⟩ := mem_debitEntries.mp member
    rw [same, neg_held (scaled entry.1 listed)]
    exact neg_pos.mpr negative
  · intro entry member
    obtain ⟨listed, _, same⟩ := mem_debitEntries.mp member
    rw [same, neg_held (scaled entry.1 listed)]
    exact (scaled entry.1 listed).neg

omit scaled

theorem Open.perm {entries others : List BalanceEntry} (opened : Open ctx places entries)
    (same : others.Perm entries) : Open ctx places others :=
  ⟨fun entry member => opened.1 entry (same.subset member), fun entry member => opened.2 entry (same.subset member)⟩

/-- The amount that a step moves is held because it is one of the two open amounts. -/
theorem Open.min_held {creditor debtor : BalanceEntry} {creditors debtors : List BalanceEntry}
    (due : Open ctx places (creditor :: creditors)) (debt : Open ctx places (debtor :: debtors)) :
    ctx.Holds places (min creditor.2 debtor.2) := by
  rcases min_choice creditor.2 debtor.2 with same | same
  · rw [same]
    exact due.2 creditor (by simp)
  · rw [same]
    exact debt.2 debtor (by simp)

theorem held_sub (held : ctx.Holds places amount) (movedHeld : ctx.Holds places moved)
    (nonneg : 0 ≤ moved) (bounded : moved ≤ amount) : ctx.Holds places (amount - moved) := by
  apply held.of_abs_le (held.atScale.sub movedHeld.atScale)
  rw [abs_of_nonneg (sub_nonneg.mpr bounded), abs_of_nonneg (nonneg.trans bounded)]
  linarith

/-- What a step leaves of an entry is open again. -/
theorem Open.advance {entry : BalanceEntry} {rest : List BalanceEntry}
    (opened : Open ctx places (entry :: rest)) (movedHeld : ctx.Holds places moved)
    (nonneg : 0 ≤ moved)
    (bounded : moved ≤ entry.2) : Open ctx places (Matching.advance (entry.1, entry.2 - moved) rest) := by
  refine ⟨opened.1.tail.advance bounded, ?_⟩
  intro later member
  rcases mem_of_mem_advance member with ⟨rfl, _⟩ | inside
  · exact held_sub (opened.2 entry (by simp)) movedHeld nonneg bounded
  · exact opened.2 later (by simp [inside])

theorem creditEntries_cons_pos (positive : 0 < balance person) :
    creditEntries (balanceEntries balance (person :: people)) =
      (person, balance person) :: creditEntries (balanceEntries balance people) := by
  simp [creditEntries, balanceEntries, positive]

theorem creditEntries_cons_nonpos (nonpos : balance person ≤ 0) :
    creditEntries (balanceEntries balance (person :: people)) = creditEntries (balanceEntries balance people) := by
  simp [creditEntries, balanceEntries, nonpos.not_gt]

theorem debitEntries_cons_neg (negative : balance person < 0) :
    debitEntries ctx (balanceEntries balance (person :: people)) =
      (person, ctx.neg (balance person)) :: debitEntries ctx (balanceEntries balance people) := by
  simp [debitEntries, balanceEntries, negative]

theorem debitEntries_cons_nonneg (nonneg : 0 ≤ balance person) :
    debitEntries ctx (balanceEntries balance (person :: people)) =
      debitEntries ctx (balanceEntries balance people) := by
  simp [debitEntries, balanceEntries, nonneg.not_gt]

/-- The credit exceeds the debit by the sum of all balances. -/
theorem total_creditEntries (scaled : ∀ person ∈ people, ctx.Holds places (balance person)) :
    total (creditEntries (balanceEntries balance people)) =
      total (debitEntries ctx (balanceEntries balance people)) + (people.map balance).sum := by
  induction people with
  | nil => simp [creditEntries, debitEntries, balanceEntries]
  | cons person rest ih =>
    have tail := ih fun later member => scaled later (by simp [member])
    have opposite := neg_held (scaled person (by simp))
    rcases lt_trichotomy (balance person) 0 with negative | zero | positive
    · rw [creditEntries_cons_nonpos negative.le, debitEntries_cons_neg negative, total_cons, tail, opposite,
        map_cons, sum_cons]
      ring
    · rw [creditEntries_cons_nonpos zero.le, debitEntries_cons_nonneg zero.ge, tail, map_cons,
        sum_cons, zero, zero_add]
    · rw [creditEntries_cons_pos positive, debitEntries_cons_nonneg positive.le, total_cons, tail, map_cons, sum_cons]
      ring

end Held

variable {others : List BalanceEntry}

theorem total_perm (same : others.Perm entries) : total others = total entries :=
  (same.map Prod.snd).sum_eq

theorem held_perm (same : others.Perm entries) (party : String) : held party others = held party entries :=
  ((same.filter _).map Prod.snd).sum_eq

/-- A party that is listed once holds exactly its entry. -/
theorem held_of_mem (nodup : (entries.map Prod.fst).Nodup) {party : String} {amount : ℚ}
    (member : (party, amount) ∈ entries) : held party entries = amount := by
  induction entries with
  | nil => simp at member
  | cons entry rest ih =>
    obtain ⟨key, value⟩ := entry
    rw [map_cons, nodup_cons] at nodup
    rw [held_cons]
    rcases mem_cons.mp member with same | later
    · obtain ⟨rfl, rfl⟩ := Prod.mk.inj same
      rw [if_pos rfl, held_eq_zero nodup.1, add_zero]
    · have different : key ≠ party := by
        rintro rfl
        exact nodup.1 (mem_map.mpr ⟨_, later, rfl⟩)
      rw [if_neg different, zero_add, ih nodup.2 later]

section Plan

def sortedCreditors (context : Context) (balance : String → ℚ)
    (participants : List String) : List BalanceEntry :=
  sortEntries context (creditEntries (balanceEntries balance participants))

def sortedDebtors (context : Context) (balance : String → ℚ)
    (participants : List String) : List BalanceEntry :=
  sortEntries context (debitEntries context (balanceEntries balance participants))

/-- The plan for a list of balances settles the sorted creditors with the sorted debtors. -/
def planOf (context : Context) (balance : String → ℚ) (participants : List String) : List (Transfer String ℚ) :=
  settle (sortedCreditors context balance participants) (sortedDebtors context balance participants)

theorem keys_sortedCreditors (ctx : Context) (balance : String → ℚ) (people : List String) :
    ((sortedCreditors ctx balance people).map Prod.fst).Perm (people.filter fun person => 0 < balance person) := by
  rw [← keys_creditEntries]
  exact (sortEntries_perm ctx _).map Prod.fst

theorem keys_sortedDebtors (ctx : Context) (balance : String → ℚ) (people : List String) :
    ((sortedDebtors ctx balance people).map Prod.fst).Perm (people.filter fun person => balance person < 0) := by
  rw [← keys_debitEntries ctx]
  exact (sortEntries_perm ctx _).map Prod.fst

variable (scaled : ∀ person ∈ people, ctx.Holds places (balance person))

include scaled in
theorem open_sortedCreditors : Open ctx places (sortedCreditors ctx balance people) :=
  (open_creditEntries scaled).perm (sortEntries_perm ctx _)

include scaled in
theorem open_sortedDebtors : Open ctx places (sortedDebtors ctx balance people) :=
  (open_debitEntries scaled).perm (sortEntries_perm ctx _)

/-- Nobody is a creditor and a debtor at once. -/
theorem sorted_disjoint (ctx : Context) (balance : String → ℚ) (people : List String) :
    List.Disjoint ((sortedCreditors ctx balance people).map Prod.fst)
      ((sortedDebtors ctx balance people).map Prod.fst) := by
  intro party left right
  have positive := (mem_filter.mp ((keys_sortedCreditors ctx balance people).subset left)).2
  have negative := (mem_filter.mp ((keys_sortedDebtors ctx balance people).subset right)).2
  exact absurd (of_decide_eq_true positive) (not_lt.mpr (of_decide_eq_true negative).le)

theorem length_filters_le (people : List String) (balance : String → ℚ) :
    (people.filter fun person => 0 < balance person).length +
      (people.filter fun person => balance person < 0).length ≤ people.length := by
  rw [length_eq_length_filter_add (l := people) fun person => decide (0 < balance person)]
  refine Nat.add_le_add_left (Sublist.length_le (monotone_filter_right _ fun person negative => ?_)) _
  simpa using (of_decide_eq_true negative).le

theorem length_sorted_le (ctx : Context) (balance : String → ℚ) (people : List String) :
    (sortedCreditors ctx balance people).length + (sortedDebtors ctx balance people).length ≤ people.length := by
  have creditLength := (keys_sortedCreditors ctx balance people).length_eq
  have debitLength := (keys_sortedDebtors ctx balance people).length_eq
  rw [length_map] at creditLength debitLength
  have split := length_filters_le people balance
  omega

include scaled in
theorem totals_sorted (balanced : (people.map balance).sum = 0) :
    total (sortedCreditors ctx balance people) = total (sortedDebtors ctx balance people) := by
  unfold sortedCreditors sortedDebtors
  rw [total_perm (sortEntries_perm ctx _), total_perm (sortEntries_perm ctx _),
    total_creditEntries scaled, balanced, add_zero]

/-- The plan of zero-sum balances gives every creditor the balance and takes every debtor's. -/
theorem plan_received (nodup : people.Nodup) (scaled : ∀ person ∈ people, ctx.Holds places (balance person))
    (balanced : (people.map balance).sum = 0) (member : person ∈ people)
    (positive : 0 < balance person) :
    received person (planOf ctx balance people) = balance person := by
  rw [planOf, (settle_conserves (open_sortedCreditors scaled).1 (open_sortedDebtors scaled).1
    (totals_sorted scaled balanced) person).1, sortedCreditors, held_perm (sortEntries_perm ctx _)]
  refine held_of_mem ?_ (mem_creditEntries.mpr ⟨member, positive, rfl⟩)
  rw [keys_creditEntries]
  exact nodup.filter _

theorem plan_paid (nodup : people.Nodup) (scaled : ∀ person ∈ people, ctx.Holds places (balance person))
    (balanced : (people.map balance).sum = 0) (member : person ∈ people)
    (negative : balance person < 0) :
    paid person (planOf ctx balance people) = -balance person := by
  rw [planOf, (settle_conserves (open_sortedCreditors scaled).1 (open_sortedDebtors scaled).1
    (totals_sorted scaled balanced) person).2, sortedDebtors, held_perm (sortEntries_perm ctx _),
    ← neg_held (scaled person member)]
  refine held_of_mem ?_ (mem_debitEntries.mpr ⟨member, negative, rfl⟩)
  rw [keys_debitEntries]
  exact nodup.filter _

variable {transfer : Transfer String ℚ}

/-- Every transfer of the plan runs from a negative to a positive balance. -/
theorem balances_of_mem_plan (member : transfer ∈ planOf ctx balance people) :
    0 < balance transfer.creditor ∧ balance transfer.debtor < 0 := by
  obtain ⟨credit, debit⟩ := parties_of_mem_settle member
  have positive := (mem_filter.mp ((keys_sortedCreditors ctx balance people).subset credit)).2
  have negative := (mem_filter.mp ((keys_sortedDebtors ctx balance people).subset debit)).2
  exact ⟨of_decide_eq_true positive, of_decide_eq_true negative⟩

section

variable (scaled : ∀ person ∈ people, ctx.Holds places (balance person))
  (member : transfer ∈ planOf ctx balance people)
include scaled member

theorem plan_atScale : AtScale places transfer.amount :=
  amount_closed_of_mem_settle (fun _ _ _ left right => left.sub right)
    (fun entry inside => ((open_sortedCreditors scaled).2 entry inside).atScale)
    (fun entry inside => ((open_sortedDebtors scaled).2 entry inside).atScale) member

theorem plan_pos : 0 < transfer.amount :=
  amount_pos_of_mem_settle (open_sortedCreditors scaled).1 (open_sortedDebtors scaled).1 member

end

theorem plan_pairs_nodup (nodup : people.Nodup) : ((planOf ctx balance people).map Transfer.pair).Nodup :=
  pairs_nodup_settle ((keys_sortedCreditors ctx balance people).nodup_iff.mpr (nodup.filter _))
    ((keys_sortedDebtors ctx balance people).nodup_iff.mpr (nodup.filter _))

/-- The debtors of one creditor are all different. -/
theorem plan_debtors_nodup (nodup : people.Nodup) (creditor : String) :
    (((planOf ctx balance people).filter fun transfer => transfer.creditor = creditor).map
      Transfer.debtor).Nodup := by
  apply List.Nodup.of_map fun debtor => (creditor, debtor)
  rw [map_map, map_congr_left (g := Transfer.pair)]
  · exact (plan_pairs_nodup nodup).sublist (filter_sublist.map _)
  · intro transfer inside
    rw [Transfer.pair, of_decide_eq_true (mem_filter.mp inside).2]
    rfl

theorem length_plan_le (ctx : Context) (balance : String → ℚ) (people : List String) :
    (planOf ctx balance people).length ≤ (people.filter fun person => 0 < balance person).length +
        (people.filter fun person => balance person < 0).length - 1 := by
  have creditLength := (keys_sortedCreditors ctx balance people).length_eq
  have debitLength := (keys_sortedDebtors ctx balance people).length_eq
  rw [length_map] at creditLength debitLength
  rw [← creditLength, ← debitLength, planOf]
  by_cases listed : sortedCreditors ctx balance people ≠ [] ∨ sortedDebtors ctx balance people ≠ []
  · exact Nat.le_sub_one_of_lt (length_settle_lt listed)
  · push Not at listed
    rw [listed.1]
    simp

end Plan

end FinanceCore.Settlement

import Mathlib

namespace FinanceCore.Matching

open List Prod

variable {κ α : Type} {creditors debtors : List (κ × α)}

/-- An amount moves from a debtor to a creditor. -/
structure Transfer (κ α : Type) where
  (creditor debtor : κ)
  amount : α
deriving DecidableEq

section Greedy

variable [Sub α] [LT α] [DecidableLT α]

/-- The first creditor and the first debtor settle the smaller of their amounts. -/
def settle : List (κ × α) → List (κ × α) → List (Transfer κ α)
  | [], _ => []
  | _ :: _, [] => []
  | (creditor, due) :: creditors, (debtor, debt) :: debtors =>
    if due < debt then ⟨creditor, debtor, due⟩ :: settle creditors ((debtor, debt - due) :: debtors)
    else if debt < due then
      ⟨creditor, debtor, debt⟩ :: settle ((creditor, due - debt) :: creditors) debtors
    else ⟨creditor, debtor, due⟩ :: settle creditors debtors
termination_by creditors debtors => creditors.length + debtors.length

@[simp] theorem settle_nil_left (debtors : List (κ × α)) : settle [] debtors = [] := by
  rw [settle]

@[simp] theorem settle_nil_right (creditors : List (κ × α)) : settle creditors [] = [] := by
  cases creditors <;> rw [settle]

variable {transfer : Transfer κ α}

/-- The parties of every transfer come from the two lists. -/
theorem parties_of_mem_settle (member : transfer ∈ settle creditors debtors) :
    transfer.creditor ∈ creditors.map fst ∧ transfer.debtor ∈ debtors.map fst := by
  fun_induction settle creditors debtors with
  | case1 => simp at member
  | case2 => simp at member
  | case3 creditor due creditors debtor debt debtors smaller ih
  | case4 creditor due creditors debtor debt debtors _ smaller ih
  | case5 creditor due creditors debtor debt debtors _ _ ih =>
    rcases mem_cons.mp member with rfl | later
    · simp
    · tauto

def Transfer.pair (transfer : Transfer κ α) : κ × κ := (transfer.creditor, transfer.debtor)

theorem pair_not_mem_settle {creditor debtor : κ} (absent : creditor ∉ creditors.map fst ∨ debtor ∉ debtors.map fst) :
    (creditor, debtor) ∉ (settle creditors debtors).map Transfer.pair := by
  intro member
  obtain ⟨transfer, later, same⟩ := mem_map.mp member
  obtain ⟨rfl, rfl⟩ := mk.inj same
  obtain ⟨left, right⟩ := parties_of_mem_settle later
  exact absent.elim (fun missing => missing left) fun missing => missing right

/-- A pair of parties settles at most once when no party is listed twice. -/
theorem pairs_nodup_settle (creditorsNodup : (creditors.map fst).Nodup)
    (debtorsNodup : (debtors.map fst).Nodup) : ((settle creditors debtors).map Transfer.pair).Nodup := by
  fun_induction settle creditors debtors with
  | case1 => simp
  | case2 => simp
  | case3 creditor due creditors debtor debt debtors smaller ih =>
    have rest := nodup_cons.mp creditorsNodup
    exact nodup_cons.mpr ⟨pair_not_mem_settle (.inl rest.1), ih rest.2 debtorsNodup⟩
  | case4 creditor due creditors debtor debt debtors _ smaller ih =>
    have rest := nodup_cons.mp debtorsNodup
    exact nodup_cons.mpr ⟨pair_not_mem_settle (.inr rest.1), ih creditorsNodup rest.2⟩
  | case5 creditor due creditors debtor debt debtors _ _ ih =>
    have rest := nodup_cons.mp creditorsNodup
    have others := nodup_cons.mp debtorsNodup
    exact nodup_cons.mpr ⟨pair_not_mem_settle (.inl rest.1), ih rest.2 others.2⟩

/-- The amounts stay in every class of amounts that differences do not leave. -/
theorem amount_closed_of_mem_settle {motive : α → Prop}
    (sub : ∀ first second, second < first → motive first →
      motive second → motive (first - second)) (due : ∀ entry ∈ creditors, motive entry.2)
    (debt : ∀ entry ∈ debtors, motive entry.2) (member : transfer ∈ settle creditors debtors) : motive transfer.amount := by
  fun_induction settle creditors debtors with
  | case1 => simp at member
  | case2 => simp at member
  | case3 creditor amount creditors debtor other debtors smaller ih =>
    simp only [forall_mem_cons] at due debt
    rcases mem_cons.mp member with rfl | later
    · exact due.1
    · exact ih due.2 (forall_mem_cons.mpr ⟨sub _ _ smaller debt.1 due.1, debt.2⟩) later
  | case4 creditor amount creditors debtor other debtors _ smaller ih =>
    simp only [forall_mem_cons] at due debt
    rcases mem_cons.mp member with rfl | later
    · exact debt.1
    · exact ih (forall_mem_cons.mpr ⟨sub _ _ smaller due.1 debt.1, due.2⟩) debt.2 later
  | case5 creditor amount creditors debtor other debtors _ _ ih =>
    simp only [forall_mem_cons] at due debt
    rcases mem_cons.mp member with rfl | later
    · exact due.1
    · exact ih due.2 debt.2 later

theorem length_settle_le (creditors debtors : List (κ × α)) :
    (settle creditors debtors).length ≤ creditors.length + debtors.length := by
  fun_induction settle creditors debtors with
  | case1 => simp
  | case2 => simp
  | case3 creditor due creditors debtor debt debtors smaller ih
  | case4 creditor due creditors debtor debt debtors _ smaller ih
  | case5 creditor due creditors debtor debt debtors _ _ ih =>
    simp only [length_cons] at ih ⊢
    omega

/-- Each transfer closes a party, and the last one closes two. -/
theorem length_settle_lt (listed : creditors ≠ [] ∨ debtors ≠ []) :
    (settle creditors debtors).length < creditors.length + debtors.length := by
  fun_induction settle creditors debtors with
  | case1 debtors =>
    have positive := length_pos_iff.mpr (listed.resolve_left (by simp))
    simpa using positive
  | case2 => simp
  | case3 creditor due creditors debtor debt debtors smaller ih =>
    have rest := ih (.inr (by simp))
    simp only [length_cons] at rest ⊢
    omega
  | case4 creditor due creditors debtor debt debtors _ smaller ih =>
    have rest := ih (.inl (by simp))
    simp only [length_cons] at rest ⊢
    omega
  | case5 creditor due creditors debtor debt debtors _ _ ih =>
    have rest := length_settle_le creditors debtors
    simp only [length_cons]
    omega

end Greedy

section Totals

variable [AddCommGroup α]

def total (entries : List (κ × α)) : α := (entries.map Prod.snd).sum

@[simp] theorem total_nil : total ([] : List (κ × α)) = 0 := rfl

@[simp] theorem total_cons (key : κ) (amount : α) (entries : List (κ × α)) :
    total ((key, amount) :: entries) = amount + total entries := by
  simp [total]

section Parties

variable [DecidableEq κ]

/-- The amounts that a list of entries holds for one party. -/
def held (party : κ) (entries : List (κ × α)) : α :=
  ((entries.filter fun entry => entry.1 = party).map Prod.snd).sum

/-- What a party receives as creditor. -/
def received (party : κ) (transfers : List (Transfer κ α)) : α :=
  ((transfers.filter fun transfer => transfer.creditor = party).map Transfer.amount).sum

/-- What a party pays as debtor. -/
def paid (party : κ) (transfers : List (Transfer κ α)) : α :=
  ((transfers.filter fun transfer => transfer.debtor = party).map Transfer.amount).sum

@[simp] theorem held_nil (party : κ) : held party ([] : List (κ × α)) = 0 := rfl

@[simp] theorem held_cons (party key : κ) (amount : α) (entries : List (κ × α)) :
    held party ((key, amount) :: entries) = (if key = party then amount else 0) + held party entries := by
  unfold held
  by_cases same : key = party <;> simp [same]

theorem held_eq_zero {party : κ} {entries : List (κ × α)} (absent : party ∉ entries.map fst) :
    held party entries = 0 := by
  induction entries with
  | nil => rfl
  | cons entry rest ih =>
    rw [map_cons, mem_cons, not_or] at absent
    rw [held_cons party entry.1 entry.2 rest, if_neg (Ne.symm absent.1), ih absent.2, add_zero]

variable (party : κ)
include party

@[simp] theorem received_nil : received party ([] : List (Transfer κ α)) = 0 := rfl

@[simp] theorem received_cons (transfer : Transfer κ α) (transfers : List (Transfer κ α)) :
    received party (transfer :: transfers) =
      (if transfer.creditor = party then transfer.amount else 0) + received party transfers := by
  unfold received
  by_cases same : transfer.creditor = party <;> simp [same]

@[simp] theorem paid_nil : paid party ([] : List (Transfer κ α)) = 0 := rfl

@[simp] theorem paid_cons (transfer : Transfer κ α) (transfers : List (Transfer κ α)) :
    paid party (transfer :: transfers) =
      (if transfer.debtor = party then transfer.amount else 0) + paid party transfers := by
  unfold paid
  by_cases same : transfer.debtor = party <;> simp [same]

end Parties

variable [LinearOrder α]

/-- Every entry holds a positive amount. -/
def Positive (entries : List (κ × α)) : Prop := ∀ entry ∈ entries, 0 < entry.2

variable {entry : κ × α} {entries : List (κ × α)}

theorem Positive.tail (positive : Positive (entry :: entries)) :
    Positive entries := fun later member => positive later (by simp [member])

theorem Positive.head (positive : Positive (entry :: entries)) : 0 < entry.2 := positive entry (by simp)

theorem Positive.cons (head : 0 < entry.2) (tail : Positive entries) : Positive (entry :: entries) := by
  intro later member
  rcases mem_cons.mp member with rfl | inside
  · exact head
  · exact tail later inside

variable [IsOrderedAddMonoid α]

theorem Positive.eq_nil (positive : Positive entries) (empty : total entries = 0) : entries = [] := by
  cases entries with
  | nil => rfl
  | cons entry rest =>
    have nonneg : 0 ≤ total rest := sum_nonneg fun amount member => by
      obtain ⟨later, inside, rfl⟩ := mem_map.mp member
      exact (positive.tail later inside).le
    have strict := add_pos_of_pos_of_nonneg positive.head nonneg
    rw [← total_cons entry.1, empty] at strict
    exact absurd strict (lt_irrefl 0)

variable (due : Positive creditors) (debt : Positive debtors)
include due debt

theorem amount_pos_of_mem_settle {transfer : Transfer κ α}
    (member : transfer ∈ settle creditors debtors) : 0 < transfer.amount :=
  amount_closed_of_mem_settle (motive := fun amount => 0 < amount) (fun _ _ smaller _ _ => sub_pos.mpr smaller)
    due debt member

/-- With equal totals every creditor receives exactly the held amount and every debtor pays it. -/
theorem settle_conserves [DecidableEq κ] (balanced : total creditors = total debtors) (party : κ) :
    received party (settle creditors debtors) = held party creditors ∧
      paid party (settle creditors debtors) = held party debtors := by
  fun_induction settle creditors debtors with
  | case1 debtors =>
    rw [debt.eq_nil balanced.symm]
    simp
  | case2 entry creditors =>
    rw [due.eq_nil balanced]
    simp
  | case3 creditor amount creditors debtor other debtors smaller ih =>
    have rest := ih due.tail (.cons (sub_pos.mpr smaller) debt.tail) (by
      simp only [total_cons] at balanced ⊢
      rw [sub_add_eq_add_sub, ← balanced, add_sub_cancel_left])
    rw [received_cons, paid_cons, rest.1, rest.2, held_cons, held_cons, held_cons]
    refine ⟨rfl, ?_⟩
    by_cases same : debtor = party
    · simp only [same, if_true]
      abel
    · simp [same]
  | case4 creditor amount creditors debtor other debtors _ smaller ih =>
    have rest := ih (.cons (sub_pos.mpr smaller) due.tail) debt.tail (by
      simp only [total_cons] at balanced ⊢
      rw [sub_add_eq_add_sub, balanced, add_sub_cancel_left])
    rw [received_cons, paid_cons, rest.1, rest.2, held_cons, held_cons, held_cons]
    refine ⟨?_, rfl⟩
    by_cases same : creditor = party
    · simp only [same, if_true]
      abel
    · simp [same]
  | case5 creditor amount creditors debtor other debtors below above ih =>
    have equal : amount = other := le_antisymm (not_lt.mp above) (not_lt.mp below)
    have rest := ih due.tail debt.tail (by
      rw [equal] at balanced
      exact add_left_cancel balanced)
    rw [received_cons, paid_cons, rest.1, rest.2, held_cons, held_cons, equal]
    exact ⟨rfl, rfl⟩

end Totals

section Steps

variable [AddCommGroup α] [LinearOrder α] {rest : List (κ × α)}

/-- The first entry leaves its list when nothing remains of it. -/
def advance (entry : κ × α) (rest : List (κ × α)) : List (κ × α) :=
  if entry.2 = 0 then rest else entry :: rest

/-- The greedy walk is one transfer after another. -/
theorem settle_step [IsOrderedAddMonoid α] (creditor debtor : κ) (due debt : α)
    (creditors debtors : List (κ × α)) :
    settle ((creditor, due) :: creditors) ((debtor, debt) :: debtors) = ⟨creditor, debtor, min due debt⟩ ::
        settle (advance (creditor, due - min due debt) creditors)
          (advance (debtor, debt - min due debt) debtors) := by
  rw [settle]
  rcases lt_trichotomy due debt with smaller | same | larger
  · have left : debt - due ≠ 0 := (sub_pos.mpr smaller).ne'
    simp [smaller, min_eq_left smaller.le, advance, left]
  · simp [same, advance]
  · have left : due - debt ≠ 0 := (sub_pos.mpr larger).ne'
    simp [larger, not_lt.mpr larger.le, min_eq_right larger.le, advance, left]

theorem mem_of_mem_advance {entry later : κ × α}
    (member : later ∈ advance entry rest) : (later = entry ∧ entry.2 ≠ 0) ∨ later ∈ rest := by
  unfold advance at member
  split_ifs at member with closed
  · exact .inr member
  · rcases mem_cons.mp member with same | inside
    · exact .inl ⟨same, closed⟩
    · exact .inr inside

theorem keys_advance_subset (entry : κ × α) (rest : List (κ × α)) :
    (advance entry rest).map fst ⊆ entry.1 :: rest.map fst := by
  unfold advance
  split_ifs
  · exact subset_cons_self _ _
  · simp

theorem length_advance_le (entry : κ × α) (rest : List (κ × α)) : (advance entry rest).length ≤ rest.length + 1 := by
  unfold advance
  split_ifs <;> simp

/-- Every step closes at least one entry. -/
theorem length_advance_lt (creditor debtor : κ) (due debt : α) (creditors debtors : List (κ × α)) :
    (advance (creditor, due - min due debt) creditors).length +
        (advance (debtor, debt - min due debt) debtors).length < (creditors.length + 1) + (debtors.length + 1) := by
  have left := length_advance_le (creditor, due - min due debt) creditors
  have right := length_advance_le (debtor, debt - min due debt) debtors
  rcases le_total due debt with smaller | larger
  · have closed : (advance (creditor, due - min due debt) creditors).length = creditors.length := by
      simp [advance, smaller]
    omega
  · have closed : (advance (debtor, debt - min due debt) debtors).length = debtors.length := by
      simp [advance, larger]
    omega

/-- What remains after a step is positive again. -/
theorem Positive.advance [IsOrderedAddMonoid α] {key : κ} {amount moved : α}
    (positive : Positive rest) (bounded : moved ≤ amount) : Positive (advance (key, amount - moved) rest) := by
  intro later member
  rcases mem_of_mem_advance member with ⟨rfl, left⟩ | inside
  · exact lt_of_le_of_ne (sub_nonneg.mpr bounded) (Ne.symm left)
  · exact positive later inside

theorem total_advance (entry : κ × α) (rest : List (κ × α)) : total (advance entry rest) = entry.2 + total rest := by
  unfold Matching.advance
  split_ifs with closed
  · rw [closed, zero_add]
  · exact total_cons entry.1 entry.2 rest

/-- A single creditor receives every debt in full. -/
theorem settle_single [IsOrderedAddMonoid α] (creditor : κ) (debt : Positive debtors) :
    settle (Matching.advance (creditor, total debtors) []) debtors =
      debtors.map fun entry => ⟨creditor, entry.1, entry.2⟩ := by
  induction debtors with
  | nil => simp [Matching.advance]
  | cons entry rest ih =>
    obtain ⟨debtor, amount⟩ := entry
    have others : 0 ≤ total rest := by
      exact sum_nonneg (forall_mem_map.mpr fun later inside => (debt.tail later inside).le)
    have due : 0 < total ((debtor, amount) :: rest) := by
      exact add_pos_of_pos_of_nonneg debt.head others
    have opened : Matching.advance (creditor, total ((debtor, amount) :: rest)) [] =
        [(creditor, total ((debtor, amount) :: rest))] := if_neg due.ne'
    have smaller : min (total ((debtor, amount) :: rest)) amount = amount := by
      exact min_eq_right (le_add_of_nonneg_right others)
    rw [opened, settle_step, smaller, sub_self, total_cons, add_sub_cancel_left, map_cons, ← ih debt.tail]
    congr 2
    exact if_pos rfl

end Steps

end FinanceCore.Matching

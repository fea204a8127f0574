import FinanceCore.Calculators.PayerReceipt

namespace FinanceCore.Calculators

open Decimal Exceptions Matching Money Settlement List Dict Context

/-- The payer paid the net amount and everyone else nothing. -/
def paidAmount (exact : ExactReceiptShares) (payer participant : String) : ℚ :=
  if participant = payer then exact.netPaid else 0

theorem roundedShareMap_held {ctx : Context} {unit : Currency} {shares : Dict String ℚ}
    (held : shares.All (ctx.Holds (minorUnits unit))) : roundedShareMap ctx shares unit = .ok shares := by
  rw [roundedShareMap, Dict.mapM_ok, forall₂_same]
  intro entry member
  exact ⟨rfl, roundForCurrency_held (held entry.1 entry.2 (get?_of_mem_entries member))⟩

theorem all_tabulate {holds : ℚ → Prop} {people : List String} {nodup : people.Nodup}
    {amount : String → ℚ} (each : ∀ person ∈ people, holds (amount person)) :
    (tabulate people nodup amount).All holds := by
  intro person value found
  rw [get?_tabulate] at found
  split_ifs at found with inside
  exact Option.some.inj found ▸ each person inside

section Case

variable {ctx : Context} {unit : Currency} {people : List String} {exact : ExactReceiptShares}
  {payer : String} {receipt : Receipt}

theorem paidAmount_held (sound : exact.Sound ctx unit people) (person : String) :
    ctx.Holds (minorUnits unit) (paidAmount exact payer person) := by
  unfold paidAmount
  split_ifs
  · exact sound.netHeld
  · exact ctx.holds_zero _

/-- Only the payer has a paid amount, unless nothing was paid. -/
theorem payers_single {amount : String → ℚ} (nodup : people.Nodup) (member : payer ∈ people)
    (others : ∀ person ∈ people, person ≠ payer → amount person = 0) :
    ((people.map fun person => (person, amount person)).filter fun entry => entry.2 ≠ 0).map
    Prod.fst = if amount payer = 0 then [] else [payer] := by
  rw [filter_map, map_map]
  change (people.filter fun person => decide (amount person ≠ 0)).map id = _
  have only : ∀ other ∈ people, decide (amount other ≠ 0) = true → other = payer := by
    intro other inside nonzero
    by_contra different
    exact of_decide_eq_true nonzero (others other inside different)
  rw [filter_only nodup member only]
  simp

theorem sum_paidAmount (nodup : people.Nodup) (member : payer ∈ people) :
    (people.map (paidAmount exact payer)).sum = exact.netPaid :=
  (sum_single nodup member fun _ _ other => if_neg other).trans (if_pos rfl)

theorem payers_eq (nodup : people.Nodup) (member : payer ∈ people) :
    ((tabulate people nodup (paidAmount exact payer)).entries.filter fun entry => entry.2 ≠ 0).map
        Prod.fst = if exact.netPaid = 0 then [] else [payer] := by
  refine (payers_single nodup member fun _ _ other => if_neg other).trans ?_
  rw [if_pos rfl]

/-- The only payer is the primary payer when it is named and paid something. -/
theorem resolvePrimaryPayer_single (member : payer ∈ people) {resolved : Option String} :
    resolvePrimaryPayer (some payer) people (if exact.netPaid = 0 then [] else [payer]) = .ok resolved ↔
      resolved = some payer ∧ payer ≠ "" ∧ exact.netPaid ≠ 0 := by
  simp only [resolvePrimaryPayer, validatePrimaryPayer, bind_ok, require_ok, pure_ok]
  by_cases nothing : exact.netPaid = 0
  · simp [nothing]
  · simp only [nothing, if_false, mem_singleton, length_singleton, List.head?_cons,
      implies_true, not_false_eq_true, and_true, exists_const, member, ne_eq]
    constructor
    · rintro ⟨named, same⟩
      exact ⟨same.symm, named⟩
    · rintro ⟨same, named⟩
      exact ⟨named, same.symm⟩

/-- What a party of a held zero-sum plan is owed adds up without rounding to the gain of the party. -/
theorem payerSummaryOf_plan {balance : String → ℚ} {shares paid : Dict String ℚ}
    {ownShare ownPaid : ℚ} (nodup : people.Nodup) (member : payer ∈ people)
    (scaled : ∀ person ∈ people, ctx.Holds (minorUnits unit) (balance person))
    (balanced : (people.map balance).sum = 0) (share : shares.get? payer = some ownShare)
    (amount : paid.get? payer = some ownPaid) :
    ∃ summary, payerSummaryOf ctx payer shares paid
      ((planOf ctx balance people).map (obligationOf unit)) unit = .ok summary ∧
        summary.payerOwnShare = ownShare ∧ summary.totalToCollect = max (balance payer) 0 := by
  have entries : (((planOf ctx balance people).map (obligationOf unit)).filter fun debt =>
      debt.creditor = payer).map (fun debt => (debt.debtor, debt.amount)) =
        ((planOf ctx balance people).filter fun transfer => transfer.creditor = payer).map
          fun transfer => (transfer.debtor, transfer.amount) := by
    rw [filter_map, map_map]
    rfl
  have values : (ofList (((planOf ctx balance people).filter fun transfer =>
      transfer.creditor = payer).map fun transfer => (transfer.debtor, transfer.amount))).values =
        ((planOf ctx balance people).filter fun transfer => transfer.creditor = payer).map Transfer.amount := by
    rw [values, entries_ofList, map_map]
    · rfl
    · rw [map_map]
      exact plan_debtors_nodup nodup payer
  have gain : received payer (planOf ctx balance people) = max (balance payer) 0 := by
    by_cases positive : 0 < balance payer
    · rw [plan_received nodup scaled balanced member positive, max_eq_left positive.le]
    · have none : (planOf ctx balance people).filter (fun transfer => transfer.creditor = payer) = [] := by
        rw [filter_eq_nil_iff]
        intro transfer inside here
        exact positive ((of_decide_eq_true here) ▸ (balances_of_mem_plan inside).1)
      rw [received, none, max_eq_right (not_lt.mp positive)]
      rfl
  have total : ctx.Holds (minorUnits unit) (max (balance payer) 0) := by
    rcases max_choice (balance payer) 0 with same | same <;> rw [same]
    · exact scaled payer member
    · exact ctx.holds_zero _
  have sum := sumFrom_eq_of_held (forall_mem_map.mpr fun transfer inside => ?_) gain total
  rotate_left
  · have planned := (mem_filter.mp inside).1
    exact ⟨plan_atScale scaled planned, (plan_pos scaled planned).le⟩
  unfold payerSummaryOf
  simp only [entries, values, share, amount, expect, ok_bind, sum, roundForCurrency_held total]
  exact ⟨_, rfl, rfl, rfl⟩

section Accepted

variable (ready : PayerReceipt ctx unit people payer receipt exact)
  (nodup : people.Nodup) (member : payer ∈ people)
  (left : othersUnits ctx unit exact people payer ≤ netUnits ctx unit exact)
include ready nodup member left

theorem addAllocations_final :
    addAllocations ctx (emptyShares people) (tabulate people nodup (finalAmount ctx unit exact people payer)) =
      .ok (tabulate people nodup (finalAmount ctx unit exact people payer)) := by
  have sound := ready.sound nodup
  unfold addAllocations
  rw [emptyShares, fromKeys_eq_tabulate people nodup,
    foldlM_modify_tabulate (fun amount share => ctx.add share amount) (fun entry => SplitError.missingKey entry.1)]
  congr 1
  apply tabulate_congr
  intro person inside
  rw [add, zero_add, (finalAmount_held sound nodup member left inside).fix]

theorem receiptStep_payer :
    ∃ result, receiptStep ctx people unit ⟨emptyShares people, emptyShares people, []⟩ receipt =
      .ok ⟨tabulate people nodup (finalAmount ctx unit exact people payer),
        tabulate people nodup (paidAmount exact payer), [result]⟩ := by
  have sound := ready.sound nodup
  obtain ⟨result, accepted, paidBy, netPaid, shares⟩ := calculateReceipt_payer ready nodup member left
  have paid : (emptyShares people).modify? payer (fun amount => ctx.add amount exact.netPaid) =
      some (tabulate people nodup (paidAmount exact payer)) := by
    rw [emptyShares, fromKeys_eq_tabulate people nodup, modify?_tabulate _ _ _ _ _ member]
    congr 1
    apply tabulate_congr
    intro person _
    by_cases here : person = payer
    · subst here
      rw [Function.update_self, paidAmount, if_pos rfl, add, zero_add, sound.netHeld.fix]
    · rw [Function.update_of_ne here, paidAmount, if_neg here]
  refine ⟨result, ?_⟩
  unfold receiptStep
  simp only [ready.sameCurrency, accepted, ok_bind, paidBy, netPaid, paid, expect, shares,
    addAllocations_final ready nodup member left]
  rfl

/-- What a participant paid minus the final share. -/
theorem payer_balance_held {person : String} (inside : person ∈ people) :
    ctx.Holds (minorUnits unit) (paidAmount exact payer person - finalAmount ctx unit exact people payer person) := by
  have sound := ready.sound nodup
  have final := finalAmount_held sound nodup member left inside
  have nonneg := finalAmount_nonneg sound nodup member left inside
  have atMost := (finalUnits_bounds sound nodup member left inside).2
  have below : finalAmount ctx unit exact people payer person ≤ exact.netPaid := by
    rw [(netUnits_spec sound).2]
    exact div_le_div_of_nonneg_right (by exact_mod_cast atMost) (by positivity)
  refine sound.netHeld.of_abs_le ((paidAmount_held sound person).atScale.sub final.atScale) ?_
  rw [abs_of_nonneg (nonneg.trans below), abs_le]
  unfold paidAmount
  split_ifs
  · constructor <;> linarith
  · constructor <;> linarith

omit left in
theorem sum_balances :
    (people.map fun person => paidAmount exact payer person -
      finalAmount ctx unit exact people payer person).sum = 0 := by
  have sound := ready.sound nodup
  have difference := Multiset.sum_map_sub (m := (people : Multiset String))
    (f := paidAmount exact payer) (g := finalAmount ctx unit exact people payer)
  simp only [Multiset.map_coe, Multiset.sum_coe] at difference
  rw [difference, sum_paidAmount nodup member, sum_finalAmount sound nodup member, sub_self]

theorem obligations_payer {fuel : ℕ} (enough : people.length ≤ fuel) :
    settlementObligations ctx unit fuel people (tabulate people nodup (finalAmount ctx unit exact people payer))
        (tabulate people nodup (paidAmount exact payer)) =
      .ok ((planOf ctx (fun person => paidAmount exact payer person -
        finalAmount ctx unit exact people payer person) people).map (obligationOf unit)) := by
  refine settlementObligations_eq_plan (fun person inside => ?_)
    (fun person inside => payer_balance_held ready nodup member left inside)
    (sum_balances ready nodup member) enough
  apply participantBalance_held
  · rw [get?_tabulate, if_pos inside]
  · rw [get?_tabulate, if_pos inside]
  · exact payer_balance_held ready nodup member left inside

omit left in
theorem sumFrom_paidAmount : ctx.sumFrom 0 (people.map (paidAmount exact payer)) = exact.netPaid := by
  have sound := ready.sound nodup
  refine sumFrom_eq_of_held (forall_mem_map.mpr fun person _ => ?_) (sum_paidAmount nodup member) sound.netHeld
  refine ⟨(paidAmount_held sound person).atScale, ?_⟩
  unfold paidAmount
  split_ifs
  · exact ready.nonneg
  · exact le_rfl

end Accepted

/-- The calculator accepts the case exactly when the payer is named, something was paid, and the half-up shares
of the others leave the payer nothing negative. -/
theorem calculateReceiptSplit_payer {caseData : CaseData} {raw : String} {fuel : ℕ}
    (ready : PayerReceipt ctx unit people payer receipt exact)
    (nodup : people.Nodup) (member : payer ∈ people) (enough : people.length ≤ fuel)
    (receipts : caseData.receipts = [receipt]) (listed : caseData.participants = some people)
    (primary : caseData.payer = some payer) (currencyText : caseData.currency = some raw)
    (known : normalizeCurrency (L := FieldLabel) raw = .ok unit) :
    (∃ result, calculateReceiptSplit ctx fuel caseData = .ok result) ↔
      payer ≠ "" ∧ exact.netPaid ≠ 0 ∧ othersUnits ctx unit exact people payer ≤ netUnits ctx unit exact := by
  have sound := ready.sound nodup
  have nonempty : people ≠ [] := ne_nil_of_mem member
  have cases : caseParticipants caseData = .ok people := by
    simp only [caseParticipants, listed, Option.getD_some, nonempty, if_false]
  have authority : resolveAuthoritativeCurrency caseData = .ok unit := by
    simp only [resolveAuthoritativeCurrency, currencyText, expect, ok_bind, ofMoney_ok, known]
  by_cases left : othersUnits ctx unit exact people payer ≤ netUnits ctx unit exact
  · obtain ⟨result, step⟩ := receiptStep_payer ready nodup member left
    have shares : roundedShareMap ctx (tabulate people nodup
        (finalAmount ctx unit exact people payer)) unit = .ok _ :=
      roundedShareMap_held (all_tabulate fun person inside => finalAmount_held sound nodup member left inside)
    have paid : roundedShareMap ctx (tabulate people nodup (paidAmount exact payer)) unit =
        .ok _ := roundedShareMap_held (all_tabulate fun person _ => paidAmount_held sound person)
    simp only [calculateReceiptSplit, receipts, cases, authority, foldlM_cons, foldlM_nil, step, shares,
      paid, primary, payers_eq nodup member, ok_bind, pure_bind, require, nodup, if_true, ne_eq,
      cons_ne_nil, not_false_eq_true, obligations_payer ready nodup member left enough,
      values_tabulate, sumFrom_paidAmount ready nodup member,
      sumFrom_finalAmount sound nodup member left, roundForCurrency_held sound.netHeld]
    constructor
    · rintro ⟨result, run⟩
      obtain ⟨resolved, done, _⟩ := bind_ok.mp run
      obtain ⟨_, named, something⟩ := (resolvePrimaryPayer_single member).mp done
      exact ⟨named, something, left⟩
    · rintro ⟨named, something, _⟩
      have ownShare := get?_tabulate people nodup (finalAmount ctx unit exact people payer) payer
      have ownPaid := get?_tabulate people nodup (paidAmount exact payer) payer
      rw [if_pos member] at ownShare ownPaid
      obtain ⟨summary, summarized, -⟩ := payerSummaryOf_plan nodup member
        (fun person inside => payer_balance_held ready nodup member left inside)
        (sum_balances ready nodup member) ownShare ownPaid
      rw [(resolvePrimaryPayer_single member).mpr ⟨rfl, named, something⟩]
      simp only [ok_bind, something, if_false, mapM_cons, mapM_nil, ownShare, expect, summarized,
        Functor.map, Except.map, pure_bind]
      exact ⟨_, rfl⟩
  · constructor
    · rintro ⟨result, run⟩
      simp only [calculateReceiptSplit, receipts, cases, authority, foldlM_cons, foldlM_nil, ok_bind,
        require, nodup, if_true, ne_eq, cons_ne_nil, not_false_eq_true] at run
      obtain ⟨state, folded, _⟩ := bind_ok.mp run
      obtain ⟨next, step, _⟩ := bind_ok.mp folded
      simp only [receiptStep, bind_ok] at step
      obtain ⟨_, _, receiptResult, accepted, _⟩ := step
      exact absurd (left_of_calculateReceipt ready nodup member accepted) left
    · rintro ⟨_, _, leaves⟩
      exact absurd leaves left

end Case

end FinanceCore.Calculators

import FinanceCore.Calculators.ReportedShares

namespace FinanceCore.Calculators

open Decimal Exceptions Matching Money Settlement List Context

variable {ctx : Context} {unit : Currency} {people : List String} {payer : String} {shares paid : Dict String ℚ}

section Rounded

variable {shares : Dict String ℚ}

/-- Shares of the right scale survive the final rounding unchanged. -/
theorem roundedShareMap_final {rounded : Dict String ℚ} (sound : FinalShares ctx unit people shares)
    (run : roundedShareMap ctx shares unit = .ok rounded) :
    rounded = shares ∧ shares.All (ctx.Holds (minorUnits unit)) := by
  have held : shares.All (ctx.Holds (minorUnits unit)) := by
    intro person share found
    have each := (Dict.mapM_ok.mp run).flip
    obtain ⟨image, _, _, done⟩ := exists_of_mem_forall₂ each (Dict.mem_entries_of_get? found)
    exact (quantize_atScale (sound.scaled _ _ found) (roundForCurrency_ok.mp done)).2
  have same := roundedShareMap_held held
  rw [run] at same
  exact ⟨Except.ok.inj same, held⟩

/-- A rounded total of final shares is their exact sum. -/
theorem roundForCurrency_sum {total : ℚ} (sound : FinalShares ctx unit people shares)
    (run : roundForCurrency ctx (ctx.sumFrom 0 shares.values) unit = .ok total) :
    total = (people.map (shareOf shares)).sum ∧ ctx.Holds (minorUnits unit) total := by
  rw [← values_eq_shareOf sound.keys]
  exact quantize_sumFrom (fun _ member => ⟨sound.scaled.mem_values member, sound.nonneg.mem_values member⟩)
    (roundForCurrency_ok.mp run)

theorem shareOf_all {holds : ℚ → Prop} (keys : shares.keys = people) (all : shares.All holds)
    {person : String} (member : person ∈ people) : holds (shareOf shares person) :=
  all person _ (shareOf_get? keys member)

end Rounded

section Balances

/-- A successful balance is the exact difference. -/
theorem participantBalance_eq_ok {person : String} {entry : BalanceEntry}
    (sharesFinal : FinalShares ctx unit people shares)
    (paidFinal : FinalShares ctx unit people paid)
    (run : participantBalance ctx unit shares paid person = .ok entry) :
    entry = (person, shareOf paid person - shareOf shares person) ∧
      ctx.Holds (minorUnits unit) (shareOf paid person - shareOf shares person) := by
  simp only [participantBalance, bind_ok, pure_ok] at run
  obtain ⟨amount, paidIs, share, shareIs, balance, rounded, rfl⟩ := run
  have paidIs := expect_ok.mp paidIs
  have shareIs := expect_ok.mp shareIs
  rw [shareOf, shareOf, paidIs, shareIs, Option.getD_some, Option.getD_some]
  have scaled := (paidFinal.scaled _ _ paidIs).sub (sharesFinal.scaled _ _ shareIs)
  obtain ⟨same, held⟩ := quantize_fix scaled (roundForCurrency_ok.mp rounded)
  exact ⟨by rw [same], held⟩

theorem sum_differences {paid share : String → ℚ} (balanced : (people.map paid).sum = (people.map share).sum) :
    (people.map fun person => paid person - share person).sum = 0 := by
  have whole : (people.map fun person => paid person - share person).sum +
      (people.map share).sum = (people.map paid).sum := by
    rw [← sum_map_add]
    simp
  linarith

variable {fuel : ℕ} {debts : List Obligation}

theorem settlementObligations_more {more : ℕ} (enough : fuel ≤ more)
    (run : settlementObligations ctx unit fuel people shares paid = .ok debts) :
    settlementObligations ctx unit more people shares paid = .ok debts := by
  obtain ⟨balances, computed, run⟩ := bind_ok.mp run
  obtain ⟨pointers, ended, run⟩ := bind_ok.mp run
  exact bind_ok.mpr ⟨balances, computed, bind_ok.mpr ⟨pointers, Loop.run_more enough ended, run⟩⟩

/-- Whatever the bound of the loop was, a finished settlement is the plan of the exact balances. -/
theorem settlementObligations_plan (sharesFinal : FinalShares ctx unit people shares)
    (paidFinal : FinalShares ctx unit people paid)
    (balanced : (people.map (shareOf paid)).sum = (people.map (shareOf shares)).sum)
    (run : settlementObligations ctx unit fuel people shares paid = .ok debts) :
    debts = (planOf ctx (fun person => shareOf paid person - shareOf shares person)
        people).map (obligationOf unit) ∧
      ∀ person ∈ people, ctx.Holds (minorUnits unit) (shareOf paid person - shareOf shares person) := by
  obtain ⟨balances, computed, _⟩ := bind_ok.mp run
  have each : ∀ person ∈ people,
      participantBalance ctx unit shares paid person = .ok (person, shareOf paid person - shareOf shares person) ∧
      ctx.Holds (minorUnits unit) (shareOf paid person - shareOf shares person) := by
    intro person member
    obtain ⟨entry, _, done⟩ := exists_of_mem_forall₂ (mapM_ok.mp computed).flip member
    obtain ⟨rfl, held⟩ := participantBalance_eq_ok sharesFinal paidFinal done
    exact ⟨done, held⟩
  have zero := sum_differences balanced
  have planned := settlementObligations_eq_plan (fun person member => (each person member).1)
    (fun person member => (each person member).2) zero (Nat.le_max_right fuel people.length)
  rw [settlementObligations_more (Nat.le_max_left fuel people.length) run] at planned
  exact ⟨Except.ok.inj planned, fun person member => (each person member).2⟩

end Balances

section Plan

variable {balance : String → ℚ} (nodup : people.Nodup) (payerIn : payer ∈ people)
  (held : ∀ person ∈ people, ctx.Holds (minorUnits unit) (balance person))
  (losses : ∀ person ∈ people, person ≠ payer → balance person ≤ 0)
  (zero : (people.map balance).sum = 0)
include nodup payerIn losses

theorem creditEntries_single : creditEntries (balanceEntries balance people) =
    if 0 < balance payer then [(payer, balance payer)] else [] := by
  have only : ∀ other ∈ people, decide (0 < balance other) = true → other = payer := by
    intro other member positive
    by_contra different
    exact absurd (of_decide_eq_true positive) (not_lt.mpr (losses other member different))
  rw [creditEntries, balanceEntries, filter_map]
  change (people.filter fun person => decide (0 < balance person)).map _ = _
  rw [filter_only nodup payerIn only]
  simp only [decide_eq_true_eq]
  split_ifs <;> rfl

include zero

theorem gain_nonneg : 0 ≤ balance payer := by
  have whole := sum_map_erase balance payerIn
  have nonpos : ∀ amount ∈ (people.erase payer).map balance, amount ≤ 0 := by
    intro amount member
    obtain ⟨person, inside, rfl⟩ := mem_map.mp member
    have known := nodup.mem_erase_iff.mp inside
    exact losses person known.2 known.1
  have others : ((people.erase payer).map balance).sum ≤ 0 := by
    simpa using sum_le_card_nsmul _ 0 nonpos
  linarith

include held

/-- All debts together are the balance of the only creditor. -/
theorem total_sortedDebtors : total (sortedDebtors ctx balance people) = balance payer := by
  rw [← totals_sorted held zero, sortedCreditors, total_perm (sortEntries_perm ctx _),
    creditEntries_single nodup payerIn losses]
  split_ifs with gain
  · simp [total]
  · exact le_antisymm (gain_nonneg nodup payerIn losses zero) (not_lt.mp gain)

/-- With one possible creditor the plan asks every debtor for the whole debt. -/
theorem planOf_single : planOf ctx balance people =
    (sortedDebtors ctx balance people).map fun entry => ⟨payer, entry.1, entry.2⟩ := by
  have creditors : sortedCreditors ctx balance people =
      advance (payer, total (sortedDebtors ctx balance people)) [] := by
    rw [total_sortedDebtors nodup payerIn held losses zero, sortedCreditors, creditEntries_single nodup payerIn losses]
    split_ifs with gain
    · exact (if_neg gain.ne').symm
    · exact (if_pos (le_antisymm (not_lt.mp gain) (gain_nonneg nodup payerIn losses zero))).symm
  rw [planOf, creditors]
  exact settle_single payer (open_sortedDebtors held).1

end Plan

section Outcome

/-- What a participant paid minus the share. -/
def SplitResult.balance (result : SplitResult) (participant : String) : ℚ :=
  shareOf result.payerPaidAmounts participant - shareOf result.participantShares participant

/-- What the calculator returns for a case in which one payer paid every receipt and something was paid. -/
structure SinglePayerOutcome (context : Context) (payer : String)
    (result : SplitResult) : Prop where
  nodup : result.participants.Nodup
  payerIn : payer ∈ result.participants
  payerNamed : result.payer = some payer
  shares : FinalShares context result.currency result.participants result.participantShares
  sharesHeld : result.participantShares.All (context.Holds (minorUnits result.currency))
  paidKeys : result.payerPaidAmounts.keys = result.participants
  paid : ∀ participant ∈ result.participants, shareOf result.payerPaidAmounts participant =
    if participant = payer then result.totalPaid else 0
  totalHeld : context.Holds (minorUnits result.currency) result.totalPaid
  total : (result.participants.map (shareOf result.participantShares)).sum = result.totalPaid
  ownShares : result.payerOwnShares.entries = [(payer, shareOf result.participantShares payer)]
  obligations : result.settlementObligations =
    (sortedDebtors context result.balance result.participants).map
      fun entry => ⟨entry.1, payer, entry.2, result.currency⟩
  balanceHeld : ∀ participant ∈ result.participants,
    context.Holds (minorUnits result.currency) (result.balance participant)
  summary : ∃ summary, result.payerSummary = some summary ∧
    summary.payerOwnShare = shareOf result.participantShares payer ∧
    summary.totalToCollect = result.totalPaid - shareOf result.participantShares payer
  receipts : ∀ receipt ∈ result.receipts, receipt.Reported context result.currency result.participants payer

theorem resolvePrimaryPayer_only {named resolved : Option String}
    (run : resolvePrimaryPayer named people [payer] = .ok resolved) : resolved = some payer := by
  cases named with
  | none => exact (Except.ok.inj run).symm
  | some primary =>
    obtain ⟨_, validated, run⟩ := bind_ok.mp run
    simp only [validatePrimaryPayer, bind_ok, require_ok] at validated
    obtain ⟨_, _, _, _, _, listed, _⟩ := validated
    rw [← pure_ok.mp run, mem_singleton.mp listed]

variable {caseData : CaseData}

theorem foldlM_single {final : Accumulated} (nodup : people.Nodup)
    (single : ∀ receipt ∈ caseData.receipts, receipt.paidBy = some payer)
    (run : caseData.receipts.foldlM (receiptStep ctx people unit)
      ⟨emptyShares people, emptyShares people, []⟩ = .ok final) : final.Single ctx unit people payer := by
  refine foldlM_invariant (Accumulated.Single ctx unit people payer)
    (fun state receipt next member sound step => receiptStep_single nodup (single receipt member) sound step)
    ⟨finalShares_empty nodup, finalShares_empty nodup, ?_, fun result member => by cases member⟩ run
  intro person _ amount found
  rw [Option.mem_def, emptyShares, Dict.get?_fromKeys] at found
  split_ifs at found
  exact (Option.some.inj found).symm

theorem entries_eq_shareOf (keys : shares.keys = people) :
    shares.entries = people.map fun person => (person, shareOf shares person) := by
  conv_lhs => rw [Dict.eq_tabulate shares 0]
  rw [← keys]
  rfl

/-- An accepted single-payer case in which something was paid has a single-payer outcome. -/
theorem calculateReceiptSplit_single {fuel : ℕ} {result : SplitResult}
    (single : ∀ receipt ∈ caseData.receipts, receipt.paidBy = some payer)
    (run : calculateReceiptSplit ctx fuel caseData = .ok result)
    (something : result.totalPaid ≠ 0) :
    SinglePayerOutcome ctx payer result := by
  simp only [calculateReceiptSplit, bind_ok] at run
  obtain ⟨_, _, people, _, _, nodup, unit, _, state, folded, shares, roundedShares, paid, roundedPaid,
    primary, resolved, debts, settled, totalPaid, paidTotal, totalShares, sharesTotal, _, totals, ownShares,
    owned, run⟩ := run
  have totalIs : result.totalPaid = totalPaid := by
    cases primary with
    | none =>
      obtain rfl := pure_ok.mp run
      rfl
    | some primary =>
      obtain ⟨_, _, run⟩ := bind_ok.mp run
      obtain rfl := pure_ok.mp run
      rfl
  rw [totalIs] at something
  have nodup := require_ok.mp nodup
  obtain rfl := require_ok.mp totals
  have sound := foldlM_single nodup single folded
  obtain ⟨rfl, sharesHeld⟩ := roundedShareMap_final sound.shares roundedShares
  obtain ⟨rfl, _⟩ := roundedShareMap_final sound.paid roundedPaid
  obtain ⟨paidSum, totalHeld⟩ := roundForCurrency_sum sound.paid paidTotal
  obtain ⟨sharesSum, _⟩ := roundForCurrency_sum sound.shares sharesTotal
  have others : ∀ person ∈ people, person ≠ payer →
      shareOf state.payerPaidAmounts person = 0 := fun person member other =>
    sound.others person other _ (shareOf_get? sound.paid.keys member)
  have payerIn : payer ∈ people := by
    by_contra outside
    have nothing : people.map (shareOf state.payerPaidAmounts) = people.map fun _ => (0 : ℚ) :=
      map_congr_left fun person member =>
        others person member fun same => outside (same ▸ member)
    apply something
    rw [paidSum, nothing]
    simp
  have payerTotal : shareOf state.payerPaidAmounts payer = totalShares := by
    rw [paidSum, sum_single nodup payerIn others]
  have paidIs : ∀ person ∈ people, shareOf state.payerPaidAmounts person =
      if person = payer then totalShares else 0 := by
    intro person member
    split_ifs with same
    · rw [same, payerTotal]
    · exact others person member same
  rw [entries_eq_shareOf sound.paid.keys, payers_single nodup payerIn others, if_neg (payerTotal.symm ▸ something)]
    at resolved owned
  obtain rfl := resolvePrimaryPayer_only resolved
  obtain ⟨summary, summarised, run⟩ := bind_ok.mp run
  obtain ⟨collection, computed, rfl⟩ := map_ok.mp summarised
  obtain rfl := pure_ok.mp run
  have balanced : (people.map (shareOf state.payerPaidAmounts)).sum =
      (people.map (shareOf state.participantShares)).sum := by
    rw [← paidSum, ← sharesSum]
  obtain ⟨planned, held⟩ := settlementObligations_plan sound.shares sound.paid balanced settled
  have losses : ∀ person ∈ people, person ≠ payer →
      shareOf state.payerPaidAmounts person - shareOf state.participantShares person ≤ 0 := by
    intro person member other
    rw [others person member other, zero_sub, neg_nonpos]
    exact shareOf_all sound.shares.keys sound.shares.nonneg member
  have zero := sum_differences balanced
  obtain ⟨_, summarised, ownIs, collected⟩ := payerSummaryOf_plan nodup payerIn held zero
    (shareOf_get? sound.shares.keys payerIn) (shareOf_get? sound.paid.keys payerIn)
  rw [planned, summarised] at computed
  obtain rfl := Except.ok.inj computed
  rw [max_eq_left (gain_nonneg nodup payerIn losses zero)] at collected
  rw [planOf_single nodup payerIn held losses zero, map_map] at planned
  subst planned
  have ownEntries : (Dict.ofList ownShares).entries = [(payer, shareOf state.participantShares payer)] := by
    have listed : ownShares = [(payer, shareOf state.participantShares payer)] := by
      cases mapM_ok.mp owned with
      | cons head rest =>
        cases rest
        obtain ⟨own, found, rfl⟩ := map_ok.mp head
        rw [shareOf_get? sound.shares.keys payerIn] at found
        rw [← Option.some.inj (expect_ok.mp found)]
    rw [listed]
    rfl
  exact ⟨nodup, payerIn, rfl, sound.shares, sharesHeld, sound.paid.keys, paidIs, totalHeld, sharesSum.symm, ownEntries,
    rfl, held, ⟨_, rfl, ownIs, by rw [collected, payerTotal]⟩, sound.reported⟩

end Outcome

end FinanceCore.Calculators

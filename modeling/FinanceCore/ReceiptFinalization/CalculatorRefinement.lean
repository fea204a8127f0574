import FinanceCore.Calculators.SinglePayerCase
import FinanceCore.ReceiptFinalization.Acceptance

namespace FinanceCore.ReceiptFinalization

open Calculators (ReceiptResult SplitResult SplitError CaseData SinglePayerOutcome calculateReceiptSplit shareOf
  shareOf_get? calculateReceiptSplit_single)
open Decimal Exceptions Money Text List Dict Context

variable {result : SplitResult} {payer : String} {unit : Currency}

section Serialized

variable {places : ℕ} {value : ℚ}

theorem standard_digits (held : standard.Holds places value) :
    digitCount (scaledNumber places value).coefficient ≤ 28 := by
  obtain ⟨coefficient, fitting, rfl⟩ := held
  have whole : (coefficient / 10 ^ places * 10 ^ places : ℚ) = coefficient := by
    field_simp
  have small : coefficient.natAbs < 10 ^ 28 := by
    have bound : |coefficient| < 10 ^ 28 := of_decide_eq_true fitting
    rw [← Int.natCast_natAbs] at bound
    exact_mod_cast bound
  unfold scaledNumber
  rw [whole]
  exact Nat.log_lt_of_lt_pow' (by norm_num) small

/-- Every held amount of the standard context has a canonical text. -/
theorem canonicalDecimalStr_held (short : places ≤ 2) (held : standard.Holds places value) :
    ∃ text, canonicalDecimalStr (scaledNumber places value) = some text := by
  have digits := standard_digits held
  have lengths := congrArg List.length (significantDigits_append (scaledNumber places value).coefficient)
  rw [length_append, length_replicate, natDigits, length_fixedDigits] at lengths
  unfold canonicalDecimalStr
  split
  · exact ⟨_, rfl⟩
  · rw [if_neg]
    · exact ⟨_, rfl⟩
    · have exponent : (scaledNumber places value).exponent = -places := rfl
      rw [maxCanonicalDecimalChars]
      unfold outputLength
      split_ifs <;> omega

theorem minorUnits_le (unit : Currency) : minorUnits unit ≤ 2 := by
  cases unit <;> decide

/-- An amount of a result is a decimal at the scale of the currency. -/
def decimalAmount (currency : Currency) (amount : ℚ) : RawMoney :=
  .decimal (.finite (scaledNumber (minorUnits currency) amount))

/-- A held amount is serialized as a text that reads as the amount again. -/
theorem serialize_amount {amount : ℚ} (held : standard.Holds (minorUnits unit) amount) :
    ∃ raw, snapshotDecimalDefault (decimalAmount unit amount) = .ok raw ∧
      ReadsAs .standard unit raw amount := by
  obtain ⟨text, written⟩ := canonicalDecimalStr_held (minorUnits_le unit) held
  refine ⟨.text text, map_ok.mpr ⟨text, expect_ok.mpr written, rfl⟩, fun label => ?_⟩
  obtain ⟨exact, read, value⟩ : ∃ exact, moneyDecimal (.text text) label = .ok exact ∧
      exact.value = (scaledNumber (minorUnits unit) amount).value := moneyDecimal_canonicalDecimalStr written
  rw [scaledNumber_value held.atScale] at value
  subst value
  exact bind_ok.mpr ⟨exact, mapError_ok.mpr read, bind_ok.mpr
    ⟨(), mapError_ok.mpr (validateAmountForCurrency_ok.mpr held), rfl⟩⟩

def decimalMap (currency : Currency) (amounts : Dict String ℚ) : Dict String RawMoney :=
  amounts.map fun _ amount => decimalAmount currency amount

/-- A mapping of held amounts is serialized as a mapping with the same keys and amounts. -/
theorem serialize_map {amounts : Dict String ℚ} (held : amounts.All (standard.Holds (minorUnits unit))) :
    ∃ mapping, serializeMap (decimalMap unit amounts) = .ok mapping ∧
      mapping.keys.Perm amounts.keys ∧
      ∀ key amount, amounts.get? key = some amount → ReadsAs .standard unit (amountOf mapping key) amount := by
  have agree := agree_sortKeys (decimalMap unit amounts)
  have source : ∀ entry ∈ (decimalMap unit amounts).sortKeys.entries, ∃ amount,
      amounts.get? entry.1 = some amount ∧ entry.2 = decimalAmount unit amount := by
    intro entry member
    have found := get?_of_mem_entries member
    rw [agree entry.1, decimalMap, get?_map] at found
    obtain ⟨amount, present, same⟩ := Option.map_eq_some_iff.mp found
    exact ⟨amount, present, same.symm⟩
  have each : ∀ entry ∈ (decimalMap unit amounts).sortKeys.entries, ∃ value,
      snapshotDecimalDefault entry.2 = .ok value := by
    intro entry member
    obtain ⟨amount, present, same⟩ := source entry member
    obtain ⟨raw, written, _⟩ := serialize_amount (held entry.1 amount present)
    exact ⟨raw, same ▸ written⟩
  obtain ⟨mapping, run⟩ : ∃ mapping, serializeMap (decimalMap unit amounts) = .ok mapping :=
    mapM_succeeds each
  have mapped := mapM_ok.mp run
  have keys : mapping.keys = (decimalMap unit amounts).sortKeys.keys :=
    map_eq_of_forall₂ (fun _ _ step => step.1) mapped
  refine ⟨mapping, run, ?_, ?_⟩
  · rw [keys, ← keys_map (fun _ amount => decimalAmount unit amount) amounts]
    exact agree.keys_perm
  · intro key amount present
    have inside : (key, decimalAmount unit amount) ∈ (decimalMap unit amounts).sortKeys.entries := by
      apply mem_entries_of_get?
      rw [agree key, decimalMap, get?_map, present]
      rfl
    obtain ⟨image, listed, label, written⟩ := exists_of_mem_forall₂ mapped.flip inside
    obtain ⟨raw, done, reads⟩ := serialize_amount (held key amount present)
    have same := Except.ok.inj (written.symm.trans done)
    have found := amountOf_entry listed
    rw [label, same] at found
    rw [found]
    exact reads

end Serialized

/-- The identities that a receipt result carries into the snapshot. -/
def snapshotReceipt (receipt : ReceiptResult) : SnapshotReceipt where
  paidBy := some receipt.paidBy
  itemShares := some receipt.itemShares.keys
  participantShares := some receipt.participantShares.keys
  items := receipt.items.map fun item => some item.participantAllocations.keys
  adjustments := receipt.adjustments.map fun adjustment => some adjustment.participantAllocations.keys
  roundingAdjustments := receipt.roundingAdjustments.map fun rounding => some rounding.participant
  roundingAdjustmentParticipant := receipt.roundingAdjustmentParticipant

def snapshotObligation (obligation : Calculators.Obligation) : SnapshotObligation :=
  ⟨some obligation.debtor, some obligation.creditor, some (decimalAmount obligation.currency obligation.amount),
    some obligation.currency.code⟩

/-- The output of the calculator as a calculation snapshot. -/
def snapshotOf (result : SplitResult) : CalculationSnapshot where
  participants := result.participants
  payer := result.payer
  participantShares := decimalMap result.currency result.participantShares
  totalParticipantShares := some (decimalMap result.currency result.participantShares)
  payerPaidAmounts := some (decimalMap result.currency result.payerPaidAmounts)
  payerOwnShares := some (decimalMap result.currency result.payerOwnShares)
  settlementObligations := result.settlementObligations.map snapshotObligation
  totalPaid := decimalAmount result.currency result.totalPaid
  payerOwnShare := (result.payerSummary.map fun summary =>
    decimalAmount result.currency summary.payerOwnShare).getD .missing
  totalToCollect := result.payerSummary.map fun summary => decimalAmount result.currency summary.totalToCollect
  receipts := result.receipts.map snapshotReceipt

section Collect

variable {context : Context}

/-- An absent amount of the snapshot counts as zero. -/
def snapshotAmount (raw : RawMoney) (label : AmountLabel) : Except FinalizationError ℚ :=
  if raw = .missing then .ok 0 else Number.value <$> (moneyDecimal raw label).mapError .money

/-- The collection total of the snapshot, or the total without the payer's own share. -/
def statedCollection (context : Context) (currency : Currency) (snapshot : CalculationSnapshot)
    (totalPaid : ℚ) :
    Except FinalizationError ℚ :=
  match snapshot.totalToCollect with
  | none => do
    let own ← snapshotAmount snapshot.payerOwnShare .payerOwnShare
    roundForCurrency context currency (context.sub totalPaid own)
  | some raw =>
    if raw = .missing then .error .collectTotalNull
    else Number.value <$> (moneyDecimal raw .totalToCollect).mapError .money

/-- The collection total, proved against the obligations that are going to be stored. -/
def resolveTotalToCollect (input : FinalizationInput context)
    (totalPaid : ℚ) : Except FinalizationError ℚ := do
  let resolved ← statedCollection context input.currency input.snapshot totalPaid
  let owedToPayer := input.request.settlementObligations.filter fun obligation =>
    obligation.creditor = input.request.payerParticipantPublicId
  let obligationsTotal ← roundForCurrency context input.currency
    (context.sumFrom 0 (owedToPayer.map SettlementObligation.amount))
  require (resolved = obligationsTotal) (.collectTotalDiffers resolved obligationsTotal)
  return resolved

theorem ReadsAs.snapshotAmount {raw : RawMoney} {amount : ℚ}
    (reads : ReadsAs context unit raw amount) (label : AmountLabel) :
    Number.value <$> (moneyDecimal raw label).mapError FinalizationError.money = .ok amount := by
  obtain ⟨number, read, rest⟩ := bind_ok.mp (reads label)
  obtain ⟨_, _, rest⟩ := bind_ok.mp rest
  exact map_ok.mpr ⟨number, read, pure_ok.mp rest⟩

end Collect

section Raw

variable {people : List String}

/-- Distinct non-empty names pass the identity loop. -/
theorem identityLoop_ok {values : List String} (seen : List String) (start : ℕ)
    (distinct : (seen ++ values).Nodup) (named : ∀ value ∈ values, value ≠ "") :
    ((values.zipIdx start).foldlM (fun seen entry => do
      requireNonEmptyString entry.1 (.participant entry.2)
      require (entry.1 ∉ seen) (.participantDuplicate entry.1)
      return seen ++ [entry.1]) seen : Except FinalizationError (List String)) = .ok (seen ++ values) := by
  induction values generalizing seen start with
  | nil => rw [append_nil]; rfl
  | cons value rest ih =>
    have fresh : value ∉ seen := by
      intro member
      exact (nodup_append.mp distinct).2.2 _ member _ (by simp) rfl
    have regrouped : seen ++ value :: rest = (seen ++ [value]) ++ rest := by simp
    rw [regrouped] at distinct ⊢
    refine bind_ok.mpr ⟨seen ++ [value], ?_,
      ih _ (start + 1) distinct fun later member => named later (by simp [member])⟩
    exact bind_ok.mpr ⟨(), require_ok.mpr (named value (by simp)), bind_ok.mpr ⟨(), require_ok.mpr fresh, rfl⟩⟩

section

variable (named : ∀ person ∈ people, person ≠ "")
include named

theorem requireParticipant_ok {value : String} (member : value ∈ people) (field : IdentityField) :
    requireParticipant people field value = .ok () :=
  bind_ok.mpr ⟨(), require_ok.mpr (named value member), require_ok.mpr member⟩

theorem mapKeys_ok {keys : List String} (inside : keys ⊆ people) (field : IdentityField) :
    validateReceiptMapKeys people field (some keys) = .ok () :=
  forM_ok.mpr fun _ member => requireParticipant_ok named (inside member) field

omit named in
/-- A check of numbered views passes when it passes for each view under every number. -/
theorem zipIdx_views_ok {α β : Type} {values : List α} {view : α → β}
    {check : β × ℕ → Except FinalizationError Unit}
    (each : ∀ value ∈ values, ∀ index, check (view value, index) = .ok ()) :
    forM (values.map view).zipIdx check = .ok () := by
  apply forM_ok.mpr
  rintro ⟨_, index⟩ member
  obtain ⟨value, listed, rfl⟩ := mem_map.mp (fst_mem_of_mem_zipIdx member)
  exact each value listed index

theorem receiptIdentities_ok {context : Context} {receipt : ReceiptResult}
    (reported : receipt.Reported context unit people payer) (index : ℕ) :
    validateReceiptIdentities people (snapshotReceipt receipt, index) = .ok () := by
  have whole (keys : List String) (same : keys = people) (field : IdentityField) :
      validateReceiptMapKeys people field (some keys) = .ok () :=
    mapKeys_ok named (same ▸ List.Subset.refl _) field
  simp only [validateReceiptIdentities, bind_ok]
  refine ⟨(), requireParticipant_ok named (reported.paidBy ▸ reported.payerIn) _, (), whole _ reported.itemShares _, (),
    whole _ reported.shares.keys _, (), zipIdx_views_ok fun item listed _ => whole _ (reported.items item listed) _, (),
    zipIdx_views_ok fun adjustment listed _ => whole _ (reported.adjustments adjustment listed) _, (),
    zipIdx_views_ok fun rounding listed _ => requireParticipant_ok named (reported.roundings rounding listed) _, ?_⟩
  change requireOptionalParticipant people _ receipt.roundingAdjustmentParticipant = _
  cases found : receipt.roundingAdjustmentParticipant with
  | none => rfl
  | some person => exact requireParticipant_ok named (reported.roundingTo person found) _

end

theorem keys_decimalMap (unit : Currency) (amounts : Dict String ℚ) :
    (decimalMap unit amounts).keys = amounts.keys := keys_map _ amounts

/-- The identities of a single-payer outcome are closed over its participants. -/
theorem rawSnapshot_ok (outcome : SinglePayerOutcome .standard payer result)
    (named : ∀ person ∈ result.participants, person ≠ "") :
    validateRawSnapshotInput (snapshotOf result) = .ok () := by
  have nonempty : result.participants ≠ [] := ne_nil_of_mem outcome.payerIn
  have loop := identityLoop_ok [] 0 outcome.nodup named
  have whole (amounts : Dict String ℚ) (inside : amounts.keys ⊆ result.participants) (field : IdentityField) :
      validateReceiptMapKeys result.participants field (some (decimalMap result.currency amounts).keys) = .ok () :=
    mapKeys_ok named (keys_decimalMap result.currency amounts ▸ inside) field
  simp only [validateRawSnapshotInput, validateNestedIdentityClosed, bind_ok, expect_ok, require_ok]
  refine ⟨(), nonempty, _, loop, payer, outcome.payerNamed, (), require_ok.mpr (named payer outcome.payerIn), (), ?_, (),
    whole _ (outcome.paidKeys ▸ List.Subset.refl _) _, (), ?_, (), whole _ (outcome.shares.keys ▸ List.Subset.refl _) _,
    (), zipIdx_views_ok fun obligation listed _ => ?_, zipIdx_views_ok fun receipt listed index =>
      receiptIdentities_ok named (outcome.receipts receipt listed) index⟩
  · apply forM_ok.mpr
    intro key member
    change key ∈ (decimalMap result.currency result.participantShares).keys at member
    rw [keys_decimalMap, outcome.shares.keys] at member
    exact require_ok.mpr (named key member)
  · apply whole
    rw [Dict.keys, outcome.ownShares]
    exact cons_subset.mpr ⟨outcome.payerIn, nil_subset _⟩
  · rw [outcome.obligations] at listed
    obtain ⟨debt, inside, rfl⟩ := mem_map.mp listed
    have debtorIn : debt.1 ∈ result.participants := by
      have key := (Settlement.keys_sortedDebtors .standard result.balance result.participants).subset
        (mem_map_of_mem inside)
      exact (mem_filter.mp key).1
    exact bind_ok.mpr ⟨(), requireParticipant_ok named debtorIn _, requireParticipant_ok named outcome.payerIn _⟩

end Raw

/-- What a debtor of the outcome owes. -/
abbrev outcomeDebts (result : SplitResult) : List (String × ℚ) :=
  Settlement.sortedDebtors Context.standard result.balance result.participants

section

variable (outcome : SinglePayerOutcome Context.standard payer result) {person : String}
include outcome

theorem outcome_balance (member : person ∈ result.participants) :
    result.balance person =
      (if person = payer then result.totalPaid else 0) - shareOf result.participantShares person := by
  rw [SplitResult.balance, outcome.paid person member]

theorem outcome_share_nonneg (member : person ∈ result.participants) : 0 ≤ shareOf result.participantShares person :=
  Calculators.shareOf_all outcome.shares.keys outcome.shares.nonneg member

theorem outcome_payer_covered : 0 ≤ result.balance payer := by
  have below : shareOf result.participantShares payer ≤ result.totalPaid := by
    rw [← outcome.total]
    apply single_le_sum
    · exact forall_mem_map.mpr fun other inside => outcome_share_nonneg outcome inside
    · exact mem_map_of_mem outcome.payerIn
  rw [outcome_balance outcome outcome.payerIn, if_pos rfl]
  linarith

theorem mem_outcomeDebts (entry : String × ℚ) :
    entry ∈ outcomeDebts result ↔ entry.1 ∈ result.participants ∧ entry.1 ≠ payer ∧
      0 < shareOf result.participantShares entry.1 ∧ entry.2 = shareOf result.participantShares entry.1 := by
  rw [outcomeDebts, Settlement.sortedDebtors, (Settlement.sortEntries_perm _ _).mem_iff, Settlement.mem_debitEntries]
  constructor
  · rintro ⟨member, negative, same⟩
    have other : entry.1 ≠ payer := by
      intro here
      rw [here] at negative
      exact absurd negative (not_lt.mpr (outcome_payer_covered outcome))
    rw [Settlement.neg_held (outcome.balanceHeld entry.1 member)] at same
    rw [outcome_balance outcome member, if_neg other, zero_sub] at negative same
    exact ⟨member, other, neg_lt_zero.mp negative, by rw [same, neg_neg]⟩
  · rintro ⟨member, other, positive, same⟩
    have balance : result.balance entry.1 = -shareOf result.participantShares entry.1 := by
      rw [outcome_balance outcome member, if_neg other, zero_sub]
    refine ⟨member, by rw [balance]; exact neg_lt_zero.mpr positive, ?_⟩
    rw [Settlement.neg_held (outcome.balanceHeld entry.1 member), balance, neg_neg, same]

theorem outcomeDebts_nodup : ((outcomeDebts result).map Prod.fst).Nodup :=
  (Settlement.keys_sortedDebtors .standard result.balance result.participants).nodup_iff.mpr (outcome.nodup.filter _)

theorem outcomeDebts_collected :
    ((outcomeDebts result).map Prod.snd).sum = result.totalPaid - shareOf result.participantShares payer := by
  have losses : ∀ person ∈ result.participants, person ≠ payer → result.balance person ≤ 0 := by
    intro person member other
    rw [outcome_balance outcome member, if_neg other, zero_sub, neg_nonpos]
    exact outcome_share_nonneg outcome member
  have paidSum : (result.participants.map (shareOf result.payerPaidAmounts)).sum = result.totalPaid := by
    rw [Settlement.sum_single outcome.nodup outcome.payerIn, outcome.paid payer outcome.payerIn, if_pos rfl]
    intro person member other
    rw [outcome.paid person member, if_neg other]
  have zero : (result.participants.map result.balance).sum = 0 :=
    Calculators.sum_differences (paidSum.trans outcome.total.symm)
  have total := Calculators.total_sortedDebtors outcome.nodup outcome.payerIn outcome.balanceHeld losses zero
  rw [outcome_balance outcome outcome.payerIn, if_pos rfl] at total
  exact total

theorem outcome_listed : (snapshotOf result).settlementObligations = (outcomeDebts result).map fun entry =>
    snapshotObligation ⟨entry.1, payer, entry.2, result.currency⟩ := by
  change result.settlementObligations.map snapshotObligation = _
  rw [outcome.obligations, map_map]
  rfl

/-- The obligations of the outcome are serialized as requests to its debtors. -/
theorem outcome_obligations :
    ∃ obligations, (snapshotOf result).settlementObligations.mapM serializeObligation = .ok obligations ∧
      Forall₂ (Asks .standard result.currency payer) (outcomeDebts result) obligations := by
  have each : ∀ entry ∈ outcomeDebts result, ∃ debt, serializeObligation
      (snapshotObligation ⟨entry.1, payer, entry.2, result.currency⟩) = .ok debt ∧
        Asks .standard result.currency payer entry debt := by
    intro entry member
    obtain ⟨inside, _, _, same⟩ := (mem_outcomeDebts outcome entry).mp member
    have held := Calculators.shareOf_all outcome.shares.keys outcome.sharesHeld inside
    rw [← same] at held
    obtain ⟨raw, written, reads⟩ := serialize_amount held
    refine ⟨⟨some entry.1, some payer, some raw, some result.currency.code⟩, ?_, rfl, rfl, rfl, raw, rfl, reads⟩
    exact bind_ok.mpr ⟨some raw, map_ok.mpr ⟨raw, written, rfl⟩, rfl⟩
  rw [outcome_listed outcome]
  exact mapM_map_related each

/-- The serialized snapshot of a single-payer outcome states a settled split. -/
theorem outcome_settled (named : ∀ person ∈ result.participants, person ≠ "") :
    ∃ snapshot, serializeSnapshot (snapshotOf result) = .ok snapshot ∧
      Settled .standard result.currency snapshot payer result.totalPaid
        (shareOf result.participantShares) (outcomeDebts result) ∧
      ∃ raw, snapshot.totalToCollect = some raw ∧ ReadsAs .standard result.currency raw
        (result.totalPaid - shareOf result.participantShares payer) := by
  obtain ⟨summary, summarised, ownIs, collects⟩ := outcome.summary
  have paidHeld : result.payerPaidAmounts.All (standard.Holds (minorUnits result.currency)) := by
    intro person amount found
    have member : person ∈ result.participants := by
      rw [← outcome.paidKeys, ← get?_isSome, found]
      rfl
    have same := outcome.paid person member
    rw [shareOf, found, Option.getD_some] at same
    rw [same]
    split_ifs
    · exact outcome.totalHeld
    · exact standard.holds_zero _
  obtain ⟨shares, sharesRun, shareKeys, sharesRead⟩ := serialize_map outcome.sharesHeld
  obtain ⟨paid, paidRun, paidKeys, paidRead⟩ := serialize_map paidHeld
  have payerHeld := Calculators.shareOf_all outcome.shares.keys outcome.sharesHeld outcome.payerIn
  have ownHeld : result.payerOwnShares.All (standard.Holds (minorUnits result.currency)) := by
    intro person amount found
    have listed := mem_entries_of_get? found
    rw [outcome.ownShares] at listed
    obtain ⟨_, rfl⟩ := Prod.mk.inj (mem_singleton.mp listed)
    exact payerHeld
  have collectHeld : standard.Holds (minorUnits result.currency)
      (result.totalPaid - shareOf result.participantShares payer) := by
    have held := outcome.balanceHeld payer outcome.payerIn
    rwa [outcome_balance outcome outcome.payerIn, if_pos rfl] at held
  obtain ⟨owns, ownsRun, _, _⟩ := serialize_map ownHeld
  obtain ⟨total, totalRun, totalRead⟩ := serialize_amount outcome.totalHeld
  obtain ⟨own, ownRun, ownRead⟩ := serialize_amount payerHeld
  obtain ⟨collect, collectRun, collectRead⟩ := serialize_amount collectHeld
  obtain ⟨obligations, obligationsRun, asked⟩ := outcome_obligations outcome
  rw [← ownIs] at ownRun
  rw [← collects] at collectRun
  have optionOk {α : Type} {serialize : α → Except FinalizationError α} {value written : α}
      (run : serialize value = .ok written) : serializeOption serialize (some value) = .ok (some written) :=
    map_ok.mpr ⟨written, run, rfl⟩
  have run : serializeSnapshot (snapshotOf result) = .ok { snapshotOf result with
      participantShares := shares, totalParticipantShares := some shares, payerPaidAmounts := some paid,
      payerOwnShares := some owns, settlementObligations := obligations, totalPaid := total, payerOwnShare := own,
      totalToCollect := some collect } := by
    simp only [serializeSnapshot, bind_ok]
    refine ⟨_, sharesRun, _, optionOk sharesRun, _, optionOk paidRun, _, optionOk ownsRun, _, obligationsRun, _, totalRun,
      own, ?_, some collect, ?_, rfl⟩
    · dsimp only [snapshotOf]
      rw [summarised]
      exact ownRun
    · dsimp only [snapshotOf]
      rw [summarised]
      exact optionOk collectRun
  refine ⟨_, run, ⟨outcome.nodup, named, outcome.payerIn, outcome.payerNamed, ?_, ?_, rfl, ⟨paid, rfl, ?_, ?_⟩,
    totalRead, ownRead, ?_, outcome.total, outcomeDebts_nodup outcome, mem_outcomeDebts outcome,
    outcomeDebts_collected outcome, asked⟩, collect, rfl, collectRead⟩
  · change shares.keys.Perm result.participants
    rw [← outcome.shares.keys]
    exact shareKeys
  · intro person member
    exact sharesRead person _ (shareOf_get? outcome.shares.keys member)
  · change paid.keys.Perm result.participants
    rw [← outcome.paidKeys]
    exact paidKeys
  · intro person member
    rw [← outcome.paid person member]
    exact paidRead person _ (shareOf_get? outcome.paidKeys member)
  · intro person member
    exact outcome_share_nonneg outcome member

end

theorem settlementObligation_ok {context : Context} {debtor creditor : String} {amount : ℚ}
    (parties : debtor ≠ creditor) (positive : 0 < amount)
    (held : context.Holds (minorUnits unit) amount) :
    settlementObligation context debtor creditor amount unit =
      .ok ⟨debtor, creditor, amount, unit, parties, positive, held⟩ := by
  unfold settlementObligation
  rw [dif_neg parties, dif_neg (not_le.mpr positive)]
  split
  · rename_i failure failed
    have passed : validateAmountForCurrency context amount unit (AmountLabel.obligation debtor creditor) = .ok () :=
      validateAmountForCurrency_ok.mpr held
    rw [passed] at failed
    cases failed
  · rfl

/-- The obligations of the outcome become obligations of the finalization. -/
theorem outcome_submits (outcome : SinglePayerOutcome .standard payer result) :
    ∃ obligations, toSettlementObligations (snapshotOf result).settlementObligations result.currency =
        .ok obligations ∧
      Forall₂ (@Submits .standard result.currency payer) (outcomeDebts result) obligations := by
  rw [outcome_listed outcome]
  apply mapM_zipIdx_related
  intro index entry member
  obtain ⟨inside, other, positive, same⟩ := (mem_outcomeDebts outcome entry).mp member
  have held := Calculators.shareOf_all outcome.shares.keys outcome.sharesHeld inside
  rw [← same] at positive held
  refine ⟨⟨entry.1, payer, entry.2, result.currency, other, positive, held⟩, ?_, rfl, rfl, rfl, rfl⟩
  refine bind_ok.mpr ⟨_, rfl, bind_ok.mpr ⟨_, rfl, bind_ok.mpr ⟨_, rfl, bind_ok.mpr
    ⟨scaledNumber (minorUnits result.currency) entry.2, rfl, bind_ok.mpr ⟨(), require_ok.mpr rfl, ?_⟩⟩⟩⟩⟩
  rw [scaledNumber_value held.atScale]
  exact settlementObligation_ok other positive held

/-- The request that is built from the output of the calculator; the rest comes from the base request. -/
def finalizationOf (base : FinalizationRequest Context.standard) (result : SplitResult)
    (payer : String)
    (obligations : List (SettlementObligation Context.standard)) : FinalizationRequest Context.standard :=
  { base with
    currency := result.currency.code
    payerParticipantPublicId := payer
    settlementObligations := obligations
    calculationSnapshot := snapshotOf result }

/-- The arguments that do not come from the calculator pass their own checks. -/
structure BaseAccepted (base : FinalizationRequest Context.standard) (result : SplitResult)
    (payer : String) :
    Prop where
  evidence : validateEvidenceRefs base.sourceEvidenceRefs = .ok ()
  header : validateHeader (finalizationOf base result payer []) = .ok result.currency

section Submitted

variable {snapshot : CalculationSnapshot} {total : ℚ} {share : String → ℚ} {debts : List (String × ℚ)}
  {obligations : List (SettlementObligation Context.standard)}
  (submitted : Forall₂ (Submits unit payer) debts obligations)

include submitted

theorem submits_header : ∀ debt ∈ obligations, requireObligationHeader unit payer debt = .ok () := by
  intro debt member
  obtain ⟨entry, _, asked⟩ := exists_of_mem_forall₂ submitted member
  exact bind_ok.mpr ⟨(), require_ok.mpr asked.inCurrency, require_ok.mpr asked.creditor⟩

/-- What the submitted obligations collect is what the payer is owed. -/
theorem Settled.obligationsTotal (settled : Settled .standard unit snapshot payer total share debts) :
    roundForCurrency .standard unit (standard.sumFrom 0
      ((obligations.filter fun debt => debt.creditor = payer).map SettlementObligation.amount)) =
        .ok (total - share payer) := by
  have all : (obligations.filter fun debt => debt.creditor = payer) = obligations := by
    apply filter_eq_self.mpr
    intro debt member
    obtain ⟨entry, _, asked⟩ := exists_of_mem_forall₂ submitted member
    exact decide_eq_true asked.creditor
  rw [all, settled.sum_submitted submitted]
  exact roundForCurrency_held settled.collection_held

end Submitted

/-- A finalization built from the output of a single-payer calculation is accepted and resolves the collection total
of the calculation. -/
theorem calculator_output_accepted {caseData : CaseData} {fuel : ℕ}
    (base : FinalizationRequest Context.standard) (order : SetOrder)
    (single : ∀ receipt ∈ caseData.receipts, receipt.paidBy = some payer)
    (calculated : calculateReceiptSplit Context.standard fuel caseData = .ok result)
    (named : ∀ participant ∈ result.participants, participant ≠ "") (something : result.totalPaid ≠ 0)
    (others : BaseAccepted base result payer) :
    ∃ obligations summary, ∃ input : FinalizationInput Context.standard,
      toSettlementObligations (snapshotOf result).settlementObligations result.currency = .ok obligations ∧
      input.request = finalizationOf base result payer obligations ∧ input.order = order ∧
      result.payerSummary = some summary ∧
      snapshotAmount input.snapshot.totalPaid .totalPaid = .ok result.totalPaid ∧
      resolveTotalToCollect input result.totalPaid = .ok summary.totalToCollect := by
  have outcome := calculateReceiptSplit_single single calculated something
  obtain ⟨summary, summarised, _, collects⟩ := outcome.summary
  obtain ⟨obligations, converted, submitted⟩ := outcome_submits outcome
  obtain ⟨snapshot, serialized, settled, collect, stated, collectRead⟩ := outcome_settled outcome named
  have accepted : acceptRequest order (finalizationOf base result payer obligations) =
      .ok (result.currency, snapshot) := by
    simp only [acceptRequest, bind_ok, forM_ok]
    exact ⟨(), others.evidence, (), rawSnapshot_ok outcome named, snapshot, serialized, result.currency, others.header, (),
      submits_header submitted, (), settled.validateCalculationSnapshot_ok submitted order, rfl⟩
  refine ⟨obligations, summary, ⟨_, order, _, snapshot, accepted⟩, converted, rfl, rfl, summarised, ?_, ?_⟩
  · exact (if_neg settled.totalRead.stated).trans (settled.totalRead.snapshotAmount .totalPaid)
  · refine bind_ok.mpr ⟨summary.totalToCollect, ?_, bind_ok.mpr
      ⟨summary.totalToCollect, ?_, bind_ok.mpr ⟨(), require_ok.mpr rfl, rfl⟩⟩⟩
    · unfold statedCollection
      rw [stated, collects]
      exact (if_neg collectRead.stated).trans (collectRead.snapshotAmount .totalToCollect)
    · rw [collects]
      exact settled.obligationsTotal submitted

/-- A request that only carries its identities. -/
def bareRequest : FinalizationRequest Context.standard where
  calculationRunPublicId := "run-1"
  receiptGroupPublicId := "group-1"
  currency := ""
  payerParticipantPublicId := ""
  settlementObligations := []
  calculationSnapshot := ⟨[], none, Dict.empty, none, none, none, [], .missing, .missing, none, []⟩

/-- One receipt that the first participant paid and everybody shares. -/
def sharedCase (participants : List String) (amount : String) : CaseData where
  currency := some "SGD"
  participants := some participants
  receipts := [{
    paidBy := some "ana"
    items := some [{ amount := some (.text amount), participants := some participants }] }]

theorem calculator_output_accepted_shared :
    ∃ result obligations summary, ∃ input : FinalizationInput Context.standard,
      calculateReceiptSplit Context.standard 3 (sharedCase ["ana", "ben", "eve"] "10.00") = .ok result ∧
      input.request = finalizationOf bareRequest result "ana" obligations ∧
      result.payerSummary = some summary ∧
      resolveTotalToCollect input result.totalPaid = .ok summary.totalToCollect := by
  obtain ⟨result, calculated, participants, total, header⟩ :
      ∃ result, calculateReceiptSplit Context.standard 3 (sharedCase ["ana", "ben", "eve"] "10.00") = .ok result ∧
        result.participants = ["ana", "ben", "eve"] ∧ result.totalPaid = 10 ∧
        validateHeader (finalizationOf bareRequest result "ana" []) = .ok result.currency := by
    decide +kernel
  have named : ∀ participant ∈ result.participants, participant ≠ "" := by
    rw [participants]
    decide
  have single : ∀ receipt ∈ (sharedCase ["ana", "ben", "eve"] "10.00").receipts, receipt.paidBy = some "ana" := by
    intro receipt member
    rw [List.mem_singleton.mp member]
  obtain ⟨obligations, summary, input, _, built, _, summarised, _, resolved⟩ :=
    calculator_output_accepted bareRequest SetOrder.listed single calculated named (by rw [total]; norm_num)
      ⟨rfl, header⟩
  exact ⟨result, obligations, summary, input, calculated, built, summarised, resolved⟩

/-- A participant without a name and a case in which nothing was paid are refused. -/
theorem calculator_output_refused :
    (∃ result, calculateReceiptSplit Context.standard 3 (sharedCase ["ana", ""] "10.00") = .ok result ∧
      ∀ order obligations, acceptRequest order (finalizationOf bareRequest result "ana" obligations) =
        .error (.blank (.participant 1))) ∧
    (∃ result, calculateReceiptSplit Context.standard 3 (sharedCase ["ana", "ben"] "0.00") = .ok result ∧
      ∀ order obligations, acceptRequest order (finalizationOf bareRequest result "ana" obligations) =
        .error .payerMissing) := by
  obtain ⟨unnamedResult, unnamedRun, blank⟩ :
      ∃ result, calculateReceiptSplit Context.standard 3 (sharedCase ["ana", ""] "10.00") = .ok result ∧
        validateRawSnapshotInput (snapshotOf result) = .error (.blank (.participant 1)) := by
    decide +kernel
  obtain ⟨unpaidResult, unpaidRun, missing⟩ :
      ∃ result, calculateReceiptSplit Context.standard 3 (sharedCase ["ana", "ben"] "0.00") = .ok result ∧
        validateRawSnapshotInput (snapshotOf result) = .error .payerMissing := by
    decide +kernel
  have refused {result : SplitResult} {failure : FinalizationError}
      (fails : validateRawSnapshotInput (snapshotOf result) = .error failure) (order : SetOrder)
      (obligations : List (SettlementObligation Context.standard)) :
      acceptRequest order (finalizationOf bareRequest result "ana" obligations) = .error failure := by
    change (do validateRawSnapshotInput (snapshotOf result); _ : Except FinalizationError _) = _
    rw [fails]
    rfl
  exact ⟨⟨unnamedResult, unnamedRun, refused blank⟩, ⟨unpaidResult, unpaidRun, refused missing⟩⟩

end FinanceCore.ReceiptFinalization

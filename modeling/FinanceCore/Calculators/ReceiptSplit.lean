import FinanceCore.Calculators.ExactShares
import FinanceCore.Calculators.MinorUnits
import FinanceCore.Calculators.Obligations

namespace FinanceCore.Calculators

open Decimal Exceptions Money

structure RoundingAdjustment where
  participant : String
  amount : ℚ
  policy : RemainderPolicy

/-- The result for one receipt. -/
structure ReceiptResult where
  (receiptId label merchant : Option String)
  currency : Currency
  paidBy : String
  netPaid : ℚ
  itemShares : Dict String ℚ
  items : List ItemDetail
  adjustments : List AdjustmentDetail
  participantShares : Dict String ℚ
  roundingAdjustments : List RoundingAdjustment
  roundingAdjustment : ℚ
  roundingAdjustmentParticipant : Option String

/-- The part of the result that a primary payer adds. -/
structure PayerSummary where
  obligations : Dict String ℚ
  (payerOwnShare totalToCollect totalPaidByPayer : ℚ)

structure SplitResult where
  caseId : Option String
  currency : Currency
  status : String
  participants : List String
  payer : Option String
  (participantShares payerPaidAmounts payerOwnShares : Dict String ℚ)
  settlementObligations : List Obligation
  totalPaid : ℚ
  receipts : List ReceiptResult
  participantDisplayNames : Option (Dict String String)
  payerSummary : Option PayerSummary

def appendUnique (values : List String) (value : Option String) : List String :=
  match value with
  | some value => if value ∈ values then values else values ++ [value]
  | none => values

def allocationKeys (allocations : Option (Dict String RawMoney)) : List (Option String) :=
  (allocations.map Dict.keys).getD [] |>.map some

/-- The participants that one receipt mentions, in the order of the derivation. -/
def mentionedParticipants (payer : Option String) (receipt : Receipt) : List (Option String) :=
  (receipt.paidBy.orElse fun _ => payer) ::
    ((receipt.items.getD []).flatMap fun item =>
      (itemParticipants item).map some ++ allocationKeys item.allocations) ++
    ((receipt.adjustments.getD []).flatMap fun adjustment => allocationKeys adjustment.allocations) ++
    allocationKeys receipt.discountAllocations

/-- An empty participant list is derived from the receipts. -/
def caseParticipants (caseData : CaseData) : Except SplitError (List String) :=
  let listed := caseData.participants.getD []
  let participants :=
    if listed = [] then
      caseData.receipts.foldl (fun participants receipt =>
        (mentionedParticipants caseData.payer receipt).foldl appendUnique participants) listed
    else listed
  if participants = [] then .error .participantsRequired else .ok participants

def resolveAuthoritativeCurrency (caseData : CaseData) : Except SplitError Currency := do
  let raw ← expect caseData.currency .currencyRequired
  ofMoney (normalizeCurrency raw)

/-- Every nested currency that is present must be the authoritative one. -/
def validateNestedCurrencyConsistency (receipt : Receipt)
    (currency : Currency) : Except SplitError Unit := do
  forM ((receipt.items.getD []).zipIdx) fun entry =>
    match entry.1.currency with
    | some raw => ofMoney (requireSameCurrency currency.code raw .authoritativeCurrency
        (.itemCurrency (receiptLabel receipt) entry.2))
    | none => .ok ()
  forM ((receipt.adjustments.getD []).zipIdx) fun entry =>
    match entry.1.currency with
    | some raw => ofMoney (requireSameCurrency currency.code raw .authoritativeCurrency
        (.adjustmentCurrency (receiptLabel receipt) entry.2 (entry.1.type.getD "unknown")))
    | none => .ok ()

/-- The currency of a receipt defaults to the authoritative one but cannot be empty. -/
def receiptCurrency (receipt : Receipt) (currency : Currency) : Except SplitError String :=
  expect (receipt.currency.getD (some currency.code)) .receiptCurrencyRequired

section Calculate

variable (context : Context)

def requireReceiptCurrency (receipt : Receipt) (currency : Currency) : Except SplitError Unit := do
  let raw ← receiptCurrency receipt currency
  ofMoney (requireSameCurrency currency.code raw .authoritativeCurrency
    (.receiptCurrency (receiptLabel receipt)))

/-- The rounded difference of one participant, when it is not zero. -/
def roundingAdjustmentOf (exact final : Dict String ℚ) (policy : RemainderPolicy)
    (currency : Currency)
    (participant : String) : Except SplitError (Option RoundingAdjustment) := do
  let finalShare ← expect (final.get? participant) (.missingKey participant)
  let exactShare ← expect (exact.get? participant) (.missingKey participant)
  let amount ← roundForCurrency context (context.sub finalShare exactShare) currency
  return if amount ≠ 0 then some ⟨participant, amount, policy⟩ else none

def calculateReceipt (receipt : Receipt) (allParticipants : List String) (currency : Currency) :
    Except SplitError ReceiptResult := do
  let payer ← expect receipt.paidBy .payerRequired
  require (payer ∈ allParticipants) (.unknownPayer payer)
  requireReceiptCurrency receipt currency
  validateNestedCurrencyConsistency receipt currency
  let items ← itemShares context receipt allParticipants currency
  let exact ← computeExactReceiptShares context receipt allParticipants currency
  let policy := receipt.roundingPolicy.getD .largestRemainder
  let final ← allocateMinorUnits context exact.participantShares exact.netPaid currency allParticipants
    policy (if policy = .payer then some payer else none)
  let roundings ← allParticipants.mapM
    (roundingAdjustmentOf context exact.participantShares final policy currency)
  let roundingAdjustments := roundings.filterMap id
  let itemShareMap ← roundedShareMap context items.1 currency
  let roundingAdjustment ← roundForCurrency context
    (context.sumFrom 0 (roundingAdjustments.map RoundingAdjustment.amount)) currency
  return {
    receiptId := orText receipt.receiptId receipt.id
    label := orText receipt.label receipt.merchant
    merchant := orText receipt.merchant receipt.label
    currency
    paidBy := payer
    netPaid := exact.netPaid
    itemShares := itemShareMap
    items := items.2
    adjustments := exact.adjustmentDetails
    participantShares := final
    roundingAdjustments
    roundingAdjustment
    roundingAdjustmentParticipant := if roundingAdjustments = [] then none else some payer }

/-- The shares, the payments and the results that the receipts so far add up to. -/
structure Accumulated where
  (participantShares payerPaidAmounts : Dict String ℚ)
  receiptResults : List ReceiptResult

def receiptStep (participants : List String) (currency : Currency) (state : Accumulated)
    (receipt : Receipt) : Except SplitError Accumulated := do
  requireReceiptCurrency receipt currency
  let result ← calculateReceipt context receipt participants currency
  let paid ← expect (state.payerPaidAmounts.modify? result.paidBy fun amount =>
    context.add amount result.netPaid) (.missingKey result.paidBy)
  let shares ← addAllocations context state.participantShares result.participantShares
  return ⟨shares, paid, state.receiptResults ++ [result]⟩

def validatePrimaryPayer (primaryPayer : String) (participants actualPayers : List String) :
    Except SplitError Unit := do
  require (primaryPayer ≠ "") .primaryPayerEmpty
  require (primaryPayer ∈ participants) (.primaryPayerUnknown primaryPayer)
  require (primaryPayer ∈ actualPayers) (.primaryPayerDidNotPay primaryPayer)
  require (actualPayers.length = 1 → actualPayers.head? = some primaryPayer)
    (.primaryPayerNotSole primaryPayer)

/-- The named payer must have paid; without one the only payer is taken. -/
def resolvePrimaryPayer (payer : Option String) (participants payers : List String) :
    Except SplitError (Option String) :=
  match payer with
  | some primaryPayer => do
    validatePrimaryPayer primaryPayer participants payers
    return some primaryPayer
  | none => .ok (if payers.length = 1 then payers.head? else none)

def payerSummaryOf (primaryPayer : String) (participantShares payerPaidAmounts : Dict String ℚ)
    (obligations : List Obligation) (currency : Currency) : Except SplitError PayerSummary := do
  let payerObligations := Dict.ofList ((obligations.filter fun obligation =>
    obligation.creditor = primaryPayer).map fun obligation => (obligation.debtor, obligation.amount))
  let ownShare ← expect (participantShares.get? primaryPayer) (.missingKey primaryPayer)
  let totalToCollect ← roundForCurrency context (context.sumFrom 0 payerObligations.values) currency
  let paid ← expect (payerPaidAmounts.get? primaryPayer) (.missingKey primaryPayer)
  return ⟨payerObligations, ownShare, totalToCollect, paid⟩

/-- The deterministic split of all receipts with its settlement obligations. -/
def calculateReceiptSplit (fuel : ℕ) (caseData : CaseData) : Except SplitError SplitResult := do
  require (caseData.receipts ≠ []) .receiptsRequired
  let participants ← caseParticipants caseData
  require participants.Nodup (.duplicateParticipants participants)
  let currency ← resolveAuthoritativeCurrency caseData
  let state ← caseData.receipts.foldlM (receiptStep context participants currency)
    ⟨emptyShares participants, emptyShares participants, []⟩
  let participantShares ← roundedShareMap context state.participantShares currency
  let payerPaidAmounts ← roundedShareMap context state.payerPaidAmounts currency
  let payers := (payerPaidAmounts.entries.filter fun entry => entry.2 ≠ 0).map Prod.fst
  let primaryPayer ← resolvePrimaryPayer caseData.payer participants payers
  let obligations ← settlementObligations context currency fuel participants participantShares
    payerPaidAmounts
  let totalPaid ← roundForCurrency context (context.sumFrom 0 payerPaidAmounts.values) currency
  let totalShares ← roundForCurrency context (context.sumFrom 0 participantShares.values) currency
  require (totalShares = totalPaid) (.totalsMismatch totalShares totalPaid)
  let ownShares ← payers.mapM fun payer =>
    (payer, ·) <$> expect (participantShares.get? payer) (.missingKey payer)
  let summary ←
    match primaryPayer with
    | some primaryPayer =>
      some <$> payerSummaryOf context primaryPayer participantShares payerPaidAmounts obligations currency
    | none => .ok none
  return {
    caseId := caseData.caseId
    currency
    status := caseData.status.getD "calculated_pending_confirmation"
    participants
    payer := primaryPayer
    participantShares
    payerPaidAmounts
    payerOwnShares := Dict.ofList ownShares
    settlementObligations := obligations
    totalPaid
    receipts := state.receiptResults
    participantDisplayNames := caseData.participantDisplayNames.filter fun names => names.entries ≠ []
    payerSummary := summary }

end Calculate

end FinanceCore.Calculators

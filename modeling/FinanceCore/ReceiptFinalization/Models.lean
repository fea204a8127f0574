import FinanceCore.Foundation.Dict
import FinanceCore.Money.CanonicalText

namespace FinanceCore.ReceiptFinalization

open Decimal Exceptions Money Text

/-- The fields that the finalization reads as money. -/
inductive AmountLabel where
  | totalPaid
  | payerOwnShare
  | share (participant : String)
  | totalShare (participant : String)
  | paid (participant : String)
  | obligation (debtor creditor : String)
  | snapshotObligation (index : ℕ)
  | settlementObligation
  | totalToCollect
deriving DecidableEq

/-- The mappings of a snapshot whose keys are participants. -/
inductive NestedField where
  | payerPaidAmounts
  | payerOwnShares
  | totalParticipantShares
deriving DecidableEq

/-- The fields that name a participant. -/
inductive IdentityField where
  | participant (index : ℕ)
  | payer
  | shareKey
  | nestedKey (field : NestedField)
  | debtor (obligation : ℕ)
  | creditor (obligation : ℕ)
  | paidBy (receipt : ℕ)
  | itemSharesKey (receipt : ℕ)
  | receiptSharesKey (receipt : ℕ)
  | itemAllocationKey (receipt item : ℕ)
  | adjustmentAllocationKey (receipt adjustment : ℕ)
  | roundingParticipant (receipt adjustment : ℕ)
  | roundingAdjustmentParticipant (receipt : ℕ)
deriving DecidableEq

/-- The rejections of a finalization input. -/
inductive FinalizationError where
  | selfObligation (participant : String)
  | obligationNotPositive (debtor creditor : String) (amount : ℚ)
  | money (failure : MoneyError AmountLabel)
  | evidenceEmpty (index : ℕ)
  | evidenceDuplicate (reference : String)
  | blank (field : IdentityField)
  | unknownParticipant (field : IdentityField) (value : String)
  | participantsEmpty
  | participantDuplicate (publicId : String)
  | participantsDuplicate
  | payerMissing
  | decimalNotFinite
  | decimalTooLong
  | runRequired
  | groupRequired
  | payerRequired
  | unsupportedCurrency (code : String)
  | snapshotHashMalformed
  | snapshotIdRequired
  | contractVersionRequired
  | actorType (name : String)
  | obligationCurrency (found expected : Currency)
  | foreignCurrency (found : String) (expected : Currency)
  | creditorNotPayer (creditor payer : String)
  | obligationCount (actual expected : ℕ)
  | obligationFieldMissing (index : ℕ) (field : String)
  | obligationFieldEmpty (index : ℕ) (field : String)
  | obligationsDiffer
  | payerDiffers (snapshotPayer payer : String)
  | payerNotParticipant (payer : String)
  | shareKeysDiffer (missing extra : List String)
  | sharesTotal (sum total : ℚ)
  | payerOwnShareDiffers (own share : ℚ)
  | totalShareDiffers (participant : String) (expected actual : ℚ)
  | paidTotal (sum total : ℚ)
  | payerPaidDiffers (paid total : ℚ)
  | nonPayerPaid (participant : String) (paid : ℚ)
  | balancesNotZero (sum : ℚ)
  | obligationsWithoutBalance
  | notSoleCreditor (creditors : List String)
  | debtorAmountsDiffer
  | collectTotal (actual expected : ℚ)
  | collectTotalNull
  | collectTotalDiffers (resolved obligations : ℚ)
deriving DecidableEq

section Obligations

variable (context : Context)

/-- An obligation that passed its own checks: two parties and a positive amount at the scale of the currency. -/
structure SettlementObligation where
  (debtor creditor : String)
  amount : ℚ
  currency : Currency
  parties : debtor ≠ creditor
  positive : 0 < amount
  held : context.Holds (minorUnits currency) amount

/-- The checks that run when an obligation is constructed. -/
def settlementObligation (debtor creditor : String) (amount : ℚ) (currency : Currency) :
    Except FinalizationError (SettlementObligation context) :=
  if self : debtor = creditor then .error (.selfObligation debtor)
  else if sign : amount ≤ 0 then .error (.obligationNotPositive debtor creditor amount)
  else
    match scale : validateAmountForCurrency context amount currency (AmountLabel.obligation debtor creditor) with
    | .error failure => .error (.money failure)
    | .ok _ => .ok ⟨debtor, creditor, amount, currency, self, not_le.mp sign, validateAmountForCurrency_ok.mp scale⟩

end Obligations

/-- An obligation entry of a snapshot; an absent field is `none`. -/
structure SnapshotObligation where
  (debtor creditor : Option String)
  amount : Option RawMoney
  currency : Option String

/-- The identities of one receipt result in a snapshot; an absent field is `none`. -/
structure SnapshotReceipt where
  paidBy : Option String
  (itemShares participantShares : Option (List String))
  (items adjustments : List (Option (List String)))
  roundingAdjustments : List (Option String)
  roundingAdjustmentParticipant : Option String

/-- The calculation snapshot as the finalization reads it; a missing amount is `RawMoney.missing`. -/
structure CalculationSnapshot where
  participants : List String
  payer : Option String
  participantShares : Dict String RawMoney
  (totalParticipantShares payerPaidAmounts payerOwnShares : Option (Dict String RawMoney))
  settlementObligations : List SnapshotObligation
  (totalPaid payerOwnShare : RawMoney)
  totalToCollect : Option RawMoney
  receipts : List SnapshotReceipt

/-- Evidence references are non-empty and distinct. -/
def validateEvidenceRefs (refs : List String) : Except FinalizationError Unit := do
  let _ ← refs.zipIdx.foldlM (fun seen entry => do
    require (entry.1 ≠ "") (.evidenceEmpty entry.2)
    require (entry.1 ∉ seen) (.evidenceDuplicate entry.1)
    return seen ++ [entry.1]) []

def requireNonEmptyString (value : String) (field : IdentityField) : Except FinalizationError Unit :=
  require (value ≠ "") (.blank field)

section

variable (participants : List String)

def requireParticipant (field : IdentityField) (value : String) : Except FinalizationError Unit := do
  requireNonEmptyString value field
  require (value ∈ participants) (.unknownParticipant field value)

def requireOptionalParticipant (field : IdentityField) :
    Option String → Except FinalizationError Unit
  | none => .ok ()
  | some value => requireParticipant participants field value

/-- The keys of an optional mapping are participants. -/
def validateReceiptMapKeys (field : IdentityField) (keys : Option (List String)) : Except FinalizationError Unit :=
  forM (keys.getD []) (requireParticipant participants field)

def validateObligationParties (entry : SnapshotObligation × ℕ) : Except FinalizationError Unit := do
  requireOptionalParticipant participants (.debtor entry.2) entry.1.debtor
  requireOptionalParticipant participants (.creditor entry.2) entry.1.creditor

def validateReceiptIdentities (entry : SnapshotReceipt × ℕ) : Except FinalizationError Unit := do
  let receipt := entry.1
  let index := entry.2
  requireOptionalParticipant participants (.paidBy index) receipt.paidBy
  validateReceiptMapKeys participants (.itemSharesKey index) receipt.itemShares
  validateReceiptMapKeys participants (.receiptSharesKey index) receipt.participantShares
  forM receipt.items.zipIdx fun item =>
    validateReceiptMapKeys participants (.itemAllocationKey index item.2) item.1
  forM receipt.adjustments.zipIdx fun adjustment =>
    validateReceiptMapKeys participants (.adjustmentAllocationKey index adjustment.2) adjustment.1
  forM receipt.roundingAdjustments.zipIdx fun adjustment =>
    requireOptionalParticipant participants (.roundingParticipant index adjustment.2) adjustment.1
  requireOptionalParticipant participants (.roundingAdjustmentParticipant index)
    receipt.roundingAdjustmentParticipant

end

section

variable (raw : CalculationSnapshot)

/-- Every nested identity of the snapshot is one of its participants. -/
def validateNestedIdentityClosed : Except FinalizationError Unit := do
  let keys (mapping : Option (Dict String RawMoney)) := mapping.map Dict.keys
  validateReceiptMapKeys raw.participants (.nestedKey .payerPaidAmounts) (keys raw.payerPaidAmounts)
  validateReceiptMapKeys raw.participants (.nestedKey .payerOwnShares) (keys raw.payerOwnShares)
  validateReceiptMapKeys raw.participants (.nestedKey .totalParticipantShares) (keys raw.totalParticipantShares)
  forM raw.settlementObligations.zipIdx (validateObligationParties raw.participants)
  forM raw.receipts.zipIdx (validateReceiptIdentities raw.participants)

/-- The structure and the identities of the snapshot before it is serialized. -/
def validateRawSnapshotInput : Except FinalizationError Unit := do
  require (raw.participants ≠ []) .participantsEmpty
  let _ ← raw.participants.zipIdx.foldlM (fun seen entry => do
    requireNonEmptyString entry.1 (.participant entry.2)
    require (entry.1 ∉ seen) (.participantDuplicate entry.1)
    return seen ++ [entry.1]) []
  let payer ← expect raw.payer .payerMissing
  requireNonEmptyString payer .payer
  forM raw.participantShares.keys (requireNonEmptyString · .shareKey)
  validateNestedIdentityClosed raw

/-- A decimal is serialized as its canonical text; every other value survives the serialization. -/
def snapshotDecimalDefault : RawMoney → Except FinalizationError RawMoney
  | .decimal (.finite number) => .text <$> expect (canonicalDecimalStr number) .decimalTooLong
  | .decimal _ => .error .decimalNotFinite
  | value => .ok value

/-- A serialized mapping is sorted by its keys. -/
def serializeMap (mapping : Dict String RawMoney) : Except FinalizationError (Dict String RawMoney) :=
  mapping.sortKeys.mapM fun _ value => snapshotDecimalDefault value

def serializeOption {α : Type} (serialize : α → Except FinalizationError α) :
    Option α → Except FinalizationError (Option α)
  | none => .ok none
  | some value => some <$> serialize value

def serializeObligation (obligation : SnapshotObligation) : Except FinalizationError SnapshotObligation := do
  let amount ← serializeOption snapshotDecimalDefault obligation.amount
  return { obligation with amount }

/-- What the snapshot decodes to after it was serialized. -/
def serializeSnapshot : Except FinalizationError CalculationSnapshot := do
  let participantShares ← serializeMap raw.participantShares
  let totalParticipantShares ← serializeOption serializeMap raw.totalParticipantShares
  let payerPaidAmounts ← serializeOption serializeMap raw.payerPaidAmounts
  let payerOwnShares ← serializeOption serializeMap raw.payerOwnShares
  let settlementObligations ← raw.settlementObligations.mapM serializeObligation
  let totalPaid ← snapshotDecimalDefault raw.totalPaid
  let payerOwnShare ← snapshotDecimalDefault raw.payerOwnShare
  let totalToCollect ← serializeOption snapshotDecimalDefault raw.totalToCollect
  return { raw with
    participantShares, totalParticipantShares, payerPaidAmounts, payerOwnShares, settlementObligations,
    totalPaid, payerOwnShare, totalToCollect }

end

section Reconciliation

variable (context : Context) (currency : Currency)

/-- Authoritative money at the scale of the currency. -/
def validatedAmount (value : RawMoney) (label : AmountLabel) : Except FinalizationError ℚ := do
  let amount ← (moneyDecimal value label).mapError .money
  (validateAmountForCurrency context amount.value currency label).mapError .money
  return amount.value

/-- The explicit rounding of a computed amount. -/
def roundForCurrency (value : ℚ) : Except FinalizationError ℚ :=
  (quantizeForCurrency context value currency).mapError .money

/-- The rounded sum of the validated amounts of a mapping whose keys pass a check. -/
def amountSum (mapping : Dict String RawMoney) (check : String → Except FinalizationError Unit)
    (label : String → AmountLabel) : Except FinalizationError ℚ := do
  let sum ← mapping.entries.foldlM (fun sum entry => do
    check entry.1
    let amount ← validatedAmount context currency entry.2 (label entry.1)
    return context.add sum amount) 0
  roundForCurrency context currency sum

/-- Two validated amounts agree after rounding. -/
def requireRoundedEqual (first second : ℚ) (failure : FinalizationError) : Except FinalizationError Unit := do
  let left ← roundForCurrency context currency first
  let right ← roundForCurrency context currency second
  require (left = right) failure

/-- A mapping without an entry reads as zero. -/
def amountOf (mapping : Dict String RawMoney) (participant : String) : RawMoney :=
  (mapping.get? participant).getD (.decimal (.finite ⟨false, 0, -2⟩))

section

variable (snapshot : CalculationSnapshot)

/-- The total paid, when present, is the sum of the shares. -/
def reconcileTotal : Except FinalizationError (Option ℚ) :=
  if snapshot.totalPaid = .missing then .ok none
  else do
    let totalPaid ← validatedAmount context currency snapshot.totalPaid .totalPaid
    let sharesSum ← amountSum context currency snapshot.participantShares (fun _ => .ok ()) .share
    let rounded ← roundForCurrency context currency totalPaid
    require (sharesSum = rounded) (.sharesTotal sharesSum totalPaid)
    return some totalPaid

/-- The stated own share of the payer is the payer's share. -/
def reconcileOwnShare (payer : String) : Except FinalizationError Unit :=
  match snapshot.participantShares.get? payer with
  | none => .ok ()
  | some share =>
    if snapshot.payerOwnShare = .missing then .ok ()
    else do
      let own ← validatedAmount context currency snapshot.payerOwnShare .payerOwnShare
      let share ← validatedAmount context currency share (.share payer)
      requireRoundedEqual context currency own share (.payerOwnShareDiffers own share)

section

variable (participantSet : List String)

/-- The total shares repeat the shares. -/
def reconcileTotalShares : Except FinalizationError Unit :=
  match snapshot.totalParticipantShares with
  | none => .ok ()
  | some totals =>
    if totals.entries = [] then .ok ()
    else forM participantSet fun participant => do
      let expected ← validatedAmount context currency (amountOf totals participant) (.totalShare participant)
      let actual ← validatedAmount context currency (amountOf snapshot.participantShares participant)
        (.share participant)
      requireRoundedEqual context currency expected actual (.totalShareDiffers participant expected actual)

section

variable (totalPaid : Option ℚ)

/-- In the single-payer contract the payer paid the total and nobody else paid. -/
def reconcilePaid (paidAmounts : Dict String RawMoney) (payer participant : String) :
    Except FinalizationError Unit := do
  let paid ← validatedAmount context currency (amountOf paidAmounts participant) (.paid participant)
  if participant = payer then
    match totalPaid with
    | none => .ok ()
    | some total => requireRoundedEqual context currency paid total (.payerPaidDiffers paid total)
  else do
    let rounded ← roundForCurrency context currency paid
    require (rounded = 0) (.nonPayerPaid participant paid)

/-- The paid amounts add up to the total, when there is one. -/
def reconcilePaidTotal (paidSum : ℚ) : Except FinalizationError Unit :=
  match totalPaid with
  | none => .ok ()
  | some total => do
    let rounded ← roundForCurrency context currency total
    require (paidSum = rounded) (.paidTotal paidSum total)

def reconcilePaidAmounts (participantSet : List String)
    (payer : String) : Except FinalizationError Unit :=
  match snapshot.payerPaidAmounts with
  | none => .ok ()
  | some paidAmounts => do
    let paidSum ← amountSum context currency paidAmounts
      (fun key => require (key ∈ participantSet) (.unknownParticipant (.nestedKey .payerPaidAmounts) key)) .paid
    reconcilePaidTotal context currency totalPaid paidSum
    forM participantSet (reconcilePaid context currency totalPaid paidAmounts payer)

end

def validateShareTotalReconciliation
    (payer : String) : Except FinalizationError Unit := do
  let totalPaid ← reconcileTotal context currency snapshot
  reconcileOwnShare context currency snapshot payer
  reconcileTotalShares context currency snapshot participantSet
  reconcilePaidAmounts context currency snapshot totalPaid participantSet payer

/-- The rounded balance of one participant: what was paid minus the share. -/
def participantBalance (participant : String) : Except FinalizationError (String × ℚ) := do
  let paid ← validatedAmount context currency
    (amountOf (snapshot.payerPaidAmounts.getD Dict.empty) participant) (.paid participant)
  let share ← validatedAmount context currency (amountOf snapshot.participantShares participant)
    (.share participant)
  let balance ← roundForCurrency context currency (context.sub paid share)
  return (participant, balance)

/-- One obligation of the snapshot adds its amount to its debtor. -/
def addDebt (amounts : Dict String ℚ) (obligation : SnapshotObligation) : Except FinalizationError (Dict String ℚ) :=
  match obligation.debtor, obligation.creditor, obligation.amount with
  | some debtor, some creditor, some amount =>
    if debtor ≠ "" ∧ creditor ≠ "" ∧ amount ≠ .missing then do
      let value ← validatedAmount context currency amount (.obligation debtor creditor)
      let sum ← roundForCurrency context currency (context.add ((amounts.get? debtor).getD 0) value)
      return amounts.set debtor sum
    else .ok amounts
  | _, _, _ => .ok amounts

/-- The participants with a negative balance and what each of them owes. -/
def debtorsOf (balances : List (String × ℚ)) : List (String × ℚ) :=
  (balances.filter fun entry => entry.2 < 0).map fun entry => (entry.1, context.neg entry.2)

def creditorsOf (balances : List (String × ℚ)) : List (String × ℚ) := balances.filter fun entry => 0 < entry.2

/-- The rounded debts in the order of the debtors. -/
def expectedDebtorAmounts (debtors : List (String × ℚ)) : Except FinalizationError (List (String × ℚ)) :=
  (debtors.insertionSort fun entry other => entry.1 ≤ other.1).mapM fun entry =>
    (entry.1, ·) <$> roundForCurrency context currency entry.2

/-- The balances produce exactly the obligations of the snapshot. -/
def validateBalanceObligationConsistency
    (payer : String) : Except FinalizationError Unit := do
  let balances ← participantSet.mapM (participantBalance context currency snapshot)
  let balanceSum ← roundForCurrency context currency (context.sumFrom 0 (balances.map Prod.snd))
  require (balanceSum = 0) (.balancesNotZero balanceSum)
  let debtors := debtorsOf context balances
  let creditors := creditorsOf balances
  if debtors = [] ∧ creditors = [] then
    require (snapshot.settlementObligations = []) .obligationsWithoutBalance
  else do
    require (creditors.map Prod.fst = [payer]) (.notSoleCreditor (creditors.map Prod.fst))
    let expected ← expectedDebtorAmounts context currency debtors
    let actual ← snapshot.settlementObligations.foldlM (addDebt context currency) Dict.empty
    require (expected.Perm actual.entries) .debtorAmountsDiffer

end

end

end Reconciliation

/-- The actors that may ask for a finalization. -/
inductive ActorType where
  | human
  | cli
  | system
  | unsupported (name : String)

/-- A text without surrounding blanks that is not empty. -/
def Trimmed (text : String) : Prop := ¬ isBlank text ∧ strip text = text

/-- A lower-case hexadecimal text of sixty-four characters. -/
def isSha256Text (text : String) : Bool :=
  text.length = 64 && text.toList.all fun char => ('0' ≤ char && char ≤ '9') || ('a' ≤ char && char ≤ 'f')

/-- The date pattern allows the digits of any script and one final newline. -/
def isIsoDateText (text : String) : Bool :=
  let chars := if text.toList.getLast? = some '\n' then text.toList.dropLast else text.toList
  chars.length = 10 && chars.zipIdx.all fun entry =>
    if entry.2 = 4 ∨ entry.2 = 7 then entry.1 = '-' else isDigit entry.1

/-- The active fact set that a finalization was authorized against. -/
structure ActiveFactSetBinding where
  (receiptPublicId factSetPublicId : String)
  factSetVersion : ℤ
  (factSetInputHash factSetResultHash : String)
  receiptTrimmed : Trimmed receiptPublicId
  factSetTrimmed : Trimmed factSetPublicId
  versionPositive : 1 ≤ factSetVersion
  inputHashText : isSha256Text factSetInputHash
  resultHashText : isSha256Text factSetResultHash

structure ReceiptBookkeepingMetadata where
  (description category : Option String)

/-- The confirmed receipt facts that the canonical transaction keeps. -/
structure ConfirmedReceiptIdentity where
  (receiptPublicId merchant receiptDate sourceChannel currency : String)
  bookkeepingMetadata : Option ReceiptBookkeepingMetadata
  receiptTrimmed : Trimmed receiptPublicId
  merchantTrimmed : Trimmed merchant
  channelTrimmed : Trimmed sourceChannel
  currencyTrimmed : Trimmed currency
  dateText : isIsoDateText receiptDate

/-- The single-receipt group that the finalizer creates itself. -/
structure ReceiptGroupMaterialization where
  (receiptPublicId receiptGroupReceiptPublicId groupType status source : String)
  receiptTrimmed : Trimmed receiptPublicId
  memberTrimmed : Trimmed receiptGroupReceiptPublicId
  typeTrimmed : Trimmed groupType
  statusTrimmed : Trimmed status
  sourceTrimmed : Trimmed source

/-- The arguments of a finalization. -/
structure FinalizationRequest (context : Context) where
  (calculationRunPublicId receiptGroupPublicId currency payerParticipantPublicId : String)
  settlementObligations : List (SettlementObligation context)
  calculationSnapshot : CalculationSnapshot
  authorizationId : String := ""
  confirmationId : String := ""
  idempotencyKey : String := ""
  calculationSnapshotId : String := ""
  calculationSnapshotHash : String := ""
  currencyContractVersion : String := ""
  actorType : ActorType := .system
  actorId : Option String := none
  sourceEvidenceRefs : List String := []
  activeFactSetBinding : Option ActiveFactSetBinding := none
  confirmedReceiptIdentity : Option ConfirmedReceiptIdentity := none
  receiptGroupMaterialization : Option ReceiptGroupMaterialization := none

/-- A set visits the values of a list once each, in an order of its own. -/
structure SetOrder where
  visit : List String → List String
  perm : ∀ values, (visit values).Perm values

def SetOrder.listed : SetOrder := ⟨id, fun _ => .refl _⟩

/-- An obligation as it is compared: debtor, creditor, amount and currency. -/
abbrev CanonicalObligation := String × String × ℚ × String

/-- The tuple order of canonical obligations. -/
def obligationBefore (first second : CanonicalObligation) : Prop :=
  first.1 < second.1 ∨ first.1 = second.1 ∧ (first.2.1 < second.2.1 ∨ first.2.1 = second.2.1 ∧
    (first.2.2.1 < second.2.2.1 ∨ first.2.2.1 = second.2.2.1 ∧ first.2.2.2 ≤ second.2.2.2))

instance : DecidableRel obligationBefore :=
  fun _ _ => inferInstanceAs (Decidable (_ ∨ _))

section Input

variable {context : Context}

def canonicalFromObligation (obligation : SettlementObligation context) : CanonicalObligation :=
  (obligation.debtor, obligation.creditor, obligation.amount, obligation.currency.code)

def canonicalFromMapping (entry : SnapshotObligation × ℕ) : Except FinalizationError CanonicalObligation := do
  let index := entry.2
  let debtor ← expect entry.1.debtor (.obligationFieldMissing index "debtor")
  let creditor ← expect entry.1.creditor (.obligationFieldMissing index "creditor")
  let amount ← expect entry.1.amount (.obligationFieldMissing index "amount")
  let currency ← expect entry.1.currency (.obligationFieldMissing index "currency")
  require (debtor ≠ "") (.obligationFieldEmpty index "debtor")
  require (creditor ≠ "") (.obligationFieldEmpty index "creditor")
  require (currency ≠ "") (.obligationFieldEmpty index "currency")
  let number ← (moneyDecimal amount (.snapshotObligation index)).mapError .money
  return (debtor, creditor, number.value, currency)

/-- The submitted obligations are the obligations of the snapshot in some order. -/
def validateObligationsMatchSnapshot (obligations : List (SettlementObligation context))
    (expectedObligations : List SnapshotObligation) : Except FinalizationError Unit := do
  require (obligations.length = expectedObligations.length)
    (.obligationCount obligations.length expectedObligations.length)
  let actual := (obligations.map canonicalFromObligation).insertionSort obligationBefore
  let expected ← expectedObligations.zipIdx.mapM canonicalFromMapping
  require (actual = expected.insertionSort obligationBefore) .obligationsDiffer

/-- Parties that are present belong to the participants. -/
def requireKnownParties (participantSet : List String) (entry : SnapshotObligation × ℕ) :
    Except FinalizationError Unit := do
  let debtor := entry.1.debtor.getD ""
  let creditor := entry.1.creditor.getD ""
  require (debtor = "" ∨ debtor ∈ participantSet) (.unknownParticipant (.debtor entry.2) debtor)
  require (creditor = "" ∨ creditor ∈ participantSet) (.unknownParticipant (.creditor entry.2) creditor)

/-- The obligations collect the total paid without the payer's own share, when both are stated. -/
def reconcileCollection (currency : Currency) (snapshot : CalculationSnapshot)
    (obligations : List (SettlementObligation context)) : Except FinalizationError Unit :=
  if snapshot.totalPaid = .missing ∨ snapshot.payerOwnShare = .missing then .ok ()
  else do
    let total ← validatedAmount context currency snapshot.totalPaid .totalPaid
    let own ← validatedAmount context currency snapshot.payerOwnShare .payerOwnShare
    let expected := context.sub total own
    let actual := context.sumFrom 0 (obligations.map SettlementObligation.amount)
    require (actual = expected) (.collectTotal actual expected)

def validateCalculationSnapshot (order : SetOrder) (currency : Currency) (payer : String)
    (obligations : List (SettlementObligation context)) (snapshot : CalculationSnapshot) :
    Except FinalizationError Unit := do
  validateObligationsMatchSnapshot obligations snapshot.settlementObligations
  let snapshotPayer ← expect snapshot.payer .payerMissing
  require (snapshotPayer ≠ "") .payerMissing
  require (snapshotPayer = payer) (.payerDiffers snapshotPayer payer)
  require (snapshot.participants ≠ []) .participantsEmpty
  require snapshot.participants.Nodup .participantsDuplicate
  forM snapshot.participants.zipIdx fun entry => requireNonEmptyString entry.1 (.participant entry.2)
  let participantSet := order.visit snapshot.participants
  require (snapshotPayer ∈ participantSet) (.payerNotParticipant snapshotPayer)
  let shareKeys := snapshot.participantShares.keys
  let missing := participantSet.filter fun participant => participant ∉ shareKeys
  let extra := shareKeys.filter fun key => key ∉ participantSet
  require (missing = [] ∧ extra = []) (.shareKeysDiffer missing extra)
  validateShareTotalReconciliation context currency snapshot participantSet snapshotPayer
  validateBalanceObligationConsistency context currency snapshot participantSet snapshotPayer
  forM snapshot.settlementObligations.zipIdx (requireKnownParties participantSet)
  reconcileCollection currency snapshot obligations

/-- The obligations of a result become settlement obligations of the one currency. -/
def toSettlementObligations (rawObligations : List SnapshotObligation) (currency : Currency) :
    Except FinalizationError (List (SettlementObligation context)) :=
  rawObligations.zipIdx.mapM fun entry => do
    let debtor ← expect entry.1.debtor (.obligationFieldMissing entry.2 "debtor")
    let creditor ← expect entry.1.creditor (.obligationFieldMissing entry.2 "creditor")
    let amount ← expect entry.1.amount (.obligationFieldMissing entry.2 "amount")
    let number ← (moneyDecimal amount .settlementObligation).mapError .money
    require (entry.1.currency.getD currency.code = currency.code)
      (.foreignCurrency (entry.1.currency.getD currency.code) currency)
    settlementObligation context debtor creditor number.value currency

/-- The field checks that do not look at the snapshot; the result is the supported currency. -/
def validateHeader (request : FinalizationRequest context) : Except FinalizationError Currency := do
  require (request.calculationRunPublicId ≠ "") .runRequired
  require (request.receiptGroupPublicId ≠ "") .groupRequired
  require (request.payerParticipantPublicId ≠ "") .payerRequired
  let currency ← expect (supportedCurrencies.find? fun currency => currency.code = request.currency)
    (.unsupportedCurrency request.currency)
  if request.calculationSnapshotHash ≠ "" then do
    require (isSha256Text request.calculationSnapshotHash) .snapshotHashMalformed
    require (request.calculationSnapshotId ≠ "") .snapshotIdRequired
    require (request.currencyContractVersion ≠ "") .contractVersionRequired
  match request.actorType with
  | .unsupported name => .error (.actorType name)
  | _ => .ok currency

def requireObligationHeader (currency : Currency) (payer : String)
    (obligation : SettlementObligation context) :
    Except FinalizationError Unit := do
  require (obligation.currency = currency) (.obligationCurrency obligation.currency currency)
  require (obligation.creditor = payer) (.creditorNotPayer obligation.creditor payer)

/-- Construction of a finalization input: the checks in their order, with the currency and the decoded snapshot. -/
def acceptRequest (order : SetOrder) (request : FinalizationRequest context) :
    Except FinalizationError (Currency × CalculationSnapshot) := do
  validateEvidenceRefs request.sourceEvidenceRefs
  validateRawSnapshotInput request.calculationSnapshot
  let snapshot ← serializeSnapshot request.calculationSnapshot
  let currency ← validateHeader request
  forM request.settlementObligations (requireObligationHeader currency request.payerParticipantPublicId)
  validateCalculationSnapshot order currency request.payerParticipantPublicId request.settlementObligations snapshot
  return (currency, snapshot)

end Input

/-- A finalization input exists only for an accepted request. -/
structure FinalizationInput (context : Context) where
  request : FinalizationRequest context
  order : SetOrder
  currency : Currency
  snapshot : CalculationSnapshot
  accepted : acceptRequest order request = .ok (currency, snapshot)

/-- What holds of an accepted request is decided by accepting it. -/
instance decidableAccepts {request : FinalizationRequest context} {order : SetOrder}
    {property : FinalizationInput context → Prop} [DecidablePred property] :
    Decidable (∃ input, input.request = request ∧ input.order = order ∧ property input) :=
  match accepted : acceptRequest order request with
  | .ok (currency, snapshot) =>
    decidable_of_iff (property ⟨request, order, currency, snapshot, accepted⟩) (by
      constructor
      · exact fun holds => ⟨_, rfl, rfl, holds⟩
      · rintro ⟨⟨_, _, _, _, found⟩, rfl, rfl, holds⟩
        cases found.symm.trans accepted
        exact holds)
  | .error _ => isFalse (by
      rintro ⟨⟨_, _, _, _, found⟩, rfl, rfl, _⟩
      cases found.symm.trans accepted)

end FinanceCore.ReceiptFinalization

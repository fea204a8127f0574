import FinanceCore.ParserProposals.Command

namespace FinanceCore.ParserProposals

open Calculators Decimal Exceptions Money

/-- A value as SQLite returns it; a float is known by its shortest representation. -/
inductive SqliteValue where
  | null
  | integer (value : ℤ)
  | real (finite : Bool) (shortest : String)
  | text (value : String)
  | blob

/-- A numeric mirror decodes only from an integer or from a finite float in plain notation. -/
def decimalFromNumericMirror : SqliteValue → Option ℚ
  | .integer value => some value
  | .real finite shortest =>
    if finite ∧ 'e' ∉ shortest.toList ∧ 'E' ∉ shortest.toList then decimalOf shortest else none
  | _ => none

/-- The row of a converted receipt, with its numeric mirror and its payer. -/
structure ConvertedReceipt extends ReceiptRow where
  netPaidAmount : SqliteValue
  payerParticipantId : Option ℤ

/-- A membership row joined with the public id of its participant. -/
structure MembershipRow where
  participantId : ℤ
  role : MemberRole
  isIncluded : ℤ
  publicId : String

/-- The rejections of the transaction guards. -/
inductive FactsError where
  | receiptCurrency (failure : MoneyError FactLabel)
  | receiptCurrencyNotCanonical
  | receiptAmount (failure : MoneyError FactLabel)
  | receiptNotPositive
  | receiptNotCanonical
  | receiptMirrorLossy
  | noPayer
  | orphanMembership
  | noMembership
  | duplicateMember (publicId : String)
  | inclusionNotExplicit (isIncluded : ℤ)
  | payerRole
  | contradictoryRole (role : MemberRole)
  | notOnePayer
  | money (failure : MoneyError FactLabel)
  | notPositive (label : FactLabel)
  | mirrorLossy (label : FactLabel)
  | crossCurrency (declared : Currency)
  | quantityMismatch (line : ℤ)
  | unsupportedItemMethod (name : String)
  | notMember (owner : FactOwner) (participant : String)
  | excluded (owner : FactOwner) (participant : String)
  | equalWithShare (owner : FactOwner)
  | shareMissing (owner : FactOwner) (participant : String)
  | currencyMissing (owner : FactOwner) (participant : String)
  | zeroShare (owner : FactOwner) (participant : String)
  | negativeShare (owner : FactOwner) (participant : String)
  | manualMismatch (owner : FactOwner)
  | unknownLine (line : ℤ)
  | unsupportedAdjustmentType (type : String)
  | unsupportedDirection (direction : Direction)
  | unsupportedAdjustmentMethod (method : AdjustmentMethod)
  | manualWithoutShares (index : ℤ)
  | sharesOutsideManual (index : ℤ)
  | reconciliation (items add subtract net : ℚ)

structure CanonicalItem where
  lineNumber : ℤ
  itemName : String
  (quantityText unitPriceText : Option String)
  lineAmountText : String

structure CanonicalShare where
  participantPublicId : String
  participantId : ℤ
  shareText : Option String

structure CanonicalAllocation where
  lineNumber : ℤ
  allocationMethod : FactItemMethod
  participants : List CanonicalShare

structure CanonicalAdjustment where
  adjustmentIndex : ℤ
  adjustmentType : String
  direction : Direction
  amountText : String
  allocationMethod : AdjustmentMethod
  description : Option String
  participants : Option (List CanonicalShare)

/-- The canonical facts that the guarded path persists. -/
structure CanonicalFacts where
  (currency netPaidText : String)
  items : List CanonicalItem
  allocations : List CanonicalAllocation
  adjustments : List CanonicalAdjustment

/-- The members so far and the number of payer rows. -/
structure MembershipState where
  membership : Dict String Member
  payerRows : ℕ

def loadMember (payerParticipantId : ℤ) (state : MembershipState) (row : MembershipRow) :
    Except FactsError MembershipState := do
  require (row.publicId ∉ state.membership.keys) (.duplicateMember row.publicId)
  require (row.isIncluded = 0 ∨ row.isIncluded = 1) (.inclusionNotExplicit row.isIncluded)
  let membership := state.membership.set row.publicId ⟨row.participantId, row.role, row.isIncluded⟩
  if row.participantId = payerParticipantId then do
    require (row.role = .payer) .payerRole
    return ⟨membership, state.payerRows + 1⟩
  else do
    let expectedRole := if row.isIncluded = 1 then MemberRole.participant else .excluded
    require (row.role = expectedRole) (.contradictoryRole row.role)
    return ⟨membership, state.payerRows⟩

/-- The membership of a receipt in the order of the public ids, with exactly one payer row. -/
def loadMembership (payerParticipantId : Option ℤ) (rawCount : ℕ) (rows : List MembershipRow) :
    Except FactsError (Dict String Member) := do
  let payer ← expect payerParticipantId .noPayer
  require (rawCount = rows.length) .orphanMembership
  require (rows ≠ []) .noMembership
  let loaded ← (rows.insertionSort fun first second => first.publicId ≤ second.publicId).foldlM
    (loadMember payer) ⟨Dict.empty, 0⟩
  require (loaded.payerRows = 1) .notOnePayer
  return loaded.membership

section Facts

variable (context : Context) (castNumeric : String → SqliteValue)

/-- The net amount is canonical positive money of a canonical currency, and its mirror is lossless. -/
def requireReceiptMonetaryIntegrity (receipt : ConvertedReceipt) : Except FactsError Unit := do
  let canonicalText := receipt.netPaidAmountCanonicalText
  let currency ← (normalizeCurrency receipt.currency).mapError .receiptCurrency
  require (currency.code = receipt.currency) .receiptCurrencyNotCanonical
  let amount ← (moneyDecimal (.text canonicalText) FactLabel.netPaid).mapError .receiptAmount
  (validateAmountForCurrency context amount.value currency FactLabel.netPaid).mapError .receiptAmount
  require (0 < amount.value) .receiptNotPositive
  let canonical ← (canonicalMoneyStr context amount currency).mapError .receiptAmount
  require (canonical = canonicalText) .receiptNotCanonical
  require (decimalFromNumericMirror receipt.netPaidAmount = some amount.value) .receiptMirrorLossy

def requireSupportedCurrency (raw : String) : Except FactsError Currency :=
  (normalizeCurrency raw).mapError .money

/-- The exact amount and the canonical text of authored money; the text survives the numeric mirror. -/
def canonicalAmount (raw : String) (currency : Currency)
    (label : FactLabel) : Except FactsError (ℚ × String) := do
  let amount ← (moneyDecimal (.text raw) label).mapError .money
  (validateAmountForCurrency context amount.value currency label).mapError .money
  require (0 < amount.value) (.notPositive label)
  let canonicalText ← (canonicalMoneyStr context amount currency).mapError .money
  let exact ← (moneyDecimal (.text canonicalText) label).mapError .money
  require (decimalFromNumericMirror (castNumeric canonicalText) = some exact.value) (.mirrorLossy label)
  return (exact.value, canonicalText)

def requireReceiptCurrency (declared : Currency) (receiptCurrency : String) : Except FactsError Unit :=
  require (declared.code = receiptCurrency) (.crossCurrency declared)

def resolveIncludedParticipant (membership : Dict String Member) (publicId : String)
    (owner : FactOwner) :
    Except FactsError ℤ := do
  let member ← expect (membership.get? publicId) (.notMember owner publicId)
  require (member.isIncluded = 1) (.excluded owner publicId)
  return member.participantId

section

variable (receiptCurrency : String)

/-- An explicit share is money of the receipt currency, neither zero nor negative. -/
def explicitShare (owner : FactOwner) (publicId shareRaw currencyRaw : String) : Except FactsError (ℚ × String) := do
  let shareCurrency ← requireSupportedCurrency currencyRaw
  let share ← (moneyDecimal (.text shareRaw) (FactLabel.share owner publicId)).mapError .money
  (validateAmountForCurrency context share.value shareCurrency (FactLabel.share owner publicId)).mapError .money
  require (share.value ≠ 0) (.zeroShare owner publicId)
  require (0 ≤ share.value) (.negativeShare owner publicId)
  requireReceiptCurrency shareCurrency receiptCurrency
  canonicalAmount context castNumeric shareRaw shareCurrency (.share owner publicId)

/-- The canonical unit price of an item, when it states one. -/
def canonicalUnitPrice (currency : Currency) (line : ℤ) :
    Option String → Except FactsError (Option (ℚ × String))
  | none => .ok none
  | some raw => some <$> canonicalAmount context castNumeric raw currency (.unitPrice line)

/-- A stated quantity times a stated unit price must be the line amount. -/
def requireQuantity (line : ℤ) (lineAmount : ℚ) (quantityText : Option String)
    (unitPrice : Option (ℚ × String)) :
    Except FactsError Unit :=
  match quantityText, unitPrice with
  | some quantity, some price => do
    let count ← expect (decimalOf quantity) (.money .invalidOperation)
    require (context.mul count price.1 = lineAmount) (.quantityMismatch line)
  | _, _ => .ok ()

def completeItem (state : List CanonicalItem × Dict ℤ ℚ) (entry : SpecItem) :
    Except FactsError (List CanonicalItem × Dict ℤ ℚ) := do
  let line := entry.lineNumber
  let declaredCurrency ← requireSupportedCurrency entry.currencyRaw
  let lineAmount ← canonicalAmount context castNumeric entry.lineAmountRaw declaredCurrency (.lineAmount line)
  requireReceiptCurrency declaredCurrency receiptCurrency
  let unitPrice ← canonicalUnitPrice context castNumeric declaredCurrency line entry.unitPriceRaw
  requireQuantity context line lineAmount.1 entry.quantityText unitPrice
  return (state.1 ++ [⟨line, entry.itemName, entry.quantityText, unitPrice.map Prod.snd, lineAmount.2⟩],
    state.2.set line lineAmount.1)

/-- The shares of an entry so far and their total. -/
abbrev ShareState := List CanonicalShare × ℚ

section

variable (membership : Dict String Member)

def completeEqualParticipant (owner : FactOwner) (state : ShareState)
    (participant : SpecParticipant) : Except FactsError ShareState := do
  let publicId := participant.participantPublicId
  let participantId ← resolveIncludedParticipant membership publicId owner
  require (participant.shareAmountRaw = none ∧ participant.currencyRaw = none) (.equalWithShare owner)
  return (state.1 ++ [⟨publicId, participantId, none⟩], state.2)

def completeManualParticipant (owner : FactOwner)
    (state : ShareState) (participant : SpecParticipant) : Except FactsError ShareState := do
  let publicId := participant.participantPublicId
  let participantId ← resolveIncludedParticipant membership publicId owner
  let shareRaw ← expect participant.shareAmountRaw (.shareMissing owner publicId)
  let currencyRaw ← expect participant.currencyRaw (.currencyMissing owner publicId)
  let share ← explicitShare context castNumeric receiptCurrency owner publicId shareRaw currencyRaw
  return (state.1 ++ [⟨publicId, participantId, some share.2⟩], context.add state.2 share.1)

def completeAllocation (lineAmounts : Dict ℤ ℚ)
    (entry : SpecAllocation) : Except FactsError CanonicalAllocation := do
  let line := entry.lineNumber
  match entry.allocationMethod with
  | .unsupported name => .error (.unsupportedItemMethod name)
  | .equalAmount => do
    let shares ← entry.participants.foldlM (completeEqualParticipant membership (.itemLine line)) ([], 0)
    return ⟨line, .equalAmount, shares.1⟩
  | .manual => do
    let shares ← entry.participants.foldlM
      (completeManualParticipant context castNumeric receiptCurrency membership (.itemLine line)) ([], 0)
    let lineAmount ← expect (lineAmounts.get? line) (.unknownLine line)
    require (shares.2 = lineAmount) (.manualMismatch (.itemLine line))
    return ⟨line, .manual, shares.1⟩

/-- The explicit shares of a manual adjustment add up to its amount; other methods list none. -/
def completeAdjustmentShares (entry : SpecAdjustment)
    (amount : ℚ) : Except FactsError (Option (List CanonicalShare)) :=
  let index := entry.adjustmentIndex
  if entry.allocationMethod = .manual then do
    let participants ← expect entry.participants (.manualWithoutShares index)
    let shares ← participants.foldlM
      (completeManualParticipant context castNumeric receiptCurrency membership (.adjustment index)) ([], 0)
    require (shares.2 = amount) (.manualMismatch (.adjustment index))
    return some shares.1
  else do
    require (entry.participants = none) (.sharesOutsideManual index)
    return none

/-- The adjustments so far with the totals of both directions. -/
structure AdjustmentState where
  adjustments : List CanonicalAdjustment
  (addTotal subtractTotal : ℚ)

def completeAdjustment (state : AdjustmentState)
    (entry : SpecAdjustment) : Except FactsError AdjustmentState := do
  let index := entry.adjustmentIndex
  require (entry.adjustmentType ∈ adjustmentTypes) (.unsupportedAdjustmentType entry.adjustmentType)
  require (entry.direction ∈ adjustmentDirections) (.unsupportedDirection entry.direction)
  require (entry.allocationMethod ∈ adjustmentAllocationMethods)
    (.unsupportedAdjustmentMethod entry.allocationMethod)
  let declaredCurrency ← requireSupportedCurrency entry.currencyRaw
  let amount ← canonicalAmount context castNumeric entry.amountRaw declaredCurrency (.adjustmentAmount index)
  requireReceiptCurrency declaredCurrency receiptCurrency
  let participants ← completeAdjustmentShares context castNumeric receiptCurrency membership entry amount.1
  let adjustments := state.adjustments ++ [⟨index, entry.adjustmentType, entry.direction, amount.2,
    entry.allocationMethod, entry.description, participants⟩]
  if entry.direction = .add then
    return ⟨adjustments, context.add state.addTotal amount.1, state.subtractTotal⟩
  else
    return ⟨adjustments, state.addTotal, context.add state.subtractTotal amount.1⟩

end

end

/-- The facts are canonical, complete and reconcile with the net amount. -/
def requireCompleteFacts (spec : FactsSpec) (receipt : ConvertedReceipt)
    (membership : Dict String Member) :
    Except FactsError CanonicalFacts := do
  let currency := receipt.currency
  requireReceiptMonetaryIntegrity context receipt
  let netPaidText := receipt.netPaidAmountCanonicalText
  let netPaid ← (moneyDecimal (.text netPaidText) FactLabel.netPaid).mapError .money
  let items ← spec.items.foldlM (completeItem context castNumeric currency) ([], Dict.empty)
  let allocations ← spec.allocations.mapM
    (completeAllocation context castNumeric currency membership items.2)
  let adjusted ← spec.adjustments.foldlM (completeAdjustment context castNumeric currency membership) ⟨[], 0, 0⟩
  let itemsTotal := context.sumFrom 0 items.2.values
  let factSetTotal := context.sub (context.add itemsTotal adjusted.addTotal) adjusted.subtractTotal
  require (factSetTotal = netPaid.value)
    (.reconciliation itemsTotal adjusted.addTotal adjusted.subtractTotal netPaid.value)
  return ⟨currency, netPaidText, items.1, allocations, adjusted.adjustments⟩

end Facts

def materialParticipant (share : CanonicalShare) : FactParticipant := ⟨share.participantPublicId, share.shareText⟩

/-- The canonical payload that is persisted for the facts. -/
def inputMaterial (facts : CanonicalFacts) : FactSetPayload where
  currency := facts.currency
  netPaidAmount := facts.netPaidText
  items := facts.items.map fun item =>
    ⟨item.lineNumber, item.itemName, item.quantityText, item.unitPriceText, item.lineAmountText⟩
  allocations := facts.allocations.map fun entry =>
    ⟨entry.lineNumber, entry.allocationMethod, entry.participants.map materialParticipant⟩
  adjustments := facts.adjustments.map fun entry =>
    ⟨entry.adjustmentIndex, entry.adjustmentType, entry.direction, entry.allocationMethod, entry.amountText,
      entry.participants.map fun shares => shares.map materialParticipant⟩

end FinanceCore.ParserProposals

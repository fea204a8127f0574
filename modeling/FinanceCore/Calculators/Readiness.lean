import FinanceCore.Calculators.ExactShares
import FinanceCore.Calculators.InputMapping

namespace FinanceCore.Calculators

open Decimal Exceptions Money Text

inductive MemberRole where
  | payer
  | participant
  | excluded
  | other (name : String)
deriving DecidableEq

/-- A membership row of a receipt. -/
structure Member where
  participantId : ℤ
  role : MemberRole
  isIncluded : ℤ

/-- The facts of a receipt row that readiness reads. -/
structure ReceiptRow where
  (publicId merchant currency netPaidAmountCanonicalText : String)

/-- The monetary texts that readiness checks again. -/
inductive FactLabel where
  | lineAmount (line : ℤ)
  | unitPrice (line : ℤ)
  | adjustmentAmount (index : ℤ)
  | share (owner : FactOwner) (participant : String)
  | netPaid
deriving DecidableEq

/-- The integrity failures of the readiness boundary. -/
inductive ReadinessError where
  | contradictsReceipt
  | noItems
  | duplicateLine (line : ℤ)
  | emptyItemName (line : ℤ)
  | notText (label : FactLabel)
  | money (failure : MoneyError FactLabel)
  | notPositive (label : FactLabel)
  | notCanonical (label : FactLabel)
  | quantityNotCanonical (line : ℤ)
  | quantityMismatch (line : ℤ)
  | linesNotContiguous
  | unknownLine (line : ℤ)
  | duplicateAllocation (line : ℤ)
  | unsupportedItemMethod (line : ℤ) (name : String)
  | noParticipants (owner : FactOwner)
  | allocatedTwice (owner : FactOwner) (participant : String)
  | notIncluded (owner : FactOwner) (participant : String)
  | unexpectedShare (owner : FactOwner)
  | manualMismatch (owner : FactOwner)
  | unallocatedItems
  | unsupportedAdjustmentType (type : String)
  | unsupportedDirection (direction : Direction)
  | unsupportedAdjustmentMethod (method : AdjustmentMethod)
  | indexesNotContiguous
  | reconciliation (items add subtract net : ℚ)
  | notOnePayer
  | unmappable (failure : MappingError)
  | precondition (failure : SplitError)
deriving DecidableEq

def includedMembers (members : Dict String Member) : List String :=
  (members.entries.filter fun entry => entry.2.isIncluded = 1).map Prod.fst

def payerMembers (members : Dict String Member) : List String :=
  (members.entries.filter fun entry => entry.2.role = .payer).map Prod.fst

/-- A quantity is a positive integer of at most fifteen digits; the pattern allows one final newline. -/
def quantityText (text : String) : Bool :=
  match text.toList with
  | [] => false
  | head :: rest =>
    let digits := if rest.getLast? = some '\n' then rest.dropLast else rest
    '1' ≤ head && head ≤ '9' && digits.length ≤ 14 && digits.all fun char => '0' ≤ char && char ≤ '9'

/-- The decimal value of a text. -/
def decimalOf (text : String) : Option ℚ :=
  match parseLiteral text with
  | some (.finite number) => some number.value
  | _ => none

/-- The integers from one up to a count. -/
def lineRange (count : ℕ) : List ℤ := (List.range count).map fun index : ℕ => (index : ℤ) + 1

/-- What readiness counts in a verified fact set. -/
structure FactCounts where
  (itemCount allocationCount adjustmentCount : ℕ)

/-- The totals and indexes of the adjustments so far. -/
structure AdjustmentTotals where
  (addTotal subtractTotal : ℚ)
  indexes : List ℤ

section Verify

variable (context : Context) (currency : String)

/-- A canonical text of the currency that denotes a positive amount. -/
def requireCanonicalPositiveAmount (value : Option String)
    (label : FactLabel) : Except ReadinessError ℚ := do
  let text ← expect value (.notText label)
  let amount ← (moneyDecimal (.text text) label).mapError .money
  let currency ← (normalizeCurrency currency).mapError .money
  (validateAmountForCurrency context amount.value currency label).mapError .money
  require (0 < amount.value) (.notPositive label)
  let canonical ← (canonicalMoneyStr context amount currency).mapError .money
  require (canonical = text) (.notCanonical label)
  return amount.value

/-- A quantity and a unit price must multiply to the line amount. -/
def verifyItem (lineAmounts : Dict ℤ ℚ) (item : FactItem) : Except ReadinessError (Dict ℤ ℚ) := do
  let line := item.lineNumber
  require (line ∉ lineAmounts.keys) (.duplicateLine line)
  require (¬ isBlank item.itemName) (.emptyItemName line)
  let amount ← requireCanonicalPositiveAmount context currency (some item.lineAmount) (.lineAmount line)
  require (∀ quantity ∈ item.quantity, quantityText quantity) (.quantityNotCanonical line)
  match item.unitPrice with
  | none => return lineAmounts.set line amount
  | some price => do
    let unitAmount ← requireCanonicalPositiveAmount context currency (some price) (.unitPrice line)
    match item.quantity with
    | none => return lineAmounts.set line amount
    | some quantity => do
      let count ← expect (decimalOf quantity) (.money .invalidOperation)
      require (context.mul count unitAmount = amount) (.quantityMismatch line)
      return lineAmounts.set line amount

section

variable (included : List String)

/-- A participant is new and included, and carries a share exactly for the manual method. -/
def verifyParticipant (owner : FactOwner) (manual : Bool)
    (state : List String × ℚ) (participant : FactParticipant) : Except ReadinessError (List String × ℚ) := do
  let publicId := participant.participantPublicId
  require (publicId ∉ state.1) (.allocatedTwice owner publicId)
  require (publicId ∈ included) (.notIncluded owner publicId)
  if manual then do
    let share ← requireCanonicalPositiveAmount context currency participant.shareAmount
      (.share owner publicId)
    return (state.1 ++ [publicId], context.add state.2 share)
  else do
    require participant.shareAmount.isNone (.unexpectedShare owner)
    return (state.1 ++ [publicId], state.2)

/-- One allocation entry covers one line; manual shares add up to the line amount. -/
def verifyAllocation (lineAmounts : Dict ℤ ℚ) (state : ℕ × List ℤ)
    (entry : FactAllocation) : Except ReadinessError (ℕ × List ℤ) := do
  let line := entry.lineNumber
  let amount ← expect (lineAmounts.get? line) (.unknownLine line)
  require (line ∉ state.2) (.duplicateAllocation line)
  let manual ← match entry.allocationMethod with
    | .equalAmount => .ok false
    | .manual => .ok true
    | .unsupported name => .error (.unsupportedItemMethod line name)
  require (entry.participants ≠ []) (.noParticipants (.itemLine line))
  let checked ← entry.participants.foldlM
    (verifyParticipant context currency included (.itemLine line) manual) ([], 0)
  require (manual → checked.2 = amount) (.manualMismatch (.itemLine line))
  return (state.1 + entry.participants.length, state.2 ++ [line])

def verifyAdjustment (state : AdjustmentTotals) (entry : FactAdjustment) :
    Except ReadinessError AdjustmentTotals := do
  let index := entry.adjustmentIndex
  require (entry.adjustmentType ∈ adjustmentTypes) (.unsupportedAdjustmentType entry.adjustmentType)
  require (entry.direction ∈ adjustmentDirections) (.unsupportedDirection entry.direction)
  require (entry.allocationMethod ∈ adjustmentAllocationMethods)
    (.unsupportedAdjustmentMethod entry.allocationMethod)
  let amount ← requireCanonicalPositiveAmount context currency (some entry.amount) (.adjustmentAmount index)
  if entry.allocationMethod = .manual then do
    require (entry.participants.getD [] ≠ []) (.noParticipants (.adjustment index))
    let checked ← (entry.participants.getD []).foldlM
      (verifyParticipant context currency included (.adjustment index) true) ([], 0)
    require (checked.2 = amount) (.manualMismatch (.adjustment index))
  else
    require entry.participants.isNone (.unexpectedShare (.adjustment index))
  if entry.direction = .add then
    return { state with
      addTotal := context.add state.addTotal amount, indexes := state.indexes ++ [index] }
  else
    return { state with
      subtractTotal := context.add state.subtractTotal amount, indexes := state.indexes ++ [index] }

end

end Verify

/-- The content rules of a fact set against its receipt and its members. -/
def verifyFactSetContent (context : Context) (payload : FactSetPayload) (receipt : ReceiptRow)
    (members : Dict String Member) : Except ReadinessError FactCounts := do
  let currency := receipt.currency
  let netPaidText := receipt.netPaidAmountCanonicalText
  require (payload.currency = currency ∧ payload.netPaidAmount = netPaidText) .contradictsReceipt
  let included := includedMembers members
  require (payload.items ≠ []) .noItems
  let lineAmounts ← payload.items.foldlM (verifyItem context currency) Dict.empty
  require (lineAmounts.keys.insertionSort (· ≤ ·) = lineRange payload.items.length) .linesNotContiguous
  let allocated ← payload.allocations.foldlM
    (verifyAllocation context currency included lineAmounts) (0, [])
  require ((∀ line ∈ allocated.2, line ∈ lineAmounts.keys) ∧ ∀ line ∈ lineAmounts.keys, line ∈ allocated.2)
    .unallocatedItems
  let totals ← payload.adjustments.foldlM (verifyAdjustment context currency included) ⟨0, 0, []⟩
  require (totals.indexes.insertionSort (· ≤ ·) = lineRange totals.indexes.length) .indexesNotContiguous
  let itemsTotal := context.sumFrom 0 lineAmounts.values
  let netPaid ← (moneyDecimal (.text netPaidText) .netPaid).mapError .money
  require (context.sub (context.add itemsTotal totals.addTotal) totals.subtractTotal = netPaid.value)
    (.reconciliation itemsTotal totals.addTotal totals.subtractTotal netPaid.value)
  return ⟨payload.items.length, allocated.1, totals.indexes.length⟩

/-- What the preflight computes for the payer and the participants of a receipt. -/
structure PreflightShares where
  payer : String
  participants : List String
  currency : Currency
  exact : ExactReceiptShares

/-- The mapping and Stage A on one fact set; Stage A normalizes the currency wherever it uses it. -/
def preflightShares (context : Context) (receipt : ReceiptRow) (payload : FactSetPayload)
    (members : Dict String Member) : Except ReadinessError PreflightShares := do
  let included := includedMembers members
  match payerMembers members with
  | [payerPublicId] => do
    let participants := buildParticipantList included payerPublicId
    let calculatorReceipt ← (buildCalculatorReceipt receipt.publicId receipt.merchant receipt.currency
      payerPublicId receipt.netPaidAmountCanonicalText payload included).mapError .unmappable
    let currency ← (normalizeCurrency receipt.currency).mapError fun failure => .precondition (.money failure)
    let exact ← (computeExactReceiptShares context calculatorReceipt participants currency).mapError
      .precondition
    return ⟨payerPublicId, participants, currency, exact⟩
  | _ => .error .notOnePayer

/-- Readiness runs Stage A on the mapped fact set and discards its result. -/
def calculatorPreflight (context : Context) (receipt : ReceiptRow) (payload : FactSetPayload)
    (members : Dict String Member) : Except ReadinessError Unit := do
  let _ ← preflightShares context receipt payload members
  return ()

end FinanceCore.Calculators

import FinanceCore.Calculators.Case

namespace FinanceCore.Calculators

open Exceptions Money

/-- A participant of an allocation entry; manual methods carry the share as text. -/
structure FactParticipant where
  participantPublicId : String
  shareAmount : Option String

structure FactItem where
  lineNumber : ℤ
  itemName : String
  (quantity unitPrice : Option String)
  lineAmount : String

/-- The approved item methods of a fact set. -/
inductive FactItemMethod where
  | equalAmount
  | manual
  | unsupported (name : String)
deriving DecidableEq

structure FactAllocation where
  lineNumber : ℤ
  allocationMethod : FactItemMethod
  participants : List FactParticipant

structure FactAdjustment where
  adjustmentIndex : ℤ
  adjustmentType : String
  direction : Direction
  allocationMethod : AdjustmentMethod
  amount : String
  participants : Option (List FactParticipant)

/-- The canonical payload of one fact set. -/
structure FactSetPayload where
  (currency netPaidAmount : String)
  items : List FactItem
  allocations : List FactAllocation
  adjustments : List FactAdjustment

def adjustmentTypes : List String :=
  ["service_charge", "gst", "discount", "voucher", "cashback", "promo", "manual_adjustment"]

def adjustmentDirections : List Direction := [.add, .subtract]

def adjustmentAllocationMethods : List AdjustmentMethod :=
  [.equalPerParticipant, .proportionalByItemAmount, .manual, .payerOnly]

/-- The fact that carries an allocation. -/
inductive FactOwner where
  | itemLine (line : ℤ)
  | adjustment (index : ℤ)
deriving DecidableEq

/-- The facts that cannot map onto the calculator input. -/
inductive MappingError where
  | duplicateAllocationEntry (line : ℤ)
  | missingAllocationEntry (line : ℤ)
  | unsupportedItemMethod (line : ℤ) (name : String)
  | unsupportedAdjustmentMethod (index : ℤ) (method : AdjustmentMethod)
  | sharesOutsideManual (index : ℤ)
  | noParticipants (owner : FactOwner)
  | duplicatedParticipant (owner : FactOwner) (participant : String)
  | notIncluded (owner : FactOwner) (participant : String)
  | missingShare (owner : FactOwner) (participant : String)
deriving DecidableEq

/-- The included consumers and the payer in sorted order. -/
def buildParticipantList (included : List String) (payerPublicId : String) : List String :=
  (included.insert payerPublicId).insertionSort (· ≤ ·)

/-- The listed participants, each once and each an included member. -/
def allocationParticipants (participants : List FactParticipant) (included : List String)
    (owner : FactOwner) : Except MappingError (List String) := do
  require (participants ≠ []) (.noParticipants owner)
  participants.foldlM (fun result participant => do
    let publicId := participant.participantPublicId
    require (publicId ∉ result) (.duplicatedParticipant owner publicId)
    require (publicId ∈ included) (.notIncluded owner publicId)
    return result ++ [publicId]) []

/-- The explicit share texts by participant. -/
def manualShareMap (participants : List FactParticipant) (included : List String)
    (owner : FactOwner) : Except MappingError (Dict String String) := do
  require (participants ≠ []) (.noParticipants owner)
  participants.foldlM (fun shares participant => do
    let publicId := participant.participantPublicId
    require (publicId ∉ shares.keys) (.duplicatedParticipant owner publicId)
    require (publicId ∈ included) (.notIncluded owner publicId)
    let share ← expect (participant.shareAmount.filter (· ≠ "")) (.missingShare owner publicId)
    return shares.set publicId share) Dict.empty

def textShares (shares : Dict String String) : Dict String RawMoney := shares.map fun _ share => .text share

/-- Each item line carries one allocation entry. -/
def allocationsByLine (allocations : List FactAllocation) : Except MappingError (Dict ℤ FactAllocation) :=
  allocations.foldlM (fun byLine entry => do
    require (entry.lineNumber ∉ byLine.keys) (.duplicateAllocationEntry entry.lineNumber)
    return byLine.set entry.lineNumber entry) Dict.empty

def projectItem (byLine : Dict ℤ FactAllocation) (included : List String) (item : FactItem) :
    Except MappingError Item := do
  let line := item.lineNumber
  let allocation ← expect (byLine.get? line) (.missingAllocationEntry line)
  let projected : Item := { itemName := some item.itemName, amount := some (.text item.lineAmount) }
  match allocation.allocationMethod with
  | .unsupported name => .error (.unsupportedItemMethod line name)
  | .equalAmount => do
    let consumers ← allocationParticipants allocation.participants included (.itemLine line)
    return { projected with allocationMethod := some .equal, participants := some consumers }
  | .manual => do
    let _ ← allocationParticipants allocation.participants included (.itemLine line)
    let shares ← manualShareMap allocation.participants included (.itemLine line)
    return { projected with allocationMethod := some .manual, allocations := some (textShares shares) }

/-- The items in the order of their lines. -/
def projectItems (payload : FactSetPayload) (included : List String) : Except MappingError (List Item) := do
  let byLine ← allocationsByLine payload.allocations
  (payload.items.insertionSort fun first second => first.lineNumber ≤ second.lineNumber).mapM
    (projectItem byLine included)

def projectAdjustment (included : List String) (currency : String) (entry : FactAdjustment) :
    Except MappingError Adjustment := do
  let index := entry.adjustmentIndex
  require (entry.allocationMethod ∈ adjustmentAllocationMethods)
    (.unsupportedAdjustmentMethod index entry.allocationMethod)
  let projected : Adjustment :=
    { type := some entry.adjustmentType
      direction := some entry.direction
      allocationMethod := some entry.allocationMethod
      amount := some (.text entry.amount)
      currency := some currency }
  if entry.allocationMethod = .manual then do
    let shares ← manualShareMap (entry.participants.getD []) included (.adjustment index)
    return { projected with allocations := some (textShares shares) }
  else do
    require entry.participants.isNone (.sharesOutsideManual index)
    return projected

/-- The adjustments in the order of their indexes. -/
def projectAdjustments (payload : FactSetPayload) (included : List String) (currency : String) :
    Except MappingError (List Adjustment) :=
  (payload.adjustments.insertionSort fun first second => first.adjustmentIndex ≤ second.adjustmentIndex).mapM
    (projectAdjustment included currency)

/-- One fact set becomes one calculator receipt with the payer-following rounding policy. -/
def buildCalculatorReceipt (receiptPublicId merchant currency payerPublicId netPaidText : String)
    (payload : FactSetPayload) (included : List String) : Except MappingError Receipt := do
  let items ← projectItems payload included
  let adjustments ← projectAdjustments payload included currency
  return {
    receiptId := some receiptPublicId
    merchant := some merchant
    currency := some (some currency)
    paidBy := some payerPublicId
    netPaid := some (.text netPaidText)
    roundingPolicy := some .payer
    items := some items
    adjustments := some adjustments }

end FinanceCore.Calculators

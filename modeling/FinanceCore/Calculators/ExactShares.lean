import FinanceCore.Calculators.Case

namespace FinanceCore.Calculators

open Decimal Exceptions Money

/-- Exact shares may miss the total by this much, which only repeating divisions use up. -/
def stageAEpsilon : ℚ := 1 / 10 ^ 18

/-- What the calculator reports about one item. -/
structure ItemDetail where
  description : Option String
  amount : ℚ
  allocationMethod : ItemMethod
  participantAllocations : Dict String ℚ

/-- An adjustment after its defaults are filled in. -/
structure NormalizedAdjustment where
  type : String
  direction : Direction
  allocationMethod : Option AdjustmentMethod
  amount : ℚ
  allocations : Option (Dict String RawMoney)
  participants : Option (List String)

structure AdjustmentDetail where
  type : String
  direction : Direction
  method : Option AdjustmentMethod
  amount : ℚ
  participantAllocations : Dict String ℚ

/-- The exact shares of one receipt before any rounding. -/
structure ExactReceiptShares where
  (itemTotal netPaid : ℚ)
  participantShares : Dict String ℚ
  adjustments : List NormalizedAdjustment
  adjustmentDetails : List AdjustmentDetail

section StageA

variable (context : Context)

/-- The manual allocations replace the empty share of each named participant. -/
def manualAllocations (currency : Currency) (label : String → FieldLabel)
    (allocations : Dict String ℚ) (manual : Dict String RawMoney) : Except SplitError (Dict String ℚ) :=
  manual.entries.foldlM (fun shares entry => do
    require (entry.1 ∈ shares.keys) (.unknownParticipant entry.1)
    let amount ← authoritativeMoney context entry.2 currency (label entry.1) .nonNegative
    return shares.set entry.1 amount) allocations

/-- A present mapping with at least one entry. -/
def presentAllocations (allocations : Option (Dict String RawMoney)) (failure : SplitError) :
    Except SplitError (Dict String RawMoney) :=
  match allocations with
  | some manual => if manual.entries = [] then .error failure else .ok manual
  | none => .error failure

def itemAllocations (item : Item) (amount : ℚ) (allocationMethod : ItemMethod)
    (allParticipants : List String) (label : String) (currency : Currency) : Except SplitError (Dict String ℚ) :=
  let allocations := emptyShares allParticipants
  let equally := do
    let participants := itemParticipants item
    require (participants ≠ []) (.itemWithoutParticipants label)
    require participants.Nodup (.duplicateItemParticipants label participants)
    let splitAmount := context.div amount participants.length
    participants.foldlM (fun shares participant =>
      expect (shares.modify? participant fun share => context.add share splitAmount)
        (.unknownParticipant participant)) allocations
  match allocationMethod with
  | .equal => equally
  | .equalAmongConsumers => equally
  | .manual => do
    let manual ← presentAllocations item.allocations (.manualItemWithoutAllocations label)
    let shares ← manualAllocations context currency .manualItemAllocation allocations manual
    require (context.sumFrom 0 shares.values = amount) (.manualItemMismatch label)
    return shares
  | .unsupported name => .error (.unsupportedItemMethod name)

/-- Every allocation is added to the share of its participant. -/
def addAllocations (shares allocations : Dict String ℚ) : Except SplitError (Dict String ℚ) :=
  allocations.entries.foldlM (fun shares entry =>
    expect (shares.modify? entry.1 fun share => context.add share entry.2) (.missingKey entry.1)) shares

def itemAmount (item : Item) : RawMoney := item.amount.getD (item.lineAmount.getD .missing)

/-- One item adds its allocations to the shares and reports itself. -/
def itemStep (label : String) (allParticipants : List String) (currency : Currency)
    (state : Dict String ℚ × List ItemDetail) (item : Item) :
    Except SplitError (Dict String ℚ × List ItemDetail) := do
  let amount ← authoritativeMoney context (itemAmount item) currency (.itemAmount label) .nonNegative
  let allocationMethod := item.allocationMethod.getD .equal
  let allocations ← itemAllocations context item amount allocationMethod allParticipants label currency
  let shares ← addAllocations context state.1 allocations
  return (shares, state.2 ++ [⟨orText item.description (orText item.name item.itemName), amount,
    allocationMethod, allocations⟩])

section

variable (receipt : Receipt)

def itemShares (allParticipants : List String) (currency : Currency) :
    Except SplitError (Dict String ℚ × List ItemDetail) := do
  let items ← expect receipt.items (.missingKey "items")
  items.foldlM (itemStep context (receiptLabel receipt) allParticipants currency)
    (emptyShares allParticipants, [])

def authoritativeServiceChargeRate (value : RawMoney) (label : String) : Except SplitError ℚ := do
  let rate ← ofMoney (moneyDecimal value (.serviceChargeRate label))
  require (0 ≤ rate.value) (.rateNegative label rate.value)
  require (rate.value < 1) (.rateTooLarge label rate.value)
  return rate.value

/-- The product is exact because the local precision covers both coefficients, and it is rounded once. -/
def quantizedServiceChargeFromRate (itemTotal rate : ℚ) (currency : Currency) : ℚ :=
  roundHalfUp (itemTotal * rate * 10 ^ minorUnits currency) / 10 ^ minorUnits currency

section

variable (itemTotal : ℚ)

def serviceChargeAmount (currency : Currency) : Except SplitError ℚ :=
  match receipt.serviceChargeAmount, receipt.serviceChargeRate with
  | some amount, _ =>
    authoritativeMoney context amount currency (.serviceCharge (receiptLabel receipt)) .nonNegative
  | none, some rate => do
    let rate ← authoritativeServiceChargeRate rate (receiptLabel receipt)
    return quantizedServiceChargeFromRate itemTotal rate currency
  | none, none => .ok 0

def normalizeAdjustment (adjustment : Adjustment) (currency : Currency) : Except SplitError NormalizedAdjustment := do
  let type ← expect (orText adjustment.type adjustment.adjustmentType) .adjustmentTypeRequired
  let direction := adjustment.direction.getD
    (if type = "discount" ∨ type = "voucher" ∨ type = "promotion" then .subtract else .add)
  let method ← expect adjustment.allocationMethod (.adjustmentMethodRequired type)
  let raw ← expect adjustment.amount (.missingKey "amount")
  let amount ← authoritativeMoney context raw currency (.adjustmentAmount type) .nonNegative
  return ⟨type, direction, some method, amount, adjustment.allocations, adjustment.participants⟩

/-- The service charge comes first, then the listed adjustments, then the discount. -/
def receiptAdjustments (currency : Currency) : Except SplitError (List NormalizedAdjustment) := do
  let serviceAmount ← serviceChargeAmount context receipt itemTotal currency
  let serviceMethod := receipt.serviceChargeAllocationMethod.getD (some .proportionalByItemAmount)
  let service : List NormalizedAdjustment :=
    if serviceAmount ≠ 0 ∨ serviceMethod = some .manual then
      [⟨"service_charge", .add, serviceMethod, serviceAmount, receipt.serviceChargeAllocations,
        receipt.serviceChargeParticipants⟩]
    else []
  let listed ← (receipt.adjustments.getD []).mapM fun adjustment =>
    normalizeAdjustment context adjustment currency
  let discount ← authoritativeMoney context
    (receipt.discount.getD (.decimal (.finite ⟨false, 0, -2⟩))) currency
    (.discount (receiptLabel receipt)) .nonNegative
  let discounts : List NormalizedAdjustment :=
    if discount ≠ 0 ∨ receipt.discountAllocationMethod = some .manual then
      [⟨"discount", .subtract, receipt.discountAllocationMethod, discount, receipt.discountAllocations,
        receipt.discountParticipants⟩]
    else []
  return service ++ listed ++ discounts

/-- A zero base share receives nothing and every other share its part of the amount. -/
def proportionalAllocations (amount : ℚ) (baseShares : Dict String ℚ) : Except SplitError (Dict String ℚ) := do
  let baseTotal := context.sumFrom 0 baseShares.values
  require (baseTotal ≠ 0) .zeroBaseTotal
  return baseShares.map fun _ share =>
    if share ≠ 0 then context.div (context.mul amount share) baseTotal else 0

/-- The explicit participants, or everyone whose current share is not zero. -/
def activeAdjustmentParticipants (explicit : Option (List String)) (currentShares : Dict String ℚ)
    (participants : List String) : Except SplitError (List String) :=
  match explicit with
  | some (head :: rest) => do
    forM (head :: rest) fun participant =>
      require (participant ∈ currentShares.keys) (.unknownParticipant participant)
    return head :: rest
  | _ => do
    let shares ← participants.mapM fun participant =>
      (participant, ·) <$> expect (currentShares.get? participant) (.missingKey participant)
    let active := (shares.filter fun entry => entry.2 ≠ 0).map Prod.fst
    require (active ≠ []) .noActiveParticipant
    return active

def adjustmentAllocations (adjustment : NormalizedAdjustment) (paidBy : Option String)
    (itemShares currentShares : Dict String ℚ) (participants : List String) (currency : Currency) :
    Except SplitError (Dict String ℚ) :=
  let allocations := emptyShares participants
  if adjustment.allocationMethod = some .manual then do
    let manual ← presentAllocations adjustment.allocations (.manualWithoutAllocations adjustment.type)
    let shares ← manualAllocations context currency (.manualAllocation adjustment.type) allocations manual
    require (context.sumFrom 0 shares.values = adjustment.amount) (.manualMismatch adjustment.type)
    return shares
  else if adjustment.amount = 0 then .ok allocations
  else
    match adjustment.allocationMethod with
    | none => .error (.adjustmentMethodRequired adjustment.type)
    | some .payerOnly => do
      let payer ← expect paidBy (.missingKey "paid_by")
      return allocations.set payer adjustment.amount
    | some .equalPerParticipant => do
      let active ← activeAdjustmentParticipants adjustment.participants currentShares participants
      require active.Nodup (.duplicateAdjustmentParticipants adjustment.type active)
      let perParticipant := context.div adjustment.amount active.length
      return active.foldl (fun shares participant => shares.set participant perParticipant) allocations
    | some .proportionalByItemAmount => proportionalAllocations context adjustment.amount itemShares
    | some .proportionalByNetAmount => proportionalAllocations context adjustment.amount currentShares
    | some .manual => .ok allocations
    | some (.unsupported name) => .error (.unsupportedMethod name)

/-- An allocation moves the running share up or down by the direction of its adjustment. -/
def applyAllocation (direction : Direction) (shares : Dict String ℚ) (entry : String × ℚ) :
    Except SplitError (Dict String ℚ) :=
  match direction with
  | .add | .charge =>
    expect (shares.modify? entry.1 fun share => context.add share entry.2) (.missingKey entry.1)
  | .subtract | .discount =>
    expect (shares.modify? entry.1 fun share => context.sub share entry.2) (.missingKey entry.1)
  | .unsupported name => .error (.unsupportedDirection name)

def applyAllocations (direction : Direction) (shares allocations : Dict String ℚ) :
    Except SplitError (Dict String ℚ) :=
  allocations.entries.foldlM (applyAllocation context direction) shares

/-- One adjustment allocates its amount and changes the running shares. -/
def adjustmentStep (paidBy : Option String) (itemShares : Dict String ℚ)
    (participants : List String)
    (currency : Currency) (state : Dict String ℚ × List AdjustmentDetail)
    (adjustment : NormalizedAdjustment) : Except SplitError (Dict String ℚ × List AdjustmentDetail) := do
  let allocations ← adjustmentAllocations context adjustment paidBy itemShares state.1 participants currency
  let shares ← applyAllocations context adjustment.direction state.1 allocations
  return (shares, state.2 ++ [⟨adjustment.type, adjustment.direction, adjustment.allocationMethod,
    adjustment.amount, allocations⟩])

/-- An adjustment changes the total in its direction; other directions leave it. -/
def adjustTotal (total : ℚ) (adjustment : NormalizedAdjustment) : ℚ :=
  match adjustment.direction with
  | .add | .charge => context.add total adjustment.amount
  | .subtract | .discount => context.sub total adjustment.amount
  | .unsupported _ => total

def receiptNetPaid (adjustments : List NormalizedAdjustment)
    (currency : Currency) : Except SplitError ℚ :=
  match receipt.netPaid with
  | some netPaid =>
    authoritativeMoney context netPaid currency (.netPaid (receiptLabel receipt)) .nonNegative
  | none => roundForCurrency context (adjustments.foldl (adjustTotal context) itemTotal) currency

/-- The explicit subtotal must equal the item total; without one the item total is rounded. -/
def checkedItemTotal (currency : Currency) : Except SplitError ℚ :=
  match receipt.subtotal with
  | some subtotal => do
    let expected ← authoritativeMoney context subtotal currency (.subtotal (receiptLabel receipt))
      .nonNegative
    require (itemTotal = expected) (.subtotalMismatch (receiptLabel receipt) itemTotal expected)
    return itemTotal
  | none => roundForCurrency context itemTotal currency

end

/-- The exact shares must add up to the total up to the computational epsilon. -/
def validateExactReconciliation (exactShares : Dict String ℚ) (exactTotal : ℚ) (label : String) :
    Except SplitError Unit :=
  let exactSum := context.sumFrom 0 exactShares.values
  require (context.abs (context.sub exactTotal exactSum) ≤ stageAEpsilon)
    (.exactMismatch label exactSum exactTotal)

def requireNonNegativeExactShares (exactShares : Dict String ℚ) (allParticipants : List String)
    (label : String) : Except SplitError Unit :=
  forM allParticipants fun participant =>
    require (0 ≤ (exactShares.get? participant).getD 0)
      (.negativeExactShare label participant ((exactShares.get? participant).getD 0))

/-- Stage A computes and reconciles the exact shares of one receipt. -/
def computeExactReceiptShares (allParticipants : List String) (currency : Currency) :
    Except SplitError ExactReceiptShares := do
  let items ← itemShares context receipt allParticipants currency
  let itemTotal ← checkedItemTotal context receipt (context.sumFrom 0 items.1.values) currency
  let adjustments ← receiptAdjustments context receipt itemTotal currency
  let running ← adjustments.foldlM
    (adjustmentStep context receipt.paidBy items.1 allParticipants currency) (items.1, [])
  let netPaid ← receiptNetPaid context receipt itemTotal adjustments currency
  validateExactReconciliation context running.1 netPaid (receiptLabel receipt)
  requireNonNegativeExactShares running.1 allParticipants (receiptLabel receipt)
  return ⟨itemTotal, netPaid, running.1, adjustments, running.2⟩

end

end StageA

end FinanceCore.Calculators

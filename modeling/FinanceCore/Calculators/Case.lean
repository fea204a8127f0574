import FinanceCore.Foundation.Dict
import FinanceCore.Money

namespace FinanceCore.Calculators

open Decimal Exceptions Money

/-- The item allocation methods that the calculator knows. -/
inductive ItemMethod where
  | equal
  | equalAmongConsumers
  | manual
  | unsupported (name : String)

/-- The adjustment allocation methods that the calculator knows. -/
inductive AdjustmentMethod where
  | manual
  | payerOnly
  | equalPerParticipant
  | proportionalByItemAmount
  | proportionalByNetAmount
  | unsupported (name : String)
deriving DecidableEq

inductive Direction where
  | add
  | charge
  | subtract
  | discount
  | unsupported (name : String)
deriving DecidableEq

inductive RemainderPolicy where
  | largestRemainder
  | payer
  | unsupported (name : String)
deriving DecidableEq

/-- An item entry; an absent field of the entry is `none`. -/
structure Item where
  description : Option String := none
  name : Option String := none
  itemName : Option String := none
  amount : Option RawMoney := none
  lineAmount : Option RawMoney := none
  currency : Option String := none
  allocationMethod : Option ItemMethod := none
  participants : Option (List String) := none
  consumers : Option (List String) := none
  owners : Option (List String) := none
  allocations : Option (Dict String RawMoney) := none

/-- An adjustment entry of a receipt. -/
structure Adjustment where
  type : Option String := none
  adjustmentType : Option String := none
  direction : Option Direction := none
  allocationMethod : Option AdjustmentMethod := none
  amount : Option RawMoney := none
  currency : Option String := none
  allocations : Option (Dict String RawMoney) := none
  participants : Option (List String) := none

/-- A receipt entry; the currency and the service method can be present without a value. -/
structure Receipt where
  receiptId : Option String := none
  id : Option String := none
  label : Option String := none
  merchant : Option String := none
  paidBy : Option String := none
  currency : Option (Option String) := none
  items : Option (List Item) := none
  adjustments : Option (List Adjustment) := none
  subtotal : Option RawMoney := none
  netPaid : Option RawMoney := none
  serviceChargeAmount : Option RawMoney := none
  serviceChargeRate : Option RawMoney := none
  serviceChargeAllocationMethod : Option (Option AdjustmentMethod) := none
  serviceChargeAllocations : Option (Dict String RawMoney) := none
  serviceChargeParticipants : Option (List String) := none
  discount : Option RawMoney := none
  discountAllocationMethod : Option AdjustmentMethod := none
  discountAllocations : Option (Dict String RawMoney) := none
  discountParticipants : Option (List String) := none
  roundingPolicy : Option RemainderPolicy := none

/-- The input of the calculator. -/
structure CaseData where
  caseId : Option String := none
  currency : Option String := none
  status : Option String := none
  participants : Option (List String) := none
  payer : Option String := none
  participantDisplayNames : Option (Dict String String) := none
  receipts : List Receipt

/-- The fields that the money contract checks in a receipt. -/
inductive FieldLabel where
  | authoritativeCurrency
  | receiptCurrency (receipt : String)
  | itemCurrency (receipt : String) (index : ℕ)
  | adjustmentCurrency (receipt : String) (index : ℕ) (type : String)
  | itemAmount (receipt : String)
  | manualItemAllocation (participant : String)
  | subtotal (receipt : String)
  | serviceCharge (receipt : String)
  | serviceChargeRate (receipt : String)
  | adjustmentAmount (type : String)
  | manualAllocation (type participant : String)
  | discount (receipt : String)
  | netPaid (receipt : String)
  | allocationTotal
  | rounding
deriving DecidableEq

inductive SplitError where
  | receiptsRequired
  | participantsRequired
  | duplicateParticipants (values : List String)
  | duplicateItemParticipants (receipt : String) (values : List String)
  | duplicateAdjustmentParticipants (type : String) (values : List String)
  | currencyRequired
  | receiptCurrencyRequired
  | payerRequired
  | unknownPayer (payer : String)
  | money (error : MoneyError FieldLabel)
  | missingKey (key : String)
  | missingIndex (index : ℕ)
  | unknownParticipant (participant : String)
  | itemWithoutParticipants (receipt : String)
  | manualItemWithoutAllocations (receipt : String)
  | manualItemMismatch (receipt : String)
  | unsupportedItemMethod (name : String)
  | adjustmentTypeRequired
  | adjustmentMethodRequired (type : String)
  | manualWithoutAllocations (type : String)
  | manualMismatch (type : String)
  | noActiveParticipant
  | zeroBaseTotal
  | unsupportedMethod (name : String)
  | unsupportedDirection (name : String)
  | subtotalMismatch (receipt : String) (itemTotal subtotal : ℚ)
  | rateNegative (receipt : String) (rate : ℚ)
  | rateTooLarge (receipt : String) (rate : ℚ)
  | exactMismatch (receipt : String) (exactSum netPaid : ℚ)
  | negativeExactShare (receipt participant : String) (share : ℚ)
  | allocationWithoutParticipants
  | allocationDuplicates
  | negativeTotal (total : ℚ)
  | negativeShare (participant : String) (share : ℚ)
  | unsupportedPolicy (name : String)
  | policyWithoutPayer
  | policyPayerUnknown (payer : String)
  | remainderOutOfBounds (remaining : ℤ) (count : ℕ)
  | payerCannotAbsorb (payer : String) (units remaining : ℤ)
  | allocationMismatch (sum total : ℚ)
  | primaryPayerEmpty
  | primaryPayerUnknown (payer : String)
  | primaryPayerDidNotPay (payer : String)
  | primaryPayerNotSole (payer : String)
  | obligationsUnbalanced
  | totalsMismatch (shares paid : ℚ)
  | diverged
deriving DecidableEq

/-- A contract failure is a failure of the calculator. -/
def ofMoney {α : Type} (result : Except (MoneyError FieldLabel) α) : Except SplitError α :=
  result.mapError SplitError.money

@[simp] theorem ofMoney_ok {α : Type} {result : Except (MoneyError FieldLabel) α} {value : α} :
    ofMoney result = .ok value ↔ result = .ok value := mapError_ok

/-- The first value unless it is missing or empty. -/
def orText (first second : Option String) : Option String :=
  match first with
  | some text => if text = "" then second else some text
  | none => second

/-- The first list that has an element. -/
def orList (first second : Option (List String)) : Option (List String) :=
  match first with
  | some (head :: rest) => some (head :: rest)
  | _ => second

def receiptLabel (receipt : Receipt) : String :=
  (orText receipt.merchant (orText receipt.label (orText receipt.receiptId (some "Receipt")))).getD "Receipt"

def itemParticipants (item : Item) : List String :=
  (orList item.participants (orList item.consumers (orList item.owners (some [])))).getD []

/-- Validated money is finite, at the scale of the currency and inside its sign policy. -/
def authoritativeMoney (context : Context) (value : RawMoney) (currency : Currency)
    (label : FieldLabel) (policy : SignPolicy) : Except SplitError ℚ := do
  let amount ← ofMoney (moneyDecimal value label)
  ofMoney (validateAmountForCurrency context amount.value currency label)
  ofMoney (policy.enforce amount.value label)
  return amount.value

def roundForCurrency (context : Context) (value : ℚ) (currency : Currency) : Except SplitError ℚ :=
  ofMoney (quantizeForCurrency context value currency)

def emptyShares (participants : List String) : Dict String ℚ := Dict.fromKeys participants 0

def roundedShareMap (context : Context) (shares : Dict String ℚ) (currency : Currency) :
    Except SplitError (Dict String ℚ) :=
  shares.mapM fun _ amount => roundForCurrency context amount currency

variable {ctx : Context} {unit : Currency}

/-- Accepted money reads as a finite number that the context holds at the scale of the currency. -/
theorem authoritativeMoney_nonNegative {value : RawMoney} {label : FieldLabel} {amount : ℚ} :
    authoritativeMoney ctx value unit label .nonNegative = .ok amount ↔
      ∃ number, moneyDecimal value label = .ok number ∧ number.value = amount ∧
        ctx.Holds (minorUnits unit) amount ∧ 0 ≤ amount := by
  unfold authoritativeMoney
  simp only [bind_ok, ofMoney_ok, validateAmountForCurrency_ok, enforce_nonNegative_eq_ok, pure_ok]
  constructor
  · rintro ⟨number, read, _, held, _, nonneg, rfl⟩
    exact ⟨number, read, rfl, held, nonneg⟩
  · rintro ⟨number, read, rfl, held, nonneg⟩
    exact ⟨number, read, (), held, (), nonneg, rfl⟩

@[simp] theorem roundForCurrency_ok {value result : ℚ} :
    roundForCurrency ctx value unit = .ok result ↔ ctx.quantize halfUp (minorUnits unit) value = some result := by
  rw [roundForCurrency, ofMoney_ok, quantizeForCurrency_eq_ok]

theorem roundForCurrency_held {value : ℚ} (held : ctx.Holds (minorUnits unit) value) :
    roundForCurrency ctx value unit = .ok value :=
  roundForCurrency_ok.mpr (held.quantize halfUp)

end FinanceCore.Calculators

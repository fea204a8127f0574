import FinanceCore.Calculators.Case

namespace FinanceCore.Calculators

open Decimal Exceptions Money

/-- The integer part of a number, toward zero. -/
def truncate (value : ℚ) : ℤ := if 0 ≤ value then ⌊value⌋ else -⌊-value⌋

/-- The base allocation of one participant and the fraction that it leaves. -/
structure BaseUnits where
  participant : String
  base : ℤ
  remainder : ℚ

section StageB

variable (context : Context)

/-- A decimal value in minor units. -/
def toMinorUnits (value : ℚ) (factor : ℕ) : ℚ := context.mul value factor

section

variable (exactShares : Dict String ℚ)

def shareOf (participant : String) : ℚ :=
  (exactShares.get? participant).getD 0

def validateAllocatorInputs (exactTotal : ℚ) (currency : Currency)
    (participants : List String) (remainderPolicy : RemainderPolicy) (payer : Option String) :
    Except SplitError Unit := do
  require (participants ≠ []) .allocationWithoutParticipants
  require participants.Nodup .allocationDuplicates
  require (0 ≤ exactTotal) (.negativeTotal exactTotal)
  ofMoney (validateAmountForCurrency context exactTotal currency .allocationTotal)
  forM participants fun participant =>
    require (0 ≤ shareOf exactShares participant)
      (.negativeShare participant (shareOf exactShares participant))
  match remainderPolicy with
  | .unsupported name => .error (.unsupportedPolicy name)
  | .largestRemainder => .ok ()
  | .payer =>
    match payer with
    | none => .error .policyWithoutPayer
    | some payer => require (payer ∈ participants) (.policyPayerUnknown payer)

/-- The payer policy rounds half up and the largest-remainder policy rounds down. -/
def baseUnits (factor : ℕ) (remainderPolicy : RemainderPolicy)
    (participant : String) : BaseUnits :=
  let shareUnits := toMinorUnits context (shareOf exactShares participant) factor
  let base := if remainderPolicy = .payer then roundHalfUp shareUnits else truncate shareUnits
  ⟨participant, base, context.sub shareUnits base⟩

def validateRemainderBounds (remaining : ℤ) (participantCount : ℕ) (policy : RemainderPolicy) :
    Except SplitError Unit :=
  if policy = .payer then
    require (|remaining| ≤ participantCount) (.remainderOutOfBounds remaining participantCount)
  else do
    require (0 ≤ remaining) (.remainderOutOfBounds remaining participantCount)
    require (remaining ≤ participantCount) (.remainderOutOfBounds remaining participantCount)

section

variable (floors : Dict String ℤ)

/-- The payer takes all remaining units unless that makes the share negative. -/
def absorbRemainder (payer : String) (remaining : ℤ) : Except SplitError (Dict String ℤ) :=
  if remaining = 0 then .ok floors
  else do
    let units ← expect (floors.get? payer) (.missingKey payer)
    require (0 ≤ units + remaining) (.payerCannotAbsorb payer units remaining)
    return floors.set payer (units + remaining)

/-- Remainders rank from the largest down, and equal ones by participant. -/
def remainderBefore (first second : String × ℚ) : Prop :=
  context.neg first.2 < context.neg second.2 ∨ (context.neg first.2 = context.neg second.2 ∧ first.1 ≤ second.1)

instance : DecidableRel (remainderBefore context) := fun _ _ => inferInstanceAs (Decidable (_ ∨ _))

/-- The first ranked participants receive one unit each. -/
def distributeRemainder (remainders : Dict String ℚ) (remaining : ℤ) : Except SplitError (Dict String ℤ) :=
  let ranked := remainders.entries.insertionSort (remainderBefore context)
  (List.range remaining.toNat).foldlM (fun floors index => do
    let entry ← expect ranked[index]? (.missingIndex index)
    expect (floors.modify? entry.1 fun units => units + 1) (.missingKey entry.1)) floors

/-- The remainder goes to the payer or to the largest fractions. -/
def spreadRemainder (remainderPolicy : RemainderPolicy) (payer : Option String)
    (floors : Dict String ℤ)
    (remainders : Dict String ℚ) (remaining : ℤ) : Except SplitError (Dict String ℤ) :=
  match remainderPolicy with
  | .payer => do
    let payer ← expect payer .policyWithoutPayer
    absorbRemainder floors payer remaining
  | .largestRemainder => distributeRemainder context floors remainders remaining
  | .unsupported name => .error (.unsupportedPolicy name)

/-- The minor units of one participant as an amount of the currency. -/
def amountOfUnits (currency : Currency) (participant : String) : Except SplitError (String × ℚ) := do
  let units ← expect (floors.get? participant) (.missingKey participant)
  let amount ← expect (context.quantize halfEven (minorUnits currency)
    (context.div units (10 ^ minorUnits currency))) (.money .invalidOperation)
  return (participant, amount)

end

/-- Stage B turns exact shares into minor units that add up to the total. -/
def allocateMinorUnits (exactTotal : ℚ) (currency : Currency)
    (participants : List String) (remainderPolicy : RemainderPolicy) (payer : Option String) :
    Except SplitError (Dict String ℚ) := do
  validateAllocatorInputs context exactShares exactTotal currency participants remainderPolicy payer
  let factor := 10 ^ minorUnits currency
  let totalUnits := truncate (toMinorUnits context exactTotal factor)
  let bases := participants.map (baseUnits context exactShares factor remainderPolicy)
  let floors := Dict.ofList (bases.map fun units => (units.participant, units.base))
  let remainders := Dict.ofList (bases.map fun units => (units.participant, units.remainder))
  let remaining := totalUnits - (bases.map BaseUnits.base).sum
  validateRemainderBounds remaining participants.length remainderPolicy
  let floors ← spreadRemainder context remainderPolicy payer floors remainders remaining
  let amounts ← participants.mapM (amountOfUnits context floors currency)
  let result := Dict.ofList amounts
  require (context.sumFrom 0 result.values = exactTotal)
    (.allocationMismatch (context.sumFrom 0 result.values) exactTotal)
  return result

end

end StageB

end FinanceCore.Calculators

import FinanceCore.Calculators.Readiness

namespace FinanceCore.Calculators

inductive ProjectionError where
  | noMembers
  | manyPayers
  | noPayer
  | unmappable (failure : MappingError)

def includedMembershipAndPayer (members : Dict String Member) : Except ProjectionError (List String × String) :=
  if members.entries = [] then .error .noMembers
  else
    match payerMembers members with
    | [] => .error .noPayer
    | [payerPublicId] => .ok (includedMembers members, payerPublicId)
    | _ => .error .manyPayers

/-- The calculator input of a ready fact set holds one receipt. -/
def projectCalculatorInput (receipt : ReceiptRow) (payload : FactSetPayload)
    (members : Dict String Member) : Except ProjectionError CaseData := do
  let (included, payerPublicId) ← includedMembershipAndPayer members
  let participants := buildParticipantList included payerPublicId
  let calculatorReceipt ← (buildCalculatorReceipt receipt.publicId receipt.merchant receipt.currency
    payerPublicId receipt.netPaidAmountCanonicalText payload included).mapError .unmappable
  return {
    caseId := some receipt.publicId
    currency := some receipt.currency
    participants := some participants
    payer := some payerPublicId
    receipts := [calculatorReceipt] }

end FinanceCore.Calculators

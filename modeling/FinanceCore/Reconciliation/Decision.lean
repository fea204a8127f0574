import FinanceCore.Calculation.CanonicalJson
import FinanceCore.Foundation.Sorting
import FinanceCore.Reconciliation.Models

namespace FinanceCore.Reconciliation

open Calculation Calendar Decimal Exceptions Money Sorting Text

def decisionContractVersion : String := "reconciliation-decision-v1"

def currentMatcherVersion : String := "reconciliation-matcher-v2"

def currentCompatibilityVersion : String := "reconciliation-direction-compatibility-v1"

def currentMerchantNormalizationVersion : String := "merchant-normalization-v1"

def candidateSetVersion : String := "reconciliation-candidate-set-v1"

def decisionHashDomain : String := "finance-reconciliation-decision-v1"

def candidateHashDomain : String := "finance-reconciliation-candidate-set-v1"

def statementIdDomain : String := "finance-reconciliation-statement-identity-v1"

/-- Whether a candidate fits the direction of a statement line. -/
inductive CompatibilityResult where
  | compatible | incompatible | reviewRequired
deriving DecidableEq

def CompatibilityResult.value : CompatibilityResult → String
  | .compatible => "compatible"
  | .incompatible => "incompatible"
  | .reviewRequired => "review_required"

/-- The sign of the amount as the statement wrote it. -/
inductive OriginalAmountSign where
  | positive | negative | zero | missing

def OriginalAmountSign.value : OriginalAmountSign → String
  | .positive => "positive"
  | .negative => "negative"
  | .zero => "zero"
  | .missing => "missing"

/-- The result of the direction check with its reason. -/
structure DirectionCompatibility where
  result : CompatibilityResult
  reasonCode : ReasonCode
  transactionType : ReconciliationTransactionType

/-- How far one candidate came through the gates. -/
structure CandidateEvaluation where
  candidate : InternalCandidate
  transactionType : ReconciliationTransactionType
  compatibility : CompatibilityResult
  compatibilityReason : ReasonCode
  hardGateResults : List String
  dateResult : Option DateMatchResult := none
  statementMerchantNormalized : Option String := none
  candidateMerchantNormalized : Option String := none
  merchantSimilarityScore : Option FloatReading := none
  merchantExact : Bool := false
  merchantNormalizedMatch : Bool := false
  eligible : Bool := false

/-- The hash of a decision with the material that it seals. -/
structure DecisionRecord where
  (decisionHash decisionMaterialJson candidateSetFingerprint : String)

/-- The transaction types that the intents of the parser stand for. -/
def intentTypeMap : List (String × ReconciliationTransactionType) :=
  [("expense", .expense), ("personal_expense", .expense), ("personal_expense_log", .expense),
    ("simple_expense", .expense), ("simple_expense_log", .expense), ("shared_expense", .expense),
    ("shared_expense_log", .expense), ("income", .income), ("reimbursement_received", .income),
    ("dividend_income", .income), ("refund", .refund), ("reversal", .reversal), ("chargeback", .chargeback),
    ("card_payment", .cardPayment), ("payment", .cardPayment), ("transfer_in", .transferIn),
    ("transfer_out", .transferOut), ("fee", .fee), ("investment_fee", .fee), ("interest_debit", .interestDebit),
    ("interest_credit", .interestCredit), ("cash_withdrawal", .cashWithdrawal), ("cash_deposit", .cashDeposit),
    ("unknown", .unknown)]

/-- The transaction types that a direction admits. -/
def compatibilityMatrix : StatementAmountDirection → List ReconciliationTransactionType
  | .debit => [.expense]
  | .credit => [.income]
  | .refund => [.refund]
  | .reversal => [.reversal]
  | .chargeback => [.chargeback]
  | .payment => [.cardPayment]
  | .cardPayment => [.cardPayment]
  | .transferIn => [.transferIn]
  | .transferOut => [.transferOut]
  | .fee => [.fee]
  | .interestDebit => [.interestDebit]
  | .interestCredit => [.interestCredit]
  | .cashWithdrawal => [.cashWithdrawal]
  | .cashDeposit => [.cashDeposit]
  | .interest | .unknown => []

/-- The directions that take money out of the account. -/
def outgoingDirections : List StatementAmountDirection :=
  [.debit, .payment, .cardPayment, .transferOut, .fee, .interestDebit, .cashWithdrawal]

/-- The directions that bring money in. -/
def incomingDirections : List StatementAmountDirection :=
  [.credit, .refund, .reversal, .chargeback, .transferIn, .interestCredit, .cashDeposit]

/-- The directions that say too little to match on. -/
def unclearDirections : List StatementAmountDirection := [.unknown, .interest]

/-- The sign that the raw text of an amount shows; parentheses mean a negative one. -/
def originalAmountSign (statement : StatementTransaction) : OriginalAmountSign :=
  if statement.amount.any fun number => number.value = 0 then .zero
  else
    match statement.rawAmount with
    | none => .missing
    | some raw =>
      if isBlank raw then .missing
      else if (strip raw).toList.head? = some '(' ∧ (strip raw).toList.getLast? = some ')' then .negative
      else if (strip raw).toList.head? = some '-' then .negative
      else .positive

section Evaluation

variable (platform : Platform)

/-- An unknown intent is an unknown type. -/
def intentType (raw : String) : ReconciliationTransactionType :=
  if isBlank raw then .unknown else (intentTypeMap.lookup (lower platform (strip raw))).getD .unknown

/-- The stated type goes before the intent. -/
def normalizeTransactionType (candidate : InternalCandidate) : ReconciliationTransactionType :=
  match candidate.transactionType, candidate.sourceType with
  | some (.inl known), _ => known
  | some (.inr raw), _ => intentType platform raw
  | none, some raw => intentType platform raw
  | none, none => .unknown

/-- A line without direction, or a candidate of unknown type, goes to review. -/
def checkDirectionCompatibility (direction : Option StatementAmountDirection)
    (candidate : InternalCandidate) :
    DirectionCompatibility :=
  match direction with
  | none => ⟨.reviewRequired, .missingDirection, normalizeTransactionType platform candidate⟩
  | some known =>
    if known ∈ unclearDirections then
      ⟨.reviewRequired, .unknownDirection, normalizeTransactionType platform candidate⟩
    else if normalizeTransactionType platform candidate = .unknown then
      ⟨.reviewRequired, .unknownTransactionType, normalizeTransactionType platform candidate⟩
    else if normalizeTransactionType platform candidate ∈ compatibilityMatrix known then
      ⟨.compatible, .directionTypeCompatible, normalizeTransactionType platform candidate⟩
    else ⟨.incompatible, .directionTypeIncompatible, normalizeTransactionType platform candidate⟩

/-- The reason for which a row is reviewed before any candidate is looked at. -/
def statementPrecheck (statement : StatementTransaction) : Option ReasonCode :=
  if [statement.publicId, statement.rowFingerprint, statement.statementRowReference].any (·.any isBlank) then
    some .invalidSourceIdentity
  else
    match statement.amountDirection with
    | none => some .missingDirection
    | some direction =>
      if direction ∈ unclearDirections then some .unknownDirection
      else if statement.amount.any fun number => number.value = 0 then some .zeroAmountRequiresReview
      else if lower platform (strip (statement.rawAmountType.getD "")) ∈ ["credit", "cr", "inflow"] ∧
          direction ∈ outgoingDirections then some .amountSignContradiction
      else if lower platform (strip (statement.rawAmountType.getD "")) ∈ ["debit", "dr", "outflow"] ∧
          direction ∈ incomingDirections then some .amountSignContradiction
      else none

/-- The tolerances and thresholds of one matching run. -/
structure MatchParameters where
  (dateToleranceDays postedDateWindowDays : ℤ)
  merchantSimilarityThreshold : FloatReading

/-- The thresholds that callers use when they name none. -/
def MatchParameters.standard : MatchParameters where
  dateToleranceDays := 3
  postedDateWindowDays := 3
  merchantSimilarityThreshold := ⟨"0.5", ⟨false, 5, -1⟩, by decide, by decide, by decide⟩

variable (parameters : MatchParameters) (statement : StatementTransaction) (candidate : InternalCandidate)

/-- The names agree up to case and outer blanks. -/
def merchantExactMatch : Bool :=
  lower platform (strip statement.merchantRaw) = lower platform (strip candidate.merchant)

/-- The names agree after normalization. -/
def merchantNormalizedMatch : Bool :=
  lower platform (statementMerchant platform statement) =
    lower platform (normalizeMerchant platform candidate.merchant)

/-- The gates that a compatible candidate of the right amount has passed. -/
def amountGates : List String :=
  ["source_identity_valid", "currency_compatible", ReasonCode.directionTypeCompatible.value,
    ReasonCode.exactAmountMatch.value]

/-- The last gate compares the merchant names. -/
def evaluateMerchant (dateResult : DateMatchResult) : CandidateEvaluation :=
  let similarity := platform.merchantSimilarity (statementMerchant platform statement)
    (normalizeMerchant platform candidate.merchant)
  let accepted := merchantExactMatch platform statement candidate || merchantNormalizedMatch platform statement candidate
    || decide (parameters.merchantSimilarityThreshold.number.value ≤ similarity.number.value)
  { candidate := candidate
    transactionType := normalizeTransactionType platform candidate
    compatibility := .compatible
    compatibilityReason := if accepted then .directionTypeCompatible else .weakMerchantMatch
    hardGateResults := amountGates ++ ["date_compatible:" ++ dateResult.matchedOn.value,
      if accepted then "merchant_compatible" else ReasonCode.weakMerchantMatch.value]
    dateResult := some dateResult
    statementMerchantNormalized := some (statementMerchant platform statement)
    candidateMerchantNormalized := some (normalizeMerchant platform candidate.merchant)
    merchantSimilarityScore := some similarity
    merchantExact := merchantExactMatch platform statement candidate
    merchantNormalizedMatch := merchantNormalizedMatch platform statement candidate
    eligible := accepted }

/-- A candidate passes the gates of currency, direction, amount, date and merchant in this order. -/
def evaluateCandidate : CandidateEvaluation :=
  if currencyMatch platform statement.currency (some candidate.currency) then
    let compatibility := checkDirectionCompatibility platform statement.amountDirection candidate
    if compatibility.result = .compatible then
      if statement.amount.any (amountExactMatch · candidate.amount) then
        let dateResult := matchDateWindow candidate.transactionDate statement.transactionDate statement.postedDate
          parameters.postedDateWindowDays
        if dateResult.matched then evaluateMerchant platform parameters statement candidate dateResult
        else
          { candidate := candidate
            transactionType := normalizeTransactionType platform candidate
            compatibility := .compatible
            compatibilityReason := .outsideDateTolerance
            hardGateResults := amountGates ++ [ReasonCode.outsideDateTolerance.value]
            dateResult := some dateResult }
      else
        { candidate := candidate
          transactionType := normalizeTransactionType platform candidate
          compatibility := .compatible
          compatibilityReason := .amountDiffers
          hardGateResults := ["source_identity_valid", "currency_compatible",
            ReasonCode.directionTypeCompatible.value, ReasonCode.amountDiffers.value] }
    else
      { candidate := candidate
        transactionType := normalizeTransactionType platform candidate
        compatibility := compatibility.result
        compatibilityReason := compatibility.reasonCode
        hardGateResults := ["source_identity_valid", "currency_compatible", compatibility.reasonCode.value] }
  else
    { candidate := candidate
      transactionType := normalizeTransactionType platform candidate
      compatibility := .incompatible
      compatibilityReason := .currencyDiffers
      hardGateResults := ["source_identity_valid", "currency_incompatible"] }

end Evaluation

/-- How a decision fails before it is recorded. -/
inductive MatchError where
  | negativeTolerance
  | thresholdOutOfRange
  | duplicateCandidates
  | amountTooLong
  | serialization (failure : CanonicalSerializationError)
deriving DecidableEq

section Record

variable (platform : Platform)

def textFingerprint (text : String) : String := platform.sha256Hex text.toUTF8

/-- The digest of a text under a domain. -/
def domainHash (domain payload : String) : String :=
  platform.sha256Hex (domain.toUTF8 ++ ⟨#[0]⟩ ++ payload.toUTF8)

/-- A missing text is null. -/
def optionalText : Option String → Value
  | none => .null
  | some text => .text text

/-- The ISO text of a date. -/
def dateText (date : Option CalendarDate) : Option String := date.map fun day => String.ofList (isoDate day)

/-- The canonical text of an amount, where it has one. -/
def decimalText : Option Number → Except MatchError (Option String)
  | none => .ok none
  | some number => some <$> expect (canonicalDecimalStr number) .amountTooLong

/-- The text that a fingerprint is taken of. -/
def canonicalText (value : Value) : Except MatchError String :=
  (canonicalJsonText platform.tables value).mapError .serialization

/-- The identity of a line that has none is the hash of what it states. -/
def deriveStatementIdentity (statement : StatementTransaction) : Except MatchError String :=
  match [statement.publicId, statement.rowFingerprint, statement.statementRowReference].findSome? fun value =>
      value.bind fun text => if isBlank text then none else some (strip text) with
  | some identity => .ok identity
  | none => do
    let amount ← decimalText statement.amount
    let material ← canonicalText platform (.mapping
      [("contract_version", .text statementIdDomain),
        ("source_batch_id", optionalText statement.sourceBatchId),
        ("transaction_date", optionalText (dateText statement.transactionDate)),
        ("posted_date", optionalText (dateText statement.postedDate)),
        ("merchant_fingerprint", .text (textFingerprint platform statement.merchantRaw)),
        ("amount", optionalText amount),
        ("currency", optionalText statement.currency),
        ("direction", optionalText (statement.amountDirection.map StatementAmountDirection.value)),
        ("raw_amount", optionalText statement.rawAmount)])
    return domainHash platform statementIdDomain material

/-- The entry of one candidate in the hashed material. -/
def candidateMaterial (evaluation : CandidateEvaluation) : Except MatchError Value := do
  let amount ← expect (canonicalDecimalStr evaluation.candidate.amount) MatchError.amountTooLong
  let score ← decimalText (evaluation.merchantSimilarityScore.map FloatReading.number)
  return .mapping
    [("candidate_public_id", .text evaluation.candidate.internalId),
      ("transaction_type", .text evaluation.transactionType.value),
      ("transaction_date", .text (String.ofList (isoDate evaluation.candidate.transactionDate))),
      ("posted_date", optionalText (dateText evaluation.candidate.postedDate)),
      ("amount", .text amount),
      ("currency", .text evaluation.candidate.currency),
      ("merchant_fingerprint", .text (textFingerprint platform evaluation.candidate.merchant)),
      ("merchant_normalized", optionalText evaluation.candidateMerchantNormalized),
      ("merchant_similarity_score", optionalText score),
      ("date_delta_days", match evaluation.dateResult.bind DateMatchResult.dayDelta with
        | some days => .integer days
        | none => .null),
      ("comparison_date_source", optionalText (evaluation.dateResult.map fun result => result.matchedOn.value)),
      ("hard_gate_results", .sequence .list (evaluation.hardGateResults.map .text)),
      ("compatibility_result", .text evaluation.compatibility.value),
      ("compatibility_reason", .text evaluation.compatibilityReason.value),
      ("eligible", .boolean evaluation.eligible),
      ("evidence_reference", optionalText evaluation.candidate.evidenceReference)]

/-- The candidate entries in the order of their identities. -/
def candidateSetMaterial (evaluations : List CandidateEvaluation) : Except MatchError (List Value) := do
  let entries ← evaluations.mapM fun evaluation =>
    (evaluation.candidate.internalId, ·) <$> candidateMaterial platform evaluation
  return (sortOn Prod.fst entries).map Prod.snd

/-- The fingerprint of all candidates of a line. -/
def candidateSetFingerprint (candidates : List Value) : Except MatchError String := do
  let text ← canonicalText platform (.mapping
    [("candidate_set_version", .text candidateSetVersion), ("candidates", .sequence .list candidates)])
  return domainHash platform candidateHashDomain text

/-- What a decision seals of its line. -/
def statementMaterial (statement : StatementTransaction) : Except MatchError Value := do
  let identity ← deriveStatementIdentity platform statement
  let amount ← decimalText statement.amount
  return .mapping
    [("derived_identity", .text identity),
      ("public_id", optionalText statement.publicId),
      ("row_fingerprint", optionalText statement.rowFingerprint),
      ("source_content_hash", optionalText statement.sourceContentHash),
      ("source_batch_id", optionalText statement.sourceBatchId),
      ("row_reference", optionalText statement.statementRowReference),
      ("original_amount_text", optionalText statement.rawAmount),
      ("original_amount_type", optionalText statement.rawAmountType),
      ("original_amount_sign", .text (originalAmountSign statement).value),
      ("normalized_amount", optionalText amount),
      ("currency", optionalText statement.currency),
      ("direction", optionalText (statement.amountDirection.map StatementAmountDirection.value)),
      ("transaction_date", optionalText (dateText statement.transactionDate)),
      ("posted_date", optionalText (dateText statement.postedDate)),
      ("merchant_fingerprint", .text (textFingerprint platform statement.merchantRaw)),
      ("merchant_normalized", .text (statementMerchant platform statement))]

/-- The versions and the authorization that a decision is made under. -/
structure DecisionVersions where
  matcherVersion : String := currentMatcherVersion
  compatibilityVersion : String := currentCompatibilityVersion
  merchantNormalizationVersion : String := currentMerchantNormalizationVersion
  authorizationPublicId : Option String := none

/-- The final decision as texts, from the match result or from the stored columns. -/
structure FinalDecision where
  status : String
  reasonCodes : List String
  (bestCandidatePublicId authorizationPublicId : Option String)

/-- The hashed material of a decision, from its parts. -/
def decisionMaterial (contractVersion : String) (versions : DecisionVersions)
    (statement thresholds : Value)
    (fingerprint : String) (candidates : List Value) (decision : FinalDecision) : Value :=
  .mapping
    [("decision_contract_version", .text contractVersion),
      ("matcher_version", .text versions.matcherVersion),
      ("compatibility_version", .text versions.compatibilityVersion),
      ("merchant_normalization_version", .text versions.merchantNormalizationVersion),
      ("statement", statement),
      ("thresholds", thresholds),
      ("candidate_set_fingerprint", .text fingerprint),
      ("candidates", .sequence .list candidates),
      ("final_decision", .mapping
        [("status", .text decision.status),
          ("reason_codes", .sequence .list (decision.reasonCodes.map .text)),
          ("best_candidate_public_id", optionalText decision.bestCandidatePublicId),
          ("authorization_public_id", optionalText decision.authorizationPublicId)])]

/-- What a decision seals of its parameters. -/
def thresholdMaterial (parameters : MatchParameters) : Value :=
  .mapping
    [("date_tolerance_days", .integer parameters.dateToleranceDays),
      ("posted_date_window_days", .integer parameters.postedDateWindowDays),
      ("merchant_similarity_threshold", .text parameters.merchantSimilarityThreshold.text)]

/-- The record of a result, sealed over line, candidates and parameters. -/
def buildDecisionRecord (parameters : MatchParameters) (versions : DecisionVersions)
    (statement : StatementTransaction) (result : MatchResult)
    (evaluations : List CandidateEvaluation) :
    Except MatchError DecisionRecord := do
  let candidates ← candidateSetMaterial platform evaluations
  let fingerprint ← candidateSetFingerprint platform candidates
  let described ← statementMaterial platform statement
  let material ← canonicalText platform (decisionMaterial decisionContractVersion versions described
    (thresholdMaterial parameters) fingerprint candidates
    { status := result.status.value
      reasonCodes := result.reasons.map ReasonCode.value
      bestCandidatePublicId := result.bestCandidate.map InternalCandidate.internalId
      authorizationPublicId := versions.authorizationPublicId })
  return {
    decisionHash := domainHash platform decisionHashDomain material
    decisionMaterialJson := material
    candidateSetFingerprint := fingerprint }

end Record

end FinanceCore.Reconciliation

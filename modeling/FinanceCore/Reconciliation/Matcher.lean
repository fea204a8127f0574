import FinanceCore.Reconciliation.Decision

namespace FinanceCore.Reconciliation

open Decimal Exceptions Sorting

section Evidence

variable (platform : Platform)

def baselineEvidence (statement : StatementTransaction)
    (candidates : List InternalCandidate) : MatchEvidence where
  statementAmount := statement.amount
  statementCurrency := statement.currency
  statementTxnDate := statement.transactionDate
  statementPostedDate := statement.postedDate
  statementMerchant := some statement.merchantRaw
  statementMerchantNormalized := some (statementMerchant platform statement)
  candidateCount := candidates.length
  statementDirection := statement.amountDirection.map StatementAmountDirection.value
  originalAmountText := statement.rawAmount
  originalAmountSign := some (originalAmountSign statement).value

def evaluationEvidence (statement : StatementTransaction) (evaluation : CandidateEvaluation)
    (dateToleranceDays : ℤ) : MatchEvidence where
  statementAmount := statement.amount
  candidateAmount := some evaluation.candidate.amount
  statementCurrency := statement.currency
  candidateCurrency := some evaluation.candidate.currency
  statementTxnDate := statement.transactionDate
  statementPostedDate := statement.postedDate
  candidateTxnDate := some evaluation.candidate.transactionDate
  dateDeltaDays := evaluation.dateResult.bind DateMatchResult.dayDelta
  dateToleranceDays := dateToleranceDays
  statementMerchant := some statement.merchantRaw
  candidateMerchant := some evaluation.candidate.merchant
  statementMerchantNormalized := evaluation.statementMerchantNormalized
  candidateMerchantNormalized := evaluation.candidateMerchantNormalized
  merchantSimilarity := evaluation.merchantSimilarityScore
  candidateCount := 1
  statementDirection := statement.amountDirection.map StatementAmountDirection.value
  candidateTransactionType := some evaluation.transactionType.value
  originalAmountText := statement.rawAmount
  originalAmountSign := some (originalAmountSign statement).value
  compatibilityResult := some evaluation.compatibility.value
  hardGateResults := evaluation.hardGateResults

end Evidence

section Selection

variable (platform : Platform) (context : Context) (statement : StatementTransaction) (dateToleranceDays : ℤ)

def candidatesAreDuplicates (first second : InternalCandidate) : Bool :=
  first.amount.value = second.amount.value ∧ first.currency = second.currency ∧
    first.transactionDate = second.transactionDate ∧
    normalizeMerchant platform first.merchant = normalizeMerchant platform second.merchant

/-- Better merchant scores come first, then smaller identities. -/
def scoreKey (evaluation : CandidateEvaluation) : ℚ ×ₗ String :=
  toLex (context.neg (evaluation.merchantSimilarityScore.elim 0 fun score => score.number.value),
    evaluation.candidate.internalId)

def dateReason : MatchedOn → List ReasonCode
  | .transactionDate => [.transactionDateWithinTolerance]
  | .postedDate => [.postedDateWithinTolerance]
  | .postedDateWindow => [.postedDateWindowMatch]
  | .none => []

/-- The reasons of the one match that is left. -/
def matchedReasons (evaluation : CandidateEvaluation) : List ReasonCode :=
  [.sameCurrency, .directionTypeCompatible, .exactAmountMatch] ++
    evaluation.dateResult.elim [] (fun result => dateReason result.matchedOn) ++
    [if evaluation.merchantExact then .merchantExactMatch
      else if evaluation.merchantNormalizedMatch then .merchantNormalizedMatch
      else .merchantSimilarityMatch]

/-- The result that one evaluation is the evidence of. -/
def evaluatedResult (status : MatchStatus) (reasons : List ReasonCode)
    (evaluation : CandidateEvaluation) (considered : List CandidateEvaluation) : MatchResult where
  status := status
  reasons := reasons
  evidence := evaluationEvidence statement evaluation dateToleranceDays
  statement := statement
  candidates := considered.map CandidateEvaluation.candidate

section

variable (evaluations : List CandidateEvaluation)

def currencyMatched : List CandidateEvaluation :=
  evaluations.filter fun evaluation => "currency_compatible" ∈ evaluation.hardGateResults

def directionMatched : List CandidateEvaluation :=
  (currencyMatched evaluations).filter fun evaluation => evaluation.compatibility = .compatible

def amountMatched : List CandidateEvaluation :=
  (directionMatched evaluations).filter fun evaluation =>
    ReasonCode.exactAmountMatch.value ∈ evaluation.hardGateResults

def dateMatched : List CandidateEvaluation :=
  (amountMatched evaluations).filter fun evaluation => evaluation.dateResult.any DateMatchResult.matched

def scored : List CandidateEvaluation :=
  sortOn (scoreKey context) ((dateMatched evaluations).filter CandidateEvaluation.eligible)

/-- The candidates that passed every gate, by their number. -/
def scoredResult : List CandidateEvaluation → Option MatchResult
  | [] => none
  | [evaluation] => some
      { evaluatedResult statement dateToleranceDays .matched (matchedReasons evaluation) evaluation [evaluation] with
        bestCandidate := some evaluation.candidate }
  | first :: second :: rest => some
      (evaluatedResult statement dateToleranceDays
        (if candidatesAreDuplicates platform first.candidate second.candidate then .possibleDuplicate else .ambiguous)
        [.multipleCandidateMatches] first (first :: second :: rest))

/-- The first gate at which no candidate is left decides the status. -/
def resultFromEvaluations : MatchResult :=
  match currencyMatched evaluations with
  | [] =>
    { status := .currencyMismatch
      reasons := [.currencyDiffers]
      evidence := baselineEvidence platform statement (evaluations.map CandidateEvaluation.candidate)
      statement := statement
      candidates := evaluations.map CandidateEvaluation.candidate }
  | head :: rest =>
    match directionMatched evaluations with
    | [] =>
      let review := ((head :: rest).find? fun evaluation => evaluation.compatibility = .reviewRequired).getD head
      evaluatedResult statement dateToleranceDays .needsReview [review.compatibilityReason] review (head :: rest)
    | head :: rest =>
      match amountMatched evaluations with
      | [] => evaluatedResult statement dateToleranceDays .amountMismatch [.amountDiffers] head (head :: rest)
      | head :: rest =>
        match dateMatched evaluations with
        | [] =>
          evaluatedResult statement dateToleranceDays .dateMismatch [.outsideDateTolerance] head (head :: rest)
        | head :: rest =>
          (scoredResult platform statement dateToleranceDays (scored context evaluations)).getD
            (evaluatedResult statement dateToleranceDays .merchantMismatch [.weakMerchantMatch] head
              (head :: rest))

end

end Selection

section Matcher

variable (platform : Platform) (context : Context) (parameters : MatchParameters) (versions : DecisionVersions)

def validateMatcherParameters : Except MatchError Unit := do
  require (0 ≤ parameters.dateToleranceDays ∧ 0 ≤ parameters.postedDateWindowDays) .negativeTolerance
  require (0 ≤ parameters.merchantSimilarityThreshold.number.value ∧
    parameters.merchantSimilarityThreshold.number.value ≤ 1) .thresholdOutOfRange

def attachDecisionHash (result : MatchResult) (statement : StatementTransaction)
    (evaluations : List CandidateEvaluation) : Except MatchError MatchResult := do
  let record ← buildDecisionRecord platform parameters versions statement result evaluations
  return { result with
    proof := some
      { decisionHash := record.decisionHash
        decisionMaterialJson := record.decisionMaterialJson
        candidateSetFingerprint := record.candidateSetFingerprint
        decisionContractVersion := "reconciliation-decision-v1"
        matcherVersion := versions.matcherVersion
        compatibilityVersion := versions.compatibilityVersion
        merchantNormalizationVersion := versions.merchantNormalizationVersion
        authorizationPublicId := versions.authorizationPublicId } }

section

variable (statement : StatementTransaction)

section

variable (candidates : List InternalCandidate)

def evaluateAll : List CandidateEvaluation :=
  candidates.map (evaluateCandidate platform parameters statement)

/-- The result of one row before its decision is hashed. -/
def undecidedResult : MatchResult :=
  match statementPrecheck platform statement with
  | some reason =>
    { status := .needsReview
      reasons := [reason]
      evidence := baselineEvidence platform statement candidates
      statement := statement
      candidates := candidates }
  | none =>
    if statement.transactionDate = none ∧ statement.postedDate = none then
      { status := .needsReview
        reasons := [.missingStatementDate]
        evidence := baselineEvidence platform statement candidates
        statement := statement
        candidates := candidates }
    else if candidates = [] then
      { status := .noMatch
        reasons := [.noCandidateFound]
        evidence := baselineEvidence platform statement candidates
        statement := statement }
    else resultFromEvaluations platform context statement parameters.dateToleranceDays
      (evaluateAll platform parameters statement candidates)

def matchStatement : Except MatchError MatchResult := do
  validateMatcherParameters parameters
  require (candidates.map InternalCandidate.internalId).Nodup .duplicateCandidates
  attachDecisionHash platform parameters versions (undecidedResult platform context parameters statement candidates)
    statement (evaluateAll platform parameters statement candidates)

end

end

end Matcher

end FinanceCore.Reconciliation

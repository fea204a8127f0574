import FinanceCore.Foundation.DecimalText
import FinanceCore.Reconciliation.Matcher

namespace FinanceCore.Reconciliation

open Calendar Decimal Text

inductive IssueType where
  | matched | amountMismatch | currencyMismatch | dateMismatch | merchantMismatch | missingInApp | missingInStatement
  | dateWindowMatch | merchantVariation | lowConfidenceMatch | possibleDuplicate | needsReview
deriving DecidableEq

def IssueType.value : IssueType → String
  | .matched => "matched"
  | .amountMismatch => "amount_mismatch"
  | .currencyMismatch => "currency_mismatch"
  | .dateMismatch => "date_mismatch"
  | .merchantMismatch => "merchant_mismatch"
  | .missingInApp => "missing_in_app"
  | .missingInStatement => "missing_in_statement"
  | .dateWindowMatch => "date_window_match"
  | .merchantVariation => "merchant_variation"
  | .lowConfidenceMatch => "low_confidence_match"
  | .possibleDuplicate => "possible_duplicate"
  | .needsReview => "needs_review"

/-- An amount above zero; infinity is one. -/
def isPositive : Literal → Bool
  | .finite number => 0 < number.value
  | .infinite negative => !negative
  | .nan _ _ => false

/-- A transaction of the app that a statement row may belong to. -/
structure AppTransaction where
  appTxnId : String
  transactionDate : CalendarDate
  merchant : String
  amount : Literal
  currency : String
  sourceType : Option String := none
  normalizedMerchant : Option String := none
  postedDate : Option CalendarDate := none
  transactionType : Option (ReconciliationTransactionType ⊕ String) := none
  sourceChannel : Option String := none
  amountPositive : isPositive amount = true := by decide +kernel

/-- A decimal with one place. -/
def tenths (count : ℕ) : Number := ⟨false, count, -1⟩

inductive ReviewPriority where
  | high | medium | low

/-- What the matching engine finds for one statement row. -/
structure ReconciliationCandidate where
  statement : StatementTransaction
  bestAppTransaction : Option AppTransaction := none
  allAppTransactions : List AppTransaction := []
  matchStatus : MatchStatus := .noMatch
  reasonCodes : List ReasonCode := []
  issueType : IssueType := .needsReview
  confidenceScore : Number := tenths 0
  evidence : Option MatchEvidence := none
  candidateId : String := ""
  reviewPriority : ReviewPriority := .low
  isReviewRequired : Bool := true

inductive BatchError where
  | blankIdentity
  | amountNotFinite
  | matching (failure : MatchError)
deriving DecidableEq

def toInternal (app : AppTransaction) : Except BatchError InternalCandidate :=
  if identity : isBlank app.appTxnId = false then
    match shape : app.amount with
    | .finite number => .ok
        { internalId := app.appTxnId
          transactionDate := app.transactionDate
          merchant := app.merchant
          amount := number
          currency := app.currency
          sourceType := app.sourceType
          transactionType := app.transactionType
          identity := identity
          amountPositive := by
            have positive := app.amountPositive
            rw [shape] at positive
            exact of_decide_eq_true positive }
    | _ => .error .amountNotFinite
  else .error .blankIdentity

def appToInternal (apps : List AppTransaction) : Except BatchError (List InternalCandidate) := apps.mapM toInternal

/-- The entry for an app transaction that no statement row refers to. -/
def missingCandidate (app : AppTransaction) : Except BatchError ReconciliationCandidate :=
  match shape : app.amount with
  | .finite number => .ok
      { statement :=
          { transactionDate := some app.transactionDate
            postedDate := app.postedDate
            merchantRaw := app.merchant
            merchantNormalized := app.normalizedMerchant
            amount := some number
            currency := some app.currency
            amountDirection := some .unknown
            rawAmount := some (decimalStr number)
            amountNonneg := by
              have positive := app.amountPositive
              rw [shape] at positive
              exact decide_eq_true (of_decide_eq_true positive).le
            sourceContentHashShape := rfl }
        bestAppTransaction := some app
        allAppTransactions := [app]
        matchStatus := .noMatch
        reasonCodes := [.noCandidateFound]
        issueType := .missingInStatement
        confidenceScore := tenths 0
        evidence := none
        candidateId := "cand-missing-stmt-" ++ app.appTxnId }
  | _ => .error .amountNotFinite

def baseIssueType : MatchStatus → IssueType
  | .noMatch => .missingInApp
  | .amountMismatch => .amountMismatch
  | .currencyMismatch => .currencyMismatch
  | .dateMismatch => .dateMismatch
  | .merchantMismatch => .merchantMismatch
  | .possibleDuplicate => .possibleDuplicate
  | .ambiguous => .needsReview
  | .needsReview => .needsReview
  | .matched => .needsReview

def resultToIssueType (result : MatchResult) : IssueType :=
  if result.status ≠ .matched then baseIssueType result.status
  else
    let exactDate := .transactionDateWithinTolerance ∈ result.reasons ∨ .postedDateWithinTolerance ∈ result.reasons
    if .postedDateWindowMatch ∈ result.reasons ∧ ¬exactDate then
      if .merchantSimilarityMatch ∈ result.reasons then .merchantVariation else .dateWindowMatch
    else if .merchantSimilarityMatch ∈ result.reasons then .merchantVariation
    else if .merchantNormalizedMatch ∈ result.reasons ∧ .merchantExactMatch ∉ result.reasons then
      if exactDate then .matched
      else if .postedDateWindowMatch ∈ result.reasons then .merchantVariation
      else .matched
    else .matched

def computeConfidence (result : MatchResult) : Number :=
  match result.status with
  | .matched =>
    let base :=
      if .merchantExactMatch ∈ result.reasons then 10
      else if .merchantNormalizedMatch ∈ result.reasons then 8
      else if .merchantSimilarityMatch ∈ result.reasons then 6
      else 7
    tenths (max (if .postedDateWindowMatch ∈ result.reasons then base - 1 else base) 5)
  | .ambiguous => tenths 3
  | .possibleDuplicate => tenths 4
  | _ => tenths 0

section Batch

variable (platform : Platform) (context : Context) (parameters : MatchParameters)

def findApp (apps : List AppTransaction) (internalId : String) : Option AppTransaction :=
  apps.find? fun app => app.appTxnId = internalId

/-- The index of a row, written with at least three digits. -/
def paddedIndex (index : ℕ) : List Char := if index < 1000 then fixedDigits 3 index else natDigits index

/-- The reference of a row, or its merchant when it has none. -/
def rowLabel (statement : StatementTransaction) : String :=
  match statement.statementRowReference with
  | some reference => if reference = "" then statement.merchantRaw else reference
  | none => statement.merchantRaw

def candidateIdOf (index : ℕ) (statement : StatementTransaction) : String :=
  "cand-" ++ String.ofList (paddedIndex index) ++ "-" ++ rowLabel statement

/-- The candidate that the review queue shows for one matched row. -/
def batchCandidate (apps : List AppTransaction) (index : ℕ)
    (result : MatchResult) : ReconciliationCandidate where
  statement := result.statement
  bestAppTransaction :=
    match result.bestCandidate with
    | some best => findApp apps best.internalId
    | none => result.candidates.head?.bind fun first => findApp apps first.internalId
  allAppTransactions := result.candidates.filterMap fun candidate => findApp apps candidate.internalId
  matchStatus := result.status
  reasonCodes := result.reasons
  issueType := resultToIssueType result
  confidenceScore := computeConfidence result
  evidence := some result.evidence
  candidateId := candidateIdOf index result.statement

/-- The app transactions that some candidate mentions. -/
def referencedAppIds (candidates : List ReconciliationCandidate) : List String :=
  candidates.flatMap fun candidate =>
    (candidate.bestAppTransaction.toList ++ candidate.allAppTransactions).map AppTransaction.appTxnId

def matchedAppId (candidate : ReconciliationCandidate) : Option String :=
  if candidate.matchStatus = .matched then candidate.bestAppTransaction.map AppTransaction.appTxnId else none

def withDuplicateReason (reasons : List ReasonCode) : List ReasonCode :=
  if .multipleCandidateMatches ∈ reasons then reasons else reasons ++ [.multipleCandidateMatches]

def duplicateCandidate (candidate : ReconciliationCandidate) : ReconciliationCandidate where
  statement := candidate.statement
  bestAppTransaction := candidate.bestAppTransaction
  allAppTransactions := candidate.allAppTransactions
  matchStatus := .possibleDuplicate
  reasonCodes := withDuplicateReason candidate.reasonCodes
  issueType := .possibleDuplicate
  confidenceScore := tenths 4
  evidence := candidate.evidence
  candidateId := candidate.candidateId

/-- An identity is matched more than once. -/
def isReused (matchedIds : List String) (matchedId : String) : Bool := 1 < matchedIds.count matchedId

/-- Rows that claim an app transaction together lose their match. -/
def flagReusedMatchedAppTransactions (candidates : List ReconciliationCandidate) : List ReconciliationCandidate :=
  candidates.map fun candidate =>
    if (matchedAppId candidate).any (isReused (candidates.filterMap matchedAppId)) then duplicateCandidate candidate
    else candidate

def matchBatch (statements : List StatementTransaction) (apps : List AppTransaction) :
    Except BatchError (List ReconciliationCandidate) := do
  let internal ← appToInternal apps
  let results ← statements.mapM fun statement =>
    (matchStatement platform context parameters {} statement internal).mapError .matching
  let candidates := results.zipIdx.map fun numbered => batchCandidate apps numbered.2 numbered.1
  let missing ← (apps.filter fun app => app.appTxnId ∉ referencedAppIds candidates).mapM missingCandidate
  return flagReusedMatchedAppTransactions candidates ++ missing

end Batch

section Service

variable (platform : Platform) (context : Context) (matcherVersion : String)

def matchedCandidateId (result : MatchResult) : Option String :=
  if result.status = .matched then result.bestCandidate.map InternalCandidate.internalId else none

def duplicateResult (result : MatchResult) : MatchResult where
  status := .possibleDuplicate
  reasons := withDuplicateReason result.reasons
  evidence := result.evidence
  statement := result.statement
  bestCandidate := none
  candidates := result.candidates

/-- The service's own downgrade hashes the changed decision again. -/
def flagReusedMatchedCandidates (candidates : List InternalCandidate) (results : List MatchResult) :
    Except MatchError (List MatchResult) :=
  results.mapM fun result =>
    if (matchedCandidateId result).any (isReused (results.filterMap matchedCandidateId)) then
      attachDecisionHash platform .standard { matcherVersion := matcherVersion } (duplicateResult result)
        result.statement (evaluateAll platform .standard result.statement candidates)
    else .ok result

/-- The decisions that a run of the service makes for the rows of a batch. -/
def serviceResults (statements : List StatementTransaction) (candidates : List InternalCandidate) :
    Except MatchError (List MatchResult) := do
  let results ← statements.mapM fun statement =>
    matchStatement platform context .standard { matcherVersion := matcherVersion } statement candidates
  flagReusedMatchedCandidates platform matcherVersion candidates results

end Service

end FinanceCore.Reconciliation

import FinanceCore.Foundation.Calendar
import FinanceCore.Foundation.Normalization
import FinanceCore.Money.CanonicalText

namespace FinanceCore.Reconciliation

open Calendar Decimal Text Unicode

inductive MatchStatus where
  | matched | noMatch | amountMismatch | currencyMismatch | dateMismatch | merchantMismatch | possibleDuplicate
  | ambiguous | needsReview
deriving DecidableEq

def MatchStatus.value : MatchStatus → String
  | .matched => "matched"
  | .noMatch => "no_match"
  | .amountMismatch => "amount_mismatch"
  | .currencyMismatch => "currency_mismatch"
  | .dateMismatch => "date_mismatch"
  | .merchantMismatch => "merchant_mismatch"
  | .possibleDuplicate => "possible_duplicate"
  | .ambiguous => "ambiguous"
  | .needsReview => "needs_review"

inductive ReasonCode where
  | exactAmountMatch | sameCurrency | transactionDateWithinTolerance | postedDateWithinTolerance
  | postedDateWindowMatch | merchantExactMatch | merchantNormalizedMatch | merchantSimilarityMatch
  | directionTypeCompatible
  | amountDiffers | currencyDiffers | outsideDateTolerance | noCandidateFound | weakMerchantMatch
  | missingStatementDate | missingInternalDate | multipleCandidateMatches | needsReview | missingDirection
  | unknownDirection | directionTypeIncompatible | unknownTransactionType | amountSignContradiction
  | zeroAmountRequiresReview | invalidSourceIdentity
deriving DecidableEq

def ReasonCode.value : ReasonCode → String
  | .exactAmountMatch => "exact_amount_match"
  | .sameCurrency => "same_currency"
  | .transactionDateWithinTolerance => "transaction_date_within_tolerance"
  | .postedDateWithinTolerance => "posted_date_within_tolerance"
  | .postedDateWindowMatch => "posted_date_window_match"
  | .merchantExactMatch => "merchant_exact_match"
  | .merchantNormalizedMatch => "merchant_normalized_match"
  | .merchantSimilarityMatch => "merchant_similarity_match"
  | .directionTypeCompatible => "direction_type_compatible"
  | .amountDiffers => "amount_differs"
  | .currencyDiffers => "currency_differs"
  | .outsideDateTolerance => "outside_date_tolerance"
  | .noCandidateFound => "no_candidate_found"
  | .weakMerchantMatch => "weak_merchant_match"
  | .missingStatementDate => "missing_statement_date"
  | .missingInternalDate => "missing_internal_date"
  | .multipleCandidateMatches => "multiple_candidate_matches"
  | .needsReview => "needs_review"
  | .missingDirection => "missing_direction"
  | .unknownDirection => "unknown_direction"
  | .directionTypeIncompatible => "direction_type_incompatible"
  | .unknownTransactionType => "unknown_transaction_type"
  | .amountSignContradiction => "amount_sign_contradiction"
  | .zeroAmountRequiresReview => "zero_amount_requires_review"
  | .invalidSourceIdentity => "invalid_source_identity"

inductive StatementAmountDirection where
  | debit | credit | refund | reversal | payment | fee | interest | chargeback | cardPayment | transferIn | transferOut
  | interestDebit | interestCredit | cashWithdrawal | cashDeposit | unknown
deriving DecidableEq

def StatementAmountDirection.value : StatementAmountDirection → String
  | .debit => "debit"
  | .credit => "credit"
  | .refund => "refund"
  | .reversal => "reversal"
  | .payment => "payment"
  | .fee => "fee"
  | .interest => "interest"
  | .chargeback => "chargeback"
  | .cardPayment => "card_payment"
  | .transferIn => "transfer_in"
  | .transferOut => "transfer_out"
  | .interestDebit => "interest_debit"
  | .interestCredit => "interest_credit"
  | .cashWithdrawal => "cash_withdrawal"
  | .cashDeposit => "cash_deposit"
  | .unknown => "unknown"

inductive ReconciliationTransactionType where
  | expense | income | refund | reversal | chargeback | cardPayment | transferIn | transferOut | fee | interestDebit
  | interestCredit | cashWithdrawal | cashDeposit | unknown
deriving DecidableEq

def ReconciliationTransactionType.value : ReconciliationTransactionType → String
  | .expense => "expense"
  | .income => "income"
  | .refund => "refund"
  | .reversal => "reversal"
  | .chargeback => "chargeback"
  | .cardPayment => "card_payment"
  | .transferIn => "transfer_in"
  | .transferOut => "transfer_out"
  | .fee => "fee"
  | .interestDebit => "interest_debit"
  | .interestCredit => "interest_credit"
  | .cashWithdrawal => "cash_withdrawal"
  | .cashDeposit => "cash_deposit"
  | .unknown => "unknown"

def isSha256 (value : String) : Bool :=
  value.length == 64 && value.toList.all fun char => "0123456789abcdef".toList.contains char

/-- A finite float, known by its printed text and by the decimal that the text denotes. -/
structure FloatReading where
  text : String
  number : Number
  reads : parseLiteral text = some (.finite number)
  digits : number.coefficient < 10 ^ 18
  exponent : number.exponent.natAbs ≤ 400

/-- What the runtime supplies: the Unicode tables, SHA-256 in hexadecimal and the similarity of two merchant names. -/
structure Platform where
  normalization : Normalization
  characters : CharacterDatabase
  uppercase : Char → List Char
  sha256Hex : ByteArray → String
  merchantSimilarity : String → String → FloatReading
  digest : ∀ bytes, isSha256 (sha256Hex bytes) = true

def Platform.tables (platform : Platform) : NormalizationTables := platform.normalization.toNormalizationTables

/-- One row of an imported statement. -/
structure StatementTransaction where
  (transactionDate postedDate : Option CalendarDate)
  merchantRaw : String
  merchantNormalized : Option String := none
  amount : Option Number := none
  currency : Option String := none
  sourceBatchId : Option String := none
  statementRowReference : Option String := none
  publicId : Option String := none
  rowFingerprint : Option String := none
  sourceContentHash : Option String := none
  amountDirection : Option StatementAmountDirection := none
  (rawAmount rawAmountType accountName accountId : Option String := none)
  amountNonneg : amount.all (fun number => decide (0 ≤ number.value)) = true := by decide +kernel
  sourceContentHashShape : sourceContentHash.all isSha256 = true := by decide +kernel

/-- A record of the ledger that a statement row may be matched with. -/
structure InternalCandidate where
  internalId : String
  transactionDate : CalendarDate
  merchant : String
  amount : Number
  currency : String
  sourceType : Option String := none
  evidenceReference : Option String := none
  transactionType : Option (ReconciliationTransactionType ⊕ String) := none
  postedDate : Option CalendarDate := none
  identity : isBlank internalId = false := by decide +kernel
  amountPositive : 0 < amount.value := by decide +kernel

/-- The deterministic evidence of one match attempt. -/
structure MatchEvidence where
  statementAmount : Option Number := none
  candidateAmount : Option Number := none
  statementCurrency : Option String := none
  candidateCurrency : Option String := none
  statementTxnDate : Option CalendarDate := none
  statementPostedDate : Option CalendarDate := none
  candidateTxnDate : Option CalendarDate := none
  dateDeltaDays : Option ℕ := none
  dateToleranceDays : ℤ := 3
  statementMerchant : Option String := none
  candidateMerchant : Option String := none
  statementMerchantNormalized : Option String := none
  candidateMerchantNormalized : Option String := none
  merchantSimilarity : Option FloatReading := none
  candidateCount : ℕ := 0
  statementDirection : Option String := none
  candidateTransactionType : Option String := none
  originalAmountText : Option String := none
  originalAmountSign : Option String := none
  compatibilityResult : Option String := none
  hardGateResults : List String := []

/-- The decision proof that is attached to a match result. -/
structure DecisionProof where
  (decisionHash decisionMaterialJson candidateSetFingerprint decisionContractVersion matcherVersion : String)
  (compatibilityVersion merchantNormalizationVersion : String)
  authorizationPublicId : Option String

structure MatchResult where
  status : MatchStatus
  reasons : List ReasonCode
  evidence : MatchEvidence := {}
  statement : StatementTransaction
  bestCandidate : Option InternalCandidate := none
  candidates : List InternalCandidate := []
  proof : Option DecisionProof := none

/-- Conservative merchant aliases. -/
def merchantAliasMap : List (String × String) :=
  [("apple.com/bill", "apple"), ("apple", "apple"), ("google", "google"), ("google play", "google"),
    ("google *youtube", "google"), ("netflix", "netflix"), ("netflix.com", "netflix"), ("spotify", "spotify"),
    ("spotify usa", "spotify"), ("uber", "uber"), ("uber trip", "uber"), ("uber eats", "uber"), ("grab", "grab"),
    ("grab taxi", "grab"), ("grab food", "grab"), ("foodpanda", "foodpanda"), ("foodpanda sg", "foodpanda"),
    ("shopee", "shopee"), ("shopee pay", "shopee"), ("lazada", "lazada"), ("lazada sg", "lazada"),
    ("amazon", "amazon"), ("amazon prime", "amazon"), ("amazon web services", "amazon"), ("aws", "amazon")]

section Helpers

variable (platform : Platform)

def lower (text : String) : String := String.ofList (platform.characters.lower text.toList)

def upper (text : String) : String := String.ofList (text.toList.flatMap platform.uppercase)

def normalizeMerchant (raw : String) : String :=
  (merchantAliasMap.lookup (lower platform (strip raw))).getD (lower platform (strip raw))

/-- The name given by the import, or the normalized raw name when there is none. -/
def statementMerchant (statement : StatementTransaction) : String :=
  match statement.merchantNormalized with
  | some given => if given = "" then normalizeMerchant platform statement.merchantRaw else given
  | none => normalizeMerchant platform statement.merchantRaw

def currencyMatch (statementCurrency candidateCurrency : Option String) : Bool :=
  match statementCurrency, candidateCurrency with
  | some first, some second => upper platform (strip first) = upper platform (strip second)
  | _, _ => false

end Helpers

inductive MatchedOn where
  | transactionDate | postedDate | postedDateWindow | none

def MatchedOn.value : MatchedOn → String
  | .transactionDate => "transaction_date"
  | .postedDate => "posted_date"
  | .postedDateWindow => "posted_date_window"
  | .none => "none"

structure DateMatchResult where
  matched : Bool
  matchedOn : MatchedOn
  dayDelta : Option ℕ := none

/-- The transaction date of the statement must be met exactly; a posted date alone opens a window before it. -/
def matchDateWindow (appDate : CalendarDate) (statementTransactionDate statementPostedDate : Option CalendarDate)
    (postedDateWindowDays : ℤ) : DateMatchResult :=
  match statementTransactionDate, statementPostedDate with
  | some stated, _ =>
    if appDate = stated then ⟨true, .transactionDate, some 0⟩
    else ⟨false, .none, some (ordinal appDate - ordinal stated).natAbs⟩
  | none, some posted =>
    if ordinal posted - ordinal appDate < 0 then ⟨false, .none, some (ordinal posted - ordinal appDate).natAbs⟩
    else if ordinal posted - ordinal appDate = 0 then ⟨true, .postedDate, some 0⟩
    else if ordinal posted - ordinal appDate ≤ postedDateWindowDays then
      ⟨true, .postedDateWindow, some (ordinal posted - ordinal appDate).natAbs⟩
    else ⟨false, .none, some (ordinal posted - ordinal appDate).natAbs⟩
  | none, none => ⟨false, .none, none⟩

def amountExactMatch (statementAmount candidateAmount : Number) : Bool := statementAmount.value = candidateAmount.value

end FinanceCore.Reconciliation

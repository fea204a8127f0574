import FinanceCore.Reconciliation.Batch

namespace FinanceCore.Reconciliation

open Calendar Decimal Exceptions Text
open Json (textOrNull)

inductive ResolutionAction where
  | confirmMatch | adjustAppTransaction | createMissingAppTransaction | markStatementOnly | markDuplicate | ignore
  | needsMoreInfo
deriving DecidableEq

def ResolutionAction.value : ResolutionAction → String
  | .confirmMatch => "confirm_match"
  | .adjustAppTransaction => "adjust_app_transaction"
  | .createMissingAppTransaction => "create_missing_app_transaction"
  | .markStatementOnly => "mark_statement_only"
  | .markDuplicate => "mark_duplicate"
  | .ignore => "ignore"
  | .needsMoreInfo => "needs_more_info"

inductive SuggestedAction where
  | confirmMatch | adjustAppTransaction | createMissingAppTransaction | markStatementOnly | markDuplicate | ignore
  | needsMoreInfo

/-- The evidence of a review as data; the apply runtime only hashes it with the item. -/
structure ReconciliationReviewEvidence where
  statementReference : Option String := none
  (statementTransactionDate statementPostedDate : Option CalendarDate := none)
  statementMerchant : Option String := none
  statementAmount : Option Number := none
  (statementCurrency appTransactionId : Option String := none)
  appTransactionDate : Option CalendarDate := none
  appMerchant : Option String := none
  appAmount : Option Literal := none
  appCurrency : Option String := none
  amountDelta : Option Literal := none
  dateDeltaDays : Option ℕ := none
  merchantSimilarity : Option FloatReading := none
  candidateCount : ℕ := 0
  reasonCodes : List ReasonCode := []
  issueType : IssueType := .needsReview
  reviewPriority : ReviewPriority := .low
  suggestedAction : SuggestedAction := .needsMoreInfo
  confidenceScore : Number := tenths 0

/-- A reconciliation candidate that waits for a human decision. -/
structure ReviewQueueItem where
  candidate : ReconciliationCandidate
  issueType : IssueType
  suggestedAction : SuggestedAction
  queueItemId : String := ""
  reasonCodes : List ReasonCode := []
  evidenceSummary : String := ""
  structuredEvidence : Option ReconciliationReviewEvidence := none
  priority : ℤ := 0

structure ResolutionDecision where
  (decisionId queueItemId : String)
  action : ResolutionAction
  note : String := ""
  reviewer : String := "human"
  resolvedAt : Option String := none

/-- The audit metadata of an instruction; a directly built one may hold anything. -/
inductive AuditMetadata where
  | fields (buildVersion source instructionId itemSha256 : String)
  | other
deriving DecidableEq

/-- What two instructions are compared by. -/
structure InstructionFields where
  (instructionId decisionId queueItemId candidateId : String)
  action : ResolutionAction
  (reviewer note : String)
  resolvedAt : Option String
  issueType : IssueType
  (statementRef appTransactionRef : Option String)
  evidenceRefs : List String
  auditMetadata : AuditMetadata
deriving DecidableEq

structure ApplyInstruction extends InstructionFields where
  item : Option ReviewQueueItem

structure ResolutionApplyResult where
  (applyId decisionId queueItemId candidateId : String)
  action : ResolutionAction
  success : Bool
  payload : Json.Value := .object []
  errorMessage : Option String := none
  auditEvidence : Json.Value
  (appliedAt reviewer note : String)
  statementReference : Option String := none
  appTransactionReference : Option String := none
  idempotent : Bool := false

inductive ApplyError where
  | instruction (message : String)
  | conflict (message : String)
  | missingEntry

/-- What the runtime supplies: the digest of an item, SHA-256 in hexadecimal, and the reading of an ISO datetime, which
tells whether it has an offset. -/
structure ApplyPlatform where
  itemSha256 : ReviewQueueItem → String
  sha256Hex : ByteArray → String
  fromIsoFormat : String → Option Bool

section Instruction

/-- The issues that an action resolves; none stands for all. -/
def supportedIssueTypes : ResolutionAction → List IssueType
  | .confirmMatch => [.matched, .needsReview]
  | .adjustAppTransaction =>
    [.amountMismatch, .currencyMismatch, .dateMismatch, .dateWindowMatch, .merchantMismatch, .merchantVariation]
  | .createMissingAppTransaction => [.missingInApp]
  | .markStatementOnly => [.missingInStatement, .needsReview]
  | .markDuplicate => [.possibleDuplicate]
  | .ignore => []
  | .needsMoreInfo => []

def isResolutionCompatible (action : ResolutionAction) (issueType : IssueType) : Bool :=
  supportedIssueTypes action = [] ∨ issueType ∈ supportedIssueTypes action

def quoted (text : String) : String := "'" ++ text ++ "'"

def incompatibleMessage (action : ResolutionAction) (issueType : IssueType) : String :=
  "Action " ++ quoted action.value ++ " is not compatible with issue type " ++ quoted issueType.value ++
    ". Supported issue types: " ++ String.intercalate ", " ((supportedIssueTypes action).map IssueType.value)

def requireNonempty (value label : String) : Except String Unit :=
  require (isBlank value = false) ("successful reconciliation " ++ label ++ " must be a nonempty string")

/-- The candidate field that an action refers to, when it is missing. -/
def checkInstructionReferences (candidate : ReconciliationCandidate)
    (action : ResolutionAction) : Option String :=
  match action with
  | .confirmMatch | .adjustAppTransaction =>
    if candidate.bestAppTransaction.isNone then
      some ("Action " ++ quoted action.value ++ " requires candidate field 'best_app_transaction' but it is None for " ++
        "candidate " ++ quoted candidate.candidateId)
    else none
  | .markDuplicate =>
    if candidate.allAppTransactions.length < 2 then
      some ("Action " ++ quoted action.value ++ " requires at least 2 app transactions for duplicate detection, " ++
        "but candidate " ++ quoted candidate.candidateId ++ " has " ++
        String.ofList (natDigits candidate.allAppTransactions.length))
    else none
  | .createMissingAppTransaction | .markStatementOnly | .ignore | .needsMoreInfo => none

def statementRefFromItem (item : ReviewQueueItem) : String := rowLabel item.candidate.statement

def appRefFromItem (item : ReviewQueueItem) : Option String :=
  item.candidate.bestAppTransaction.map AppTransaction.appTxnId

variable (platform : ApplyPlatform)

/-- A given time must be an ISO datetime with an offset. -/
def requireAwareTime (value label : String) : Except String Unit := do
  requireNonempty value label
  let aware ← expect (platform.fromIsoFormat value) ("successful reconciliation " ++ label ++ " is not ISO datetime")
  require (aware = true) ("successful reconciliation " ++ label ++ " must be timezone aware")

/-- The boundary between the review and the apply runtime. -/
def buildApplyInstruction (item : ReviewQueueItem) (decision : ResolutionDecision)
    (evidenceRefs : List String) (requireEvidenceRef : Bool) : Except String ApplyInstruction := do
  requireNonempty decision.decisionId "decision_id"
  requireNonempty decision.queueItemId "queue_item_id"
  requireNonempty decision.reviewer "reviewer"
  decision.resolvedAt.elim (.ok ()) (requireAwareTime platform · "resolved_at")
  require (decision.queueItemId = item.queueItemId) ("Decision queue_item_id " ++ quoted decision.queueItemId ++
    " does not match item queue_item_id " ++ quoted item.queueItemId)
  require (item.candidate.candidateId ≠ "") ("Candidate identity is ambiguous (empty candidate_id) for queue item " ++
    quoted item.queueItemId ++ ". Cannot build apply instruction.")
  require (isResolutionCompatible decision.action item.issueType = true)
    (incompatibleMessage decision.action item.issueType)
  (checkInstructionReferences item.candidate decision.action).elim (.ok ()) .error
  require (requireEvidenceRef = false ∨ evidenceRefs ≠ [])
    ("Evidence reference is required for apply instruction on queue item " ++ quoted item.queueItemId ++
      " but none provided.")
  require (decision.action ∉ [ResolutionAction.adjustAppTransaction, .createMissingAppTransaction] ∨
      item.candidate.statement.amount.isSome = true)
    ("Action " ++ quoted decision.action.value ++ " requires a statement amount but statement amount is None for " ++
      "candidate " ++ quoted item.candidate.candidateId)
  return {
    instructionId := "instr-" ++ decision.decisionId
    decisionId := decision.decisionId
    queueItemId := item.queueItemId
    candidateId := item.candidate.candidateId
    action := decision.action
    reviewer := decision.reviewer
    note := decision.note
    resolvedAt := decision.resolvedAt
    issueType := item.issueType
    statementRef := some (statementRefFromItem item)
    appTransactionRef := appRefFromItem item
    evidenceRefs := evidenceRefs
    auditMetadata := .fields "v1" "build_apply_instruction" ("instr-" ++ decision.decisionId)
      (platform.itemSha256 item)
    item := some item }

def metadataMessage : String := "apply instruction audit metadata is invalid"

/-- A directly built instruction must be the one that its own source gives. -/
def validateInstruction (instruction : ApplyInstruction) : Except String ReviewQueueItem := do
  let item ← expect instruction.item "apply instruction has no review queue source"
  requireNonempty instruction.instructionId "instruction_id"
  requireNonempty instruction.decisionId "decision_id"
  requireNonempty instruction.queueItemId "queue_item_id"
  requireNonempty instruction.candidateId "candidate_id"
  requireNonempty instruction.reviewer "reviewer"
  instruction.resolvedAt.elim (.ok ()) (requireAwareTime platform · "resolved_at")
  require (instruction.evidenceRefs.all fun reference => !isBlank reference) metadataMessage
  require (instruction.auditMetadata = .fields "v1" "build_apply_instruction" instruction.instructionId
    (platform.itemSha256 item)) metadataMessage
  let expected ← buildApplyInstruction platform item
    { decisionId := instruction.decisionId
      queueItemId := instruction.queueItemId
      action := instruction.action
      note := instruction.note
      reviewer := instruction.reviewer
      resolvedAt := instruction.resolvedAt }
    instruction.evidenceRefs false
  require (instruction.toInstructionFields = expected.toInstructionFields)
    "apply instruction differs from validated review source"
  return item

end Instruction

def literalStr : Literal → String
  | .finite number => decimalStr number
  | .infinite negative => if negative then "-Infinity" else "Infinity"
  | .nan negative signaling => (if negative then "-" else "") ++ if signaling then "sNaN" else "NaN"

def isoText (date : CalendarDate) : String := String.ofList (isoDate date)

/-- A missing amount and a zero amount are both left out. -/
def amountText (statement : StatementTransaction) : Json.Value :=
  textOrNull ((statement.amount.filter fun number => number.value ≠ 0).map decimalStr)

def dateEntry (key : String) (date : Option CalendarDate) : List (String × Json.Value) :=
  (date.map fun day => (key, Json.Value.text (isoText day))).toList

section

variable (candidate : ReconciliationCandidate)

def appEntries : List (String × Json.Value) :=
  candidate.bestAppTransaction.elim [] fun app =>
    [("app_txn_id", .text app.appTxnId), ("app_merchant", .text app.merchant), ("app_amount", .text (literalStr app.amount)),
      ("app_currency", .text app.currency), ("app_txn_date", .text (isoText app.transactionDate))]

def reasonTexts : Json.Value :=
  .array (candidate.reasonCodes.map fun reason => .text reason.value)

def payloadConfirmMatch : Json.Value :=
  .object ([("action_type", .text "confirm_match"),
      ("statement_merchant", .text candidate.statement.merchantRaw),
      ("statement_amount", amountText candidate.statement),
      ("statement_currency", textOrNull candidate.statement.currency)] ++
    dateEntry "statement_txn_date" candidate.statement.transactionDate ++ appEntries candidate ++
    [("confidence_score", .text (decimalStr candidate.confidenceScore)), ("reason_codes", reasonTexts candidate)])

def payloadMarkDuplicate : Json.Value :=
  .object
    [("action_type", .text "mark_duplicate"),
      ("duplicate_app_txn_ids", .array (candidate.allAppTransactions.map fun app => .text app.appTxnId)),
      ("kept_app_txn_id", textOrNull (candidate.bestAppTransaction.map AppTransaction.appTxnId)),
      ("statement_merchant", .text candidate.statement.merchantRaw),
      ("statement_amount", amountText candidate.statement),
      ("confidence_score", .text (decimalStr candidate.confidenceScore)),
      ("audit_only", .boolean true),
      ("note", .text "Duplicate classification recorded. No transactions deleted or merged.")]

def payloadMarkStatementOnly : Json.Value :=
  .object
    [("action_type", .text "mark_statement_only"),
      ("statement_merchant", .text candidate.statement.merchantRaw),
      ("statement_amount", amountText candidate.statement),
      ("statement_currency", textOrNull candidate.statement.currency),
      ("statement_row_reference", textOrNull candidate.statement.statementRowReference),
      ("intent", .text "Statement row intentionally not linked to an app transaction.")]

def payloadCreateMissingApp : Json.Value :=
  .object
    [("action_type", .text "proposal"),
      ("proposal_type", .text "create_missing_app_transaction"),
      ("statement_merchant", .text candidate.statement.merchantRaw),
      ("suggested_amount", amountText candidate.statement),
      ("suggested_currency", textOrNull candidate.statement.currency),
      ("suggested_date", textOrNull (candidate.statement.transactionDate.map isoText)),
      ("statement_row_reference", textOrNull candidate.statement.statementRowReference),
      ("source_evidence", .object
        [("statement_merchant", .text candidate.statement.merchantRaw),
          ("statement_amount", amountText candidate.statement),
          ("statement_currency", textOrNull candidate.statement.currency),
          ("statement_txn_date", textOrNull (candidate.statement.transactionDate.map isoText))]),
      ("note", .text ("Proposal only. Actual transaction creation requires a guarded " ++
        "conversion step in a future version."))]

/-- The field that an adjustment corrects, by issue. -/
def fieldAdjustments : List (String × Json.Value) :=
  match candidate.issueType with
  | .amountMismatch => (candidate.statement.amount.map fun number => ("amount", .text (decimalStr number))).toList
  | .currencyMismatch => (candidate.statement.currency.map fun currency => ("currency", .text currency)).toList
  | .dateMismatch => dateEntry "transaction_date" candidate.statement.transactionDate
  | .merchantMismatch => [("merchant", .text candidate.statement.merchantRaw)]
  | _ => []

def payloadAdjustApp : Json.Value :=
  .object
    [("action_type", .text "proposal"),
      ("proposal_type", .text "adjust_app_transaction"),
      ("app_txn_id", textOrNull (candidate.bestAppTransaction.map AppTransaction.appTxnId)),
      ("field_adjustments", .object (fieldAdjustments candidate)),
      ("statement_evidence", .object
        [("merchant", .text candidate.statement.merchantRaw),
          ("amount", amountText candidate.statement),
          ("currency", textOrNull candidate.statement.currency),
          ("txn_date", textOrNull (candidate.statement.transactionDate.map isoText))]),
      ("note", .text ("Proposal only. Actual transaction adjustment requires a guarded " ++
        "mutation step in a future version."))]

end

def noteOrDefault (note : String) : String := if note = "" then "(no note provided)" else note

def buildPayloadInstruction (instruction : InstructionFields)
    (item : ReviewQueueItem) : Json.Value :=
  match instruction.action with
  | .confirmMatch => payloadConfirmMatch item.candidate
  | .markDuplicate => payloadMarkDuplicate item.candidate
  | .markStatementOnly => payloadMarkStatementOnly item.candidate
  | .createMissingAppTransaction => payloadCreateMissingApp item.candidate
  | .adjustAppTransaction => payloadAdjustApp item.candidate
  | .ignore => .object
      [("action_type", .text "ignore"), ("skipped", .boolean true), ("reason", .text (noteOrDefault instruction.note))]
  | .needsMoreInfo => .object
      [("action_type", .text "needs_more_info"), ("reason", .text (noteOrDefault instruction.note)),
        ("status", .text "pending_investigation")]

def buildAuditEvidenceInstruction (instruction : InstructionFields) (item : ReviewQueueItem)
    (now : String) :
    Json.Value :=
  .object ([("apply_runtime_version", .text "v1"),
      ("instruction_id", .text instruction.instructionId),
      ("resolution_action", .text instruction.action.value),
      ("issue_type", .text item.issueType.value),
      ("reviewer", .text instruction.reviewer),
      ("note", .text instruction.note),
      ("applied_timestamp", .text (match instruction.resolvedAt with
        | some time => if time = "" then now else time
        | none => now)),
      ("queue_item_id", .text item.queueItemId),
      ("decision_id", .text instruction.decisionId),
      ("candidate_id", .text item.candidate.candidateId),
      ("confidence_score", .text (decimalStr item.candidate.confidenceScore)),
      ("reason_codes", reasonTexts item.candidate),
      ("evidence_summary", .text item.evidenceSummary),
      ("evidence_refs", .array (instruction.evidenceRefs.map .text)),
      ("statement_merchant", .text item.candidate.statement.merchantRaw),
      ("statement_amount", textOrNull (item.candidate.statement.amount.map decimalStr)),
      ("statement_currency", textOrNull item.candidate.statement.currency)] ++
    dateEntry "statement_txn_date" item.candidate.statement.transactionDate ++
    dateEntry "statement_posted_date" item.candidate.statement.postedDate ++ appEntries item.candidate)

/-- The digest by which a repeated application is recognized. -/
def buildFingerprintInstruction (platform : ApplyPlatform) (instruction : InstructionFields)
    (payload : Json.Value) :
    String :=
  platform.sha256Hex (String.ofList (Json.dumps true (.object
    [("decision_id", .text instruction.decisionId),
      ("queue_item_id", .text instruction.queueItemId),
      ("action", .text instruction.action.value),
      ("note", .text instruction.note),
      ("reviewer", .text instruction.reviewer),
      ("candidate_id", .text instruction.candidateId),
      ("payload", payload)]))).toUTF8

/-- What the registry keeps of an applied decision. -/
structure AppliedDecision where
  queueItemId : String
  action : ResolutionAction
  (fingerprint appliedAt : String)
  auditEvidence : Json.Value

/-- The two registries of a runtime. -/
structure Registries where
  applied : Dict String AppliedDecision := .empty
  itemToDecision : Dict String String := .empty

section Runtime

variable (platform : ApplyPlatform)

/-- The result of an application, new or repeated. -/
def successResult (instruction : InstructionFields) (payload evidence : Json.Value)
    (appliedAt : String) (idempotent : Bool) : ResolutionApplyResult where
  applyId := "apply-" ++ instruction.decisionId
  decisionId := instruction.decisionId
  queueItemId := instruction.queueItemId
  candidateId := instruction.candidateId
  action := instruction.action
  success := true
  payload := payload
  auditEvidence := evidence
  appliedAt := appliedAt
  reviewer := instruction.reviewer
  note := instruction.note
  statementReference := instruction.statementRef
  appTransactionReference := instruction.appTransactionRef
  idempotent := idempotent

section

variable (registries : Registries)

/-- A repeated decision is answered from the registry. -/
def checkIdempotencyInstruction (instruction : InstructionFields) (item : ReviewQueueItem) :
    Except ApplyError (Option ResolutionApplyResult) :=
  match registries.applied.get? instruction.decisionId with
  | none => .ok none
  | some previous => do
    require (previous.queueItemId = instruction.queueItemId) (.conflict ("Decision " ++
      quoted instruction.decisionId ++ " was already applied to queue item " ++ quoted previous.queueItemId ++
      ", cannot apply to " ++ quoted instruction.queueItemId))
    require (previous.action = instruction.action) (.conflict ("Decision " ++ quoted instruction.decisionId ++
      " was applied with action " ++ quoted previous.action.value ++ ", cannot re-apply with " ++
      quoted instruction.action.value))
    require (previous.fingerprint =
        buildFingerprintInstruction platform instruction (buildPayloadInstruction instruction item))
      (.conflict ("Decision " ++ quoted instruction.decisionId ++
        " payload/evidence changed since first application"))
    return some (successResult instruction (buildPayloadInstruction instruction item) previous.auditEvidence
      previous.appliedAt true)

/-- A queue item is resolved by one decision only. -/
def checkConflictInstruction (instruction : InstructionFields) : Except ApplyError Unit :=
  match registries.itemToDecision.get? instruction.queueItemId with
  | none => .ok ()
  | some existing =>
    if existing = instruction.decisionId then .ok ()
    else do
      let previous ← expect (registries.applied.get? existing) .missingEntry
      throw (.conflict ("Queue item " ++ quoted instruction.queueItemId ++ " was already resolved by decision " ++
        quoted existing ++ " (action=" ++ quoted previous.action.value ++ "). Cannot apply decision " ++
        quoted instruction.decisionId ++ " (action=" ++ quoted instruction.action.value ++ ")"))

/-- A check raises its error and changes nothing. -/
def raising {α : Type} (check : Except ApplyError α) : EStateM ApplyError Registries α :=
  match check with
  | .ok value => pure value
  | .error failure => throw failure

/-- The two registries are written one after the other, after every check. -/
def applyInstruction (instruction : ApplyInstruction) (now : String) :
    EStateM ApplyError Registries ResolutionApplyResult := do
  let item ← raising ((validateInstruction platform instruction).mapError .instruction)
  match ← raising (checkIdempotencyInstruction platform (← get) instruction.toInstructionFields item) with
  | some replay => return replay
  | none =>
    raising (checkConflictInstruction (← get) instruction.toInstructionFields)
    let payload := buildPayloadInstruction instruction.toInstructionFields item
    let evidence := buildAuditEvidenceInstruction instruction.toInstructionFields item now
    let fingerprint := buildFingerprintInstruction platform instruction.toInstructionFields payload
    modify fun registries => { registries with
      applied := registries.applied.set instruction.decisionId
        ⟨instruction.queueItemId, instruction.action, fingerprint, now, evidence⟩ }
    modify fun registries => { registries with
      itemToDecision := registries.itemToDecision.set instruction.queueItemId instruction.decisionId }
    return successResult instruction.toInstructionFields payload evidence now false

/-- The controlled result of a decision that fails the boundary. -/
def refusedResult (item : ReviewQueueItem) (decision : ResolutionDecision)
    (evidenceRefs : List String)
    (requireEvidenceRef : Bool) (message now : String) : ResolutionApplyResult where
  applyId := "apply-" ++ decision.decisionId
  decisionId := decision.decisionId
  queueItemId := decision.queueItemId
  candidateId := item.candidate.candidateId
  action := decision.action
  success := false
  errorMessage := some message
  auditEvidence := .object
    [("validation_error", .text message),
      ("action", .text decision.action.value),
      ("issue_type", .text item.issueType.value),
      ("queue_item_id", .text item.queueItemId),
      ("decision_id", .text decision.decisionId),
      ("candidate_id", .text item.candidate.candidateId),
      ("evidence_refs", .array (evidenceRefs.map .text)),
      ("require_evidence_ref", .boolean requireEvidenceRef)]
  appliedAt := now
  reviewer := decision.reviewer
  note := decision.note

/-- Builds the instruction of a decision and applies it. -/
def apply (item : ReviewQueueItem) (decision : ResolutionDecision) (evidenceRefs : List String)
    (requireEvidenceRef : Bool) (now : String) : EStateM ApplyError Registries ResolutionApplyResult :=
  match buildApplyInstruction platform item decision evidenceRefs requireEvidenceRef with
  | .ok instruction => applyInstruction platform instruction now
  | .error message => return refusedResult item decision evidenceRefs requireEvidenceRef message now

/-- A call of the runtime, with the time at which it is made. -/
inductive ApplyCall where
  | apply (item : ReviewQueueItem) (decision : ResolutionDecision) (evidenceRefs : List String)
      (requireEvidenceRef : Bool) (now : String)
  | applyInstruction (instruction : ApplyInstruction) (now : String)

def perform : ApplyCall → EStateM ApplyError Registries ResolutionApplyResult
  | .apply item decision evidenceRefs requireEvidenceRef now =>
    apply platform item decision evidenceRefs requireEvidenceRef now
  | .applyInstruction instruction now => applyInstruction platform instruction now

/-- The registries after a call, whether it returns or raises. -/
def afterCall (call : ApplyCall) : Registries :=
  match perform platform call registries with
  | .ok _ next => next
  | .error _ next => next

/-- The registries after a sequence of calls. -/
def afterCalls (calls : List ApplyCall) : Registries :=
  calls.foldl (afterCall platform) registries

end

end Runtime

end FinanceCore.Reconciliation

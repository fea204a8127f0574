import FinanceCore.Foundation.Json
import FinanceCore.Money.CanonicalText

namespace FinanceCore.LifecycleV2

open Exceptions Money

/-- Where a monetary value of a proposal is checked. -/
inductive MoneyField where
  | amountString
  | amount
deriving DecidableEq

/-- How an operation of the ledger fails. -/
inductive Failure where
  | lifecycle (message : String)
  | identityCollision
  | predecessorMismatch
  | notStorable
  | evidenceUnavailable
  | dateOutOfRange
  | importedSource
  | money (error : MoneyError MoneyField)
deriving DecidableEq

/-- A binding has four nonempty names of bounded length; its environment is the offline one. -/
structure RuntimeBinding where
  (instanceId generation principalId clientId : String)
  admitted : ∀ name ∈ [instanceId, generation, principalId, clientId], name ≠ "" ∧ name.length ≤ 256
deriving DecidableEq

structure VerifiedSource where
  (evidenceId principalId clientId sourceKey rawInput originalSha256 : String)
  sourceTimestamp : ℤ
  timezone : String
deriving DecidableEq

/-- The fields of an expense proposal; its intent and transaction type are fixed. -/
structure ExpenseValues where
  (amount currency transactionDate merchant description category : Option String)
deriving DecidableEq

/-- The values before a proposal; there are none before the first one. -/
abbrev CurrentValues := Option ExpenseValues

inductive InteractionKind where
  | initial
  | edit

structure InterpretationContext where
  anchorTimestamp : ℤ
  (localDate timezone defaultCurrency : String)

structure Projection where
  interactionKind : InteractionKind
  (sourceText replyText : String)
  currentValues : CurrentValues
  interpretationContext : InterpretationContext

structure ExpectedInvocation where
  binding : RuntimeBinding
  (sourceId sourceSha256 : String)
  expectedVersion : ℤ
  projection : Projection
  (recordId replyEvidenceId currentProposalId currentReviewId correctionReason currentFactSha256 : Option String)
  currentEconomicEventId : Option String

structure VerifiedObservation where
  (evidenceId sourceId principalId rawResponse requestSha256 replyText : String)
deriving DecidableEq

structure ExpectedDisplay where
  binding : RuntimeBinding
  (reviewId reviewSha256 : String)

structure VerifiedDelivery where
  (evidenceId reviewId displaySha256 principalId clientId : String)
deriving DecidableEq

structure ExpectedAction where
  binding : RuntimeBinding
  (reviewId reviewSha256 deliveryEvidenceId : String)

structure VerifiedAction where
  (evidenceId reviewId reviewSha256 deliveryEvidenceId principalId clientId action : String)
deriving DecidableEq

/-- The authenticated evidence behind a ledger; a query without an answer raises. -/
structure EvidencePort where
  source : String → Option VerifiedSource
  provider : String → ExpectedInvocation → Option VerifiedObservation
  delivery : String → ExpectedDisplay → Option VerifiedDelivery
  action : String → ExpectedAction → Option VerifiedAction

/-- A port may answer the same query differently each time, so every query of a call has its own place. -/
abbrev EvidenceAnswers := List ℕ → EvidencePort

/-- The answers to the queries of one part of a call. -/
def EvidenceAnswers.part (answers : EvidenceAnswers) (index : ℕ) : EvidenceAnswers := fun place => answers (index :: place)

/-- A port whose answers never change. -/
def EvidencePort.steady (port : EvidencePort) : EvidenceAnswers := fun _ => port

@[simp] theorem EvidencePort.steady_part (port : EvidencePort)
    (index : ℕ) : port.steady.part index = port.steady := rfl

@[simp] theorem EvidencePort.steady_apply (port : EvidencePort)
    (place : List ℕ) : port.steady place = port := rfl

structure SourceRef where
  (sourceId sourceSha256 : String)

structure ProposalRef where
  (proposalId sourceId : String)
  version : ℕ
  proposalSha256 : String

structure Review where
  (reviewId proposalId : String)
  expectedVersion : ℤ
  recordId : Option String
  values : ExpenseValues
  reviewSha256 : String
  deliveryEvidenceId : Option String
  beforeValues : Option CurrentValues
  correctionReason : Option String

structure CommitReceipt where
  recordId : String
  version : ℕ
  factSha256 : String
  commitSeq : ℕ

/-- What the ledger takes from its surroundings: the digest of a text, the calendar of Singapore and the reading
of a provider's response. -/
structure Platform where
  sha256Hex : String → String
  localDate : ℤ → Option String
  validateResponse : String → Projection → Option ExpenseValues

def singapore : String := "Asia/Singapore"

def RuntimeBinding.toJson (binding : RuntimeBinding) : Json.Value :=
  .object [("instance_id", .text binding.instanceId), ("generation", .text binding.generation),
    ("principal_id", .text binding.principalId), ("client_id", .text binding.clientId),
    ("environment", .text "offline-synthetic")]

def VerifiedSource.toJson (source : VerifiedSource) : Json.Value :=
  .object [("evidence_id", .text source.evidenceId), ("principal_id", .text source.principalId),
    ("client_id", .text source.clientId), ("source_key", .text source.sourceKey),
    ("raw_input", .text source.rawInput), ("original_sha256", .text source.originalSha256),
    ("source_timestamp", .integer source.sourceTimestamp), ("timezone", .text source.timezone)]

def ExpenseValues.toJson (values : ExpenseValues) : Json.Value :=
  .object [("amount", Json.textOrNull values.amount), ("currency", Json.textOrNull values.currency),
    ("transaction_date", Json.textOrNull values.transactionDate), ("merchant", Json.textOrNull values.merchant),
    ("description", Json.textOrNull values.description), ("category", Json.textOrNull values.category),
    ("intent", .text "personal_expense_log"), ("transaction_type", .text "personal_expense")]

def CurrentValues.toJson : CurrentValues → Json.Value
  | some values => values.toJson
  | none => .object []

def InteractionKind.value : InteractionKind → String
  | .initial => "initial"
  | .edit => "edit"

def InterpretationContext.toJson (context : InterpretationContext) : Json.Value :=
  .object [("anchor_timestamp", .integer context.anchorTimestamp), ("local_date", .text context.localDate),
    ("timezone", .text context.timezone), ("default_currency", .text context.defaultCurrency)]

def Projection.toJson (projection : Projection) : Json.Value :=
  .object [("interaction_kind", .text projection.interactionKind.value),
    ("source_text", .text projection.sourceText), ("reply_text", .text projection.replyText),
    ("current_values", CurrentValues.toJson projection.currentValues),
    ("interpretation_context", projection.interpretationContext.toJson),
    ("selection", .object [("kind", .text "text")]), ("unresolved", .array [])]

def ExpectedInvocation.toJson (expected : ExpectedInvocation) : Json.Value :=
  .object [("binding", expected.binding.toJson), ("source_id", .text expected.sourceId),
    ("source_sha256", .text expected.sourceSha256), ("expected_version", .integer expected.expectedVersion),
    ("projection", expected.projection.toJson), ("record_id", Json.textOrNull expected.recordId),
    ("reply_evidence_id", Json.textOrNull expected.replyEvidenceId),
    ("current_proposal_id", Json.textOrNull expected.currentProposalId),
    ("current_review_id", Json.textOrNull expected.currentReviewId),
    ("correction_reason", Json.textOrNull expected.correctionReason),
    ("current_fact_sha256", Json.textOrNull expected.currentFactSha256),
    ("current_economic_event_id", Json.textOrNull expected.currentEconomicEventId)]

def VerifiedObservation.toJson (observation : VerifiedObservation) : Json.Value :=
  .object [("evidence_id", .text observation.evidenceId), ("source_id", .text observation.sourceId),
    ("principal_id", .text observation.principalId), ("raw_response", .text observation.rawResponse),
    ("request_sha256", .text observation.requestSha256), ("reply_text", .text observation.replyText)]

def VerifiedDelivery.toJson (delivery : VerifiedDelivery) : Json.Value :=
  .object [("evidence_id", .text delivery.evidenceId), ("review_id", .text delivery.reviewId),
    ("display_sha256", .text delivery.displaySha256), ("principal_id", .text delivery.principalId),
    ("client_id", .text delivery.clientId)]

def VerifiedAction.toJson (action : VerifiedAction) : Json.Value :=
  .object [("evidence_id", .text action.evidenceId), ("review_id", .text action.reviewId),
    ("review_sha256", .text action.reviewSha256), ("delivery_evidence_id", .text action.deliveryEvidenceId),
    ("principal_id", .text action.principalId), ("client_id", .text action.clientId),
    ("action", .text action.action)]

/-- The compact text with sorted keys. -/
def canonical (value : Json.Value) : String := String.ofList (Json.dumps false value)

def digest (platform : Platform) (value : Json.Value) : String := platform.sha256Hex (canonical value)

/-- A fact needs a canonical positive amount in a supported currency. -/
def money (values : ExpenseValues) : Except Failure ExpenseValues :=
  match values.amount, values.currency with
  | some amount, some currency => do
    let number ← (moneyDecimal (.text amount) MoneyField.amountString).mapError .money
    let code ← (normalizeCurrency currency).mapError .money
    (validateAmountForCurrency .standard number.value code MoneyField.amount).mapError .money
    require (0 < number.value) (.lifecycle "Canonical positive expense required")
    let text ← (canonicalMoneyStr .standard number code).mapError .money
    require (text = amount) (.lifecycle "Canonical positive expense required")
    return values
  | _, _ => throw (.lifecycle "Canonical monetary strings required")

/-- The check returns the values that it was given. -/
theorem money_eq_ok {values result : ExpenseValues} (checked : money values = .ok result) : result = values := by
  unfold money at checked
  split at checked
  · simp only [bind_ok, pure_ok] at checked
    obtain ⟨number, -, code, -, -, -, -, -, text, -, -, -, same⟩ := checked
    exact same.symm
  · rw [throw_ok] at checked
    exact checked.elim

end FinanceCore.LifecycleV2

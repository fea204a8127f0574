import FinanceCore.LifecycleV2.Contracts

namespace FinanceCore.LifecycleV2

open Exceptions

/-- A captured source, as its row keeps it. -/
structure SourceRow where
  (sourceId sourceKey evidenceId principalId clientId rawInput originalSha256 sourceSha256 generation : String)
  createdAt : ℤ
deriving DecidableEq

/-- The evidence that a source row retains. -/
def SourceRow.evidence (row : SourceRow) : VerifiedSource where
  evidenceId := row.evidenceId
  principalId := row.principalId
  clientId := row.clientId
  sourceKey := row.sourceKey
  rawInput := row.rawInput
  originalSha256 := row.originalSha256
  sourceTimestamp := row.createdAt
  timezone := singapore

/-- What the hash of a proposal covers. -/
structure ProposalMaterial where
  sourceId : String
  version : ℕ
  observation : VerifiedObservation
  values : ExpenseValues
  expectedVersion : ℤ
  recordId : Option String
deriving DecidableEq

/-- A proposal, with the request and the observation that it is sealed with. -/
structure ProposalRow where
  (proposalId sourceId : String)
  version : ℕ
  observationId : String
  expectedVersion : ℤ
  recordId : Option String
  values : ExpenseValues
  observation : VerifiedObservation
  expected : ExpectedInvocation
  proposalSha256 : String
  createdAt : ℤ

/-- The material that a row retains. -/
def ProposalRow.material (row : ProposalRow) : ProposalMaterial where
  sourceId := row.sourceId
  version := row.version
  observation := row.observation
  values := row.values
  expectedVersion := row.expectedVersion
  recordId := row.recordId

/-- What a review shows and its hash covers. -/
structure ReviewMaterial where
  binding : RuntimeBinding
  (reviewId proposalId proposalSha256 : String)
  expectedVersion : ℤ
  recordId : Option String
  values : ExpenseValues
  (createdAt expiresAt : ℤ)
  beforeValues : Option CurrentValues
  correctionReason : Option String
deriving DecidableEq

/-- A review of one proposal. -/
structure ReviewRow where
  (reviewId proposalId : String)
  expectedVersion : ℤ
  recordId : Option String
  values : ExpenseValues
  material : ReviewMaterial
  reviewSha256 : String
  createdAt : ℤ

/-- The proof that a review was shown. -/
structure DeliveryRow where
  (reviewId evidenceId : String)
  material : VerifiedDelivery

/-- One version of a record. -/
structure FactRow where
  recordId : String
  version : ℕ
  (economicEventId sourceId reviewId : String)
  values : ExpenseValues
  predecessorSha256 : Option String
  factSha256 : String
  commitSeq : ℕ

/-- The confirmation of a review, with the version that it wrote. -/
structure DecisionRow where
  (actionEvidenceId reviewId operationId recordId : String)
  version : ℕ
  material : VerifiedAction
deriving DecidableEq

/-- What a confirm event retains. -/
structure ConfirmPayload where
  reviewId : String
  action : VerifiedAction
  factSha256 : String
  version : ℕ
  acceptedAt : ℤ
deriving DecidableEq

/-- The kinds of audited changes. -/
inductive EventKind where
  | capture
  | propose
  | review
  | delivery
  | confirm
deriving DecidableEq

/-- What an audit event seals; a historical capture names no generation. -/
inductive EventPayload where
  | historicalCapture (source : VerifiedSource)
  | capture (generation : String) (source : VerifiedSource)
  | propose (material : ProposalMaterial)
  | review (material : ReviewMaterial)
  | delivery (material : VerifiedDelivery)
  | confirm (payload : ConfirmPayload)
deriving DecidableEq

/-- A capture has one kind in both of its formats. -/
def EventPayload.kind : EventPayload → EventKind
  | .historicalCapture _ => .capture
  | .capture _ _ => .capture
  | .propose _ => .propose
  | .review _ => .review
  | .delivery _ => .delivery
  | .confirm _ => .confirm

/-- One link of the audit chain. -/
structure EventRow where
  seq : ℕ
  (operationId entityId : String)
  payload : EventPayload
  previousSha256 : Option String
  eventSha256 : String

def EventRow.kind (event : EventRow) : EventKind := event.payload.kind

/-- The append-only tables, each in the order of its insertions. -/
structure Ledger where
  sources : List SourceRow
  proposals : List ProposalRow
  reviews : List ReviewRow
  deliveries : List DeliveryRow
  facts : List FactRow
  decisions : List DecisionRow
  events : List EventRow

/-- A ledger without rows. -/
def Ledger.empty : Ledger := ⟨[], [], [], [], [], [], []⟩

def ProposalMaterial.toJson (material : ProposalMaterial) : Json.Value :=
  .array [.text material.sourceId, .integer material.version, material.observation.toJson, material.values.toJson,
    .integer material.expectedVersion, Json.textOrNull material.recordId]

def ReviewMaterial.toJson (material : ReviewMaterial) : Json.Value :=
  .object [("binding", material.binding.toJson), ("review_id", .text material.reviewId),
    ("proposal_id", .text material.proposalId), ("proposal_sha256", .text material.proposalSha256),
    ("expected_version", .integer material.expectedVersion), ("record_id", Json.textOrNull material.recordId),
    ("values", material.values.toJson), ("created_at", .integer material.createdAt),
    ("expires_at", .integer material.expiresAt),
    ("before_values", (material.beforeValues.map CurrentValues.toJson).getD .null),
    ("correction_reason", Json.textOrNull material.correctionReason)]

def ConfirmPayload.toJson (payload : ConfirmPayload) : Json.Value :=
  .object [("review_id", .text payload.reviewId), ("action", payload.action.toJson),
    ("fact_sha256", .text payload.factSha256), ("version", .integer payload.version),
    ("accepted_at", .integer payload.acceptedAt)]

def EventKind.value : EventKind → String
  | .capture => "capture"
  | .propose => "propose"
  | .review => "review"
  | .delivery => "delivery"
  | .confirm => "confirm"

def EventPayload.toJson : EventPayload → Json.Value
  | .historicalCapture source => source.toJson
  | .capture generation source =>
    .object [("format", .text "lifecycle-capture-v2"), ("generation", .text generation), ("source", source.toJson)]
  | .propose material => material.toJson
  | .review material => material.toJson
  | .delivery material => material.toJson
  | .confirm payload => payload.toJson

/-- What the hash of a fact covers. -/
def factMaterial (recordId : String) (version : ℕ) (economicEventId sourceId : String)
    (values : ExpenseValues) (predecessor : Option String) : Json.Value :=
  .array [.text recordId, .integer version, .text economicEventId, .text sourceId, values.toJson,
    Json.textOrNull predecessor]

/-- What the hash of an event covers, with the hash before it. -/
def eventBody (seq : ℕ) (operationId entityId : String) (payload : EventPayload)
    (previous : Option String) : Json.Value :=
  .array [.integer seq, .text operationId, .text payload.kind.value, .text entityId, payload.toJson,
    Json.textOrNull previous]

section Queries

variable (ledger : Ledger)

namespace Ledger

/-- The source with an identity. -/
def source? (sourceId : String) : Option SourceRow := ledger.sources.find? fun row => row.sourceId = sourceId

/-- The proposal with an identity. -/
def proposal? (proposalId : String) : Option ProposalRow :=
  ledger.proposals.find? fun row => row.proposalId = proposalId

/-- The proposal of a source at a version. -/
def proposalAt? (sourceId : String) (version : ℤ) : Option ProposalRow :=
  ledger.proposals.find? fun row => row.sourceId = sourceId ∧ (row.version : ℤ) = version

/-- The proposal of a source with the greatest version. -/
def latestProposal? (sourceId : String) : Option ProposalRow :=
  (ledger.proposals.filter fun row => row.sourceId = sourceId).argmax ProposalRow.version

/-- The review with an identity. -/
def review? (reviewId : String) : Option ReviewRow := ledger.reviews.find? fun row => row.reviewId = reviewId

/-- The review of a proposal. -/
def reviewOf? (proposalId : String) : Option ReviewRow :=
  ledger.reviews.find? fun row => row.proposalId = proposalId

/-- The delivery of a review. -/
def delivery? (reviewId : String) : Option DeliveryRow :=
  ledger.deliveries.find? fun row => row.reviewId = reviewId

section

variable (recordId : String)

/-- The version of a record with a number. -/
def factAt? (version : ℤ) : Option FactRow :=
  ledger.facts.find? fun row => row.recordId = recordId ∧ (row.version : ℤ) = version

/-- The versions of a record. -/
def recordFacts : List FactRow := ledger.facts.filter fun row => row.recordId = recordId

/-- The newest version of a record. -/
def latestFact? : Option FactRow := (ledger.recordFacts recordId).argmax FactRow.version

/-- The decision that wrote a version. -/
def decisionAt? (version : ℤ) : Option DecisionRow :=
  ledger.decisions.find? fun row => row.recordId = recordId ∧ (row.version : ℤ) = version

end

/-- The event of an operation. -/
def operation? (operationId : String) : Option EventRow :=
  ledger.events.find? fun row => row.operationId = operationId

/-- The events of a kind about an entity. -/
def eventsOf (kind : EventKind) (entityId : String) : List EventRow :=
  ledger.events.filter fun row => row.kind = kind ∧ row.entityId = entityId

end Ledger

end Queries

section Inserts

variable (ledger : Ledger)

/-- An integer column takes a signed 64-bit value. -/
def requireStorable (value : ℤ) : Except Failure Unit := require (-(2 ^ 63) ≤ value ∧ value < 2 ^ 63) .notStorable

/-- A source has its own identity, key and evidence. -/
def Ledger.insertSource (row : SourceRow) : Except Failure Ledger := do
  requireStorable row.createdAt
  require (∀ other ∈ ledger.sources,
    other.sourceId ≠ row.sourceId ∧ other.sourceKey ≠ row.sourceKey ∧ other.evidenceId ≠ row.evidenceId)
    .identityCollision
  return { ledger with sources := ledger.sources ++ [row] }

/-- A source has one proposal for each version, and an observation one proposal. -/
def Ledger.insertProposal (row : ProposalRow) : Except Failure Ledger := do
  requireStorable row.createdAt
  require (∀ other ∈ ledger.proposals, other.proposalId ≠ row.proposalId ∧ other.observationId ≠ row.observationId ∧
    ¬ (other.sourceId = row.sourceId ∧ other.version = row.version)) .identityCollision
  return { ledger with proposals := ledger.proposals ++ [row] }

/-- A proposal has one review. -/
def Ledger.insertReview (row : ReviewRow) : Except Failure Ledger := do
  requireStorable row.createdAt
  require (∀ other ∈ ledger.reviews,
    other.reviewId ≠ row.reviewId ∧ other.proposalId ≠ row.proposalId ∧ other.reviewSha256 ≠ row.reviewSha256)
    .identityCollision
  return { ledger with reviews := ledger.reviews ++ [row] }

/-- A review is delivered once, by its own evidence. -/
def Ledger.insertDelivery (row : DeliveryRow) : Except Failure Ledger := do
  require (∀ other ∈ ledger.deliveries, other.reviewId ≠ row.reviewId ∧ other.evidenceId ≠ row.evidenceId)
    .identityCollision
  return { ledger with deliveries := ledger.deliveries ++ [row] }

/-- The newest version number of a record, or zero. -/
def Ledger.factVersion (recordId : String) : ℕ := ((ledger.latestFact? recordId).map FactRow.version).getD 0

/-- A fact continues its record: the next version, with the hash, the event and the source of the version before. -/
def Ledger.insertFact (row : FactRow) : Except Failure Ledger := do
  require (row.version = ledger.factVersion row.recordId + 1 ∧
    (1 < row.version → ∃ prior ∈ ledger.facts, prior.recordId = row.recordId ∧ prior.version + 1 = row.version ∧
      some prior.factSha256 = row.predecessorSha256 ∧ prior.economicEventId = row.economicEventId ∧
      prior.sourceId = row.sourceId)) .predecessorMismatch
  require (∀ other ∈ ledger.facts, ¬ (other.recordId = row.recordId ∧ other.version = row.version) ∧
    ¬ (other.economicEventId = row.economicEventId ∧ other.version = row.version) ∧
    other.factSha256 ≠ row.factSha256 ∧ other.commitSeq ≠ row.commitSeq ∧ other.reviewId ≠ row.reviewId)
    .identityCollision
  require (row.version = 1 ↔ row.predecessorSha256 = none) .predecessorMismatch
  return { ledger with facts := ledger.facts ++ [row] }

/-- An action decides one review, under its own operation. -/
def Ledger.insertDecision (row : DecisionRow) : Except Failure Ledger := do
  require (∀ other ∈ ledger.decisions, other.actionEvidenceId ≠ row.actionEvidenceId ∧
    other.reviewId ≠ row.reviewId ∧ other.operationId ≠ row.operationId ∧
    ¬ (other.recordId = row.recordId ∧ other.version = row.version)) .identityCollision
  return { ledger with decisions := ledger.decisions ++ [row] }

/-- The event that continues a chain of events. -/
def nextEvent (platform : Platform) (events : List EventRow) (operationId entityId : String)
    (payload : EventPayload) :
    EventRow :=
  let last := events.argmax EventRow.seq
  let seq := (last.map EventRow.seq).getD 0 + 1
  let previous := last.map EventRow.eventSha256
  ⟨seq, operationId, entityId, payload, previous,
    digest platform (eventBody seq operationId entityId payload previous)⟩

/-- An operation is audited once. -/
def Ledger.insertEvent (platform : Platform) (operationId entityId : String)
    (payload : EventPayload) :
    Except Failure Ledger := do
  require (operationId ≠ "" ∧ operationId.length ≤ 256) (.lifecycle "Exact operation identity required")
  let row := nextEvent platform ledger.events operationId entityId payload
  require (∀ other ∈ ledger.events,
    other.seq ≠ row.seq ∧ other.operationId ≠ row.operationId ∧ other.eventSha256 ≠ row.eventSha256)
    .identityCollision
  return { ledger with events := ledger.events ++ [row] }

end Inserts

end FinanceCore.LifecycleV2

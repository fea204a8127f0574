import FinanceCore.Foundation.Sorting
import FinanceCore.LifecycleV2.Ledger

namespace FinanceCore.LifecycleV2

open Exceptions Sorting

variable (platform : Platform)

/-- Whose evidence is verified, and how a foreign actor is refused. -/
structure Verifier where
  binding : RuntimeBinding
  actorMessage : String

section

variable (binding : RuntimeBinding)

def Verifier.ledgerService : Verifier := ⟨binding, "Evidence actor/client mismatch"⟩

def Verifier.snapshotEvidence : Verifier :=
  ⟨binding, "Snapshot source actor/client differs from admitted principal"⟩

def Verifier.actor (verifier : Verifier) (principalId clientId : String) : Except Failure Unit :=
  require (principalId = verifier.binding.principalId ∧ clientId = verifier.binding.clientId)
    (.lifecycle verifier.actorMessage)

/-- Sources with such a key come from an import. -/
def isLegacyKey (key : String) : Bool := "legacy:".toList.isPrefixOf key.toList

/-- The one event of a query that must have exactly one. -/
def onlyRow {α : Type} : List α → Option α
  | [row] => some row
  | _ => none

/-- The generation that a capture proves; a historical capture proves none. -/
def captureGeneration (row : SourceRow) (payload : EventPayload) : Except Failure (Option String) := do
  require (row.sourceSha256 = digest platform row.evidence.toJson)
    (.lifecycle "Capture event inventory lacks its exact source")
  match payload with
  | .historicalCapture source => do
    require (source = row.evidence) (.lifecycle "Original capture generation or source binding changed")
    return none
  | .capture generation source => do
    require (1 ≤ generation.length ∧ generation.length ≤ 256 ∧ generation = row.generation ∧ source = row.evidence)
      (.lifecycle "Original capture generation or source binding changed")
    return some generation
  | _ => throw (.lifecycle "Original capture generation or source binding changed")

/-- Fresh work on a source needs the current generation. -/
def requireCurrentGeneration : Option String → Except Failure Unit
  | none => throw (.lifecycle "Historical capture lacks original generation authority")
  | some generation =>
    require (generation = binding.generation) (.lifecycle "Source belongs to archived generation")

end

/-- A source row is checked against the evidence that the port gives for it now. -/
def Verifier.source (verifier : Verifier) (answers : EvidenceAnswers) (ledger : Ledger)
    (sourceId : String) (allowArchived : Bool) : Except Failure SourceRow := do
  let row ← expect (ledger.source? sourceId) (.lifecycle "Missing l2_sources identity")
  require (¬ isLegacyKey row.sourceKey) .importedSource
  let evidence ← expect ((answers [0]).source row.evidenceId) .evidenceUnavailable
  verifier.actor evidence.principalId evidence.clientId
  require (row.sourceSha256 = digest platform evidence.toJson ∧ row.rawInput = evidence.rawInput ∧
      row.sourceKey = evidence.sourceKey ∧ row.principalId = evidence.principalId ∧
      row.clientId = evidence.clientId ∧ row.originalSha256 = evidence.originalSha256 ∧
      row.createdAt = evidence.sourceTimestamp ∧ evidence.timezone = singapore ∧
      evidence.evidenceId = row.evidenceId ∧ platform.sha256Hex evidence.rawInput = evidence.originalSha256)
    (.lifecycle "Source/original evidence changed")
  let capture ← expect (onlyRow (ledger.eventsOf .capture sourceId))
    (.lifecycle "Source lacks its exact original capture event")
  let generation ← captureGeneration platform row capture.payload
  if allowArchived then return row
  requireCurrentGeneration verifier.binding generation
  return row

/-- The time that a request is read at: that of its reply, or of its source. -/
def anchorTimestamp (answers : EvidenceAnswers) (expected : ExpectedInvocation)
    (source : SourceRow) : Except Failure ℤ :=
  match expected.replyEvidenceId with
  | none => return source.createdAt
  | some replyEvidenceId => do
    let reply ← expect ((answers []).source replyEvidenceId) .evidenceUnavailable
    require (reply.evidenceId = replyEvidenceId ∧ reply.rawInput = expected.projection.replyText ∧
        reply.principalId = expected.binding.principalId ∧ reply.clientId = expected.binding.clientId ∧
        0 < reply.sourceTimestamp ∧ reply.timezone = singapore ∧
        platform.sha256Hex reply.rawInput = reply.originalSha256)
      (.lifecycle "Retained reply source differs from actual authenticated input")
    return reply.sourceTimestamp

section

variable (ledger : Ledger)

/-- The values that a proposal starts from, read from its predecessor. -/
def Ledger.priorValues (proposal : ProposalRow) : CurrentValues :=
  match proposal.recordId with
  | some recordId => (ledger.factAt? recordId proposal.expectedVersion).map FactRow.values
  | none =>
    if proposal.expectedVersion = 0 then none
    else (ledger.proposalAt? proposal.sourceId proposal.expectedVersion).map ProposalRow.values

/-- A correction names the committed fact that it corrects, and a reason. -/
def requireCorrectionContext (proposal : ProposalRow) : Except Failure Unit :=
  match proposal.expected.recordId with
  | none => return ()
  | some recordId => do
    let prior ← expect (ledger.factAt? recordId proposal.expectedVersion)
      (.lifecycle "Correction context differs from exact committed fact identity")
    require (proposal.expected.currentFactSha256 = some prior.factSha256 ∧
        proposal.expected.currentEconomicEventId = some prior.economicEventId)
      (.lifecycle "Correction context differs from exact committed fact identity")
    require (proposal.expected.correctionReason ≠ none) (.lifecycle "Correction lacks original explicit reason")

/-- A proposal is checked against the retained request, the provider's output and its audit event. -/
def verifyProposal (verifier : Verifier) (answers : EvidenceAnswers) (ledger : Ledger)
    (proposal : ProposalRow) :
    Except Failure ExpectedInvocation := do
  let source ← verifier.source platform (answers.part 0) ledger proposal.sourceId true
  let expected := proposal.expected
  require (expected.sourceId = source.sourceId ∧ expected.sourceSha256 = source.sourceSha256 ∧
      expected.expectedVersion = proposal.expectedVersion ∧ expected.recordId = proposal.recordId ∧
      expected.projection.sourceText = source.rawInput)
    (.lifecycle "Proposal retained request differs from source/target")
  let anchor ← anchorTimestamp platform (answers.part 1) expected source
  let context := expected.projection.interpretationContext
  require (context.anchorTimestamp = anchor ∧ context.timezone = singapore)
    (.lifecycle "Provider interpretation context differs from actual source time")
  let localDate ← expect (platform.localDate anchor) .dateOutOfRange
  require (context.localDate = localDate)
    (.lifecycle "Provider interpretation context differs from actual source time")
  let observation ← expect ((answers [2]).provider proposal.observationId expected) .evidenceUnavailable
  require (observation = proposal.observation ∧ observation.requestSha256 = digest platform expected.toJson ∧
      observation.sourceId = source.sourceId ∧ observation.evidenceId = proposal.observationId ∧
      observation.principalId = expected.binding.principalId ∧ observation.replyText = expected.projection.replyText)
    (.lifecycle "Proposal differs from authenticated provider observation")
  require (expected.projection.currentValues = ledger.priorValues proposal)
    (.lifecycle "Proposal current values differ from actual predecessor")
  requireCorrectionContext ledger proposal
  require (platform.validateResponse observation.rawResponse expected.projection = some proposal.values)
    (.lifecycle "Persisted values differ from independently validated provider output")
  let event ← expect (onlyRow (ledger.eventsOf .propose proposal.proposalId))
    (.lifecycle "Proposal lacks its exact original audit event")
  require (event.payload = .propose proposal.material) (.lifecycle "Proposal lacks its exact original audit event")
  require (expected.currentProposalId =
      (ledger.proposalAt? proposal.sourceId (proposal.version - 1)).map ProposalRow.proposalId)
    (.lifecycle "Proposal request has a different predecessor identity")
  require (digest platform proposal.material.toJson = proposal.proposalSha256) (.lifecycle "Proposal hash mismatch")
  return expected

/-- A recorded delivery is checked against the publication evidence. -/
def verifyDelivery (answers : EvidenceAnswers) (expected : ExpectedInvocation)
    (review : ReviewRow) :
    Option DeliveryRow → Except Failure Unit
  | none => return ()
  | some delivery => do
    let actual ← expect
      ((answers []).delivery delivery.evidenceId ⟨expected.binding, review.reviewId, review.reviewSha256⟩)
      .evidenceUnavailable
    require (actual = delivery.material ∧ actual.reviewId = review.reviewId ∧
        actual.displaySha256 = review.reviewSha256 ∧ actual.principalId = expected.binding.principalId ∧
        actual.clientId = expected.binding.clientId)
      (.lifecycle "Review delivery differs from actual publication evidence")

/-- A review is open for at most this many seconds. -/
def reviewWindow : ℤ := 600

/-- A review is checked against its proposal, its audit event and its delivery. -/
def verifyReview (verifier : Verifier) (answers : EvidenceAnswers) (ledger : Ledger)
    (review : ReviewRow) :
    Except Failure (ExpectedInvocation × Option DeliveryRow) := do
  let proposal ← expect (ledger.proposal? review.proposalId) (.lifecycle "Review lacks proposal")
  let expected ← verifyProposal platform verifier (answers.part 0) ledger proposal
  let material := review.material
  require (material.binding = expected.binding ∧ material.proposalId = proposal.proposalId ∧
      material.proposalSha256 = proposal.proposalSha256 ∧ material.values = proposal.values ∧
      material.recordId = proposal.recordId ∧ material.recordId = review.recordId ∧
      material.correctionReason = expected.correctionReason ∧
      material.beforeValues = proposal.recordId.map (fun _ => expected.projection.currentValues) ∧
      material.expectedVersion = review.expectedVersion ∧ material.reviewId = review.reviewId ∧
      digest platform material.toJson = review.reviewSha256 ∧
      0 < material.expiresAt - material.createdAt ∧ material.expiresAt - material.createdAt ≤ reviewWindow)
    (.lifecycle "Review material differs from exact provider proposal")
  let event ← expect (onlyRow (ledger.eventsOf .review review.reviewId))
    (.lifecycle "Review lacks its exact original audit event")
  require (event.payload = .review material) (.lifecycle "Review lacks its exact original audit event")
  let delivery := ledger.delivery? review.reviewId
  verifyDelivery (answers.part 1) expected review delivery
  return (expected, delivery)

/-- A confirm event has exactly its fact and its decision. -/
def exactConfirmInventory (event : EventRow) : Except Failure (FactRow × DecisionRow) :=
  match event.payload with
  | .confirm payload => do
    require (1 ≤ payload.version) (.lifecycle "Confirm event inventory payload invalid")
    let fact ← expect (onlyRow (ledger.facts.filter fun row => row.commitSeq = event.seq))
      (.lifecycle "Confirm event inventory lacks its exact fact/decision")
    let decision ← expect (onlyRow (ledger.decisions.filter fun row => row.operationId = event.operationId))
      (.lifecycle "Confirm event inventory lacks its exact fact/decision")
    require (event.entityId = fact.recordId ∧ payload.version = fact.version ∧
        payload.factSha256 = fact.factSha256 ∧ payload.reviewId = fact.reviewId ∧
        decision.recordId = fact.recordId ∧ decision.version = fact.version ∧
        decision.reviewId = fact.reviewId ∧ decision.actionEvidenceId = payload.action.evidenceId ∧
        payload.action.reviewId = fact.reviewId ∧ payload.action = decision.material)
      (.lifecycle "Confirm event/fact/decision inventory differs")
    return (fact, decision)
  | _ => throw (.lifecycle "Confirm event inventory payload invalid")

/-- The version that a confirm event commits must be new among the versions seen so far. -/
def countCommit (seen : List ℕ) (event : EventRow) : Except Failure (List ℕ) := do
  let inventory ← exactConfirmInventory ledger event
  require (inventory.1.version ∉ seen) (.lifecycle "Duplicate record commit event inventory")
  return inventory.1.version :: seen

/-- A decision has exactly its confirm event. -/
def requireDecisionEvent (recordId : String) (decision : DecisionRow) : Except Failure Unit := do
  let event ← expect (onlyRow
      (ledger.events.filter fun row => row.kind = .confirm ∧ row.operationId = decision.operationId))
    (.lifecycle "Decision inventory lacks its exact confirm event")
  let inventory ← exactConfirmInventory ledger event
  require (inventory.2 = decision ∧ inventory.1.recordId = recordId)
    (.lifecycle "Decision reverse inventory differs")

/-- The facts, decisions and confirm events of one record match. -/
def auditRecordInventory (recordId : String) : Except Failure Unit := do
  let seen ← (ledger.eventsOf .confirm recordId).foldlM (countCommit ledger) []
  require (((ledger.recordFacts recordId).map FactRow.version).toFinset = seen.toFinset)
    (.lifecycle "Record fact inventory differs from retained commit events")
  (ledger.decisions.filter fun row => row.recordId = recordId).forM (requireDecisionEvent ledger recordId)

end

/-- What the versions of a record before the next one leave behind. -/
structure RecordTail where
  version : ℕ
  (previous economic : Option String)

/-- One version is checked against the versions before it and against its review, its decision and its event. -/
def verifyVersion (verifier : Verifier) (answers : EvidenceAnswers) (ledger : Ledger)
    (recordId : String) (tail : RecordTail) (fact : FactRow) : Except Failure RecordTail := do
  let version := tail.version + 1
  let values ← money fact.values
  require (fact.version = version ∧ fact.predecessorSha256 = tail.previous ∧
      digest platform (factMaterial recordId version fact.economicEventId fact.sourceId values tail.previous) =
        fact.factSha256 ∧ (tail.economic = none ∨ tail.economic = some fact.economicEventId))
    (.lifecycle "Current record/version predecessor hash mismatch")
  let event ← expect (ledger.events.find? fun row => row.seq = fact.commitSeq) (.lifecycle "Record lacks commit audit")
  let review ← expect (ledger.review? fact.reviewId) (.lifecycle "Record lacks original review")
  let verified ← verifyReview platform verifier (answers.part 0) ledger review
  let expected := verified.1
  let source ← verifier.source platform (answers.part 1) ledger expected.sourceId true
  require (fact.sourceId = expected.sourceId ∧ (version = 1 → fact.economicEventId = source.sourceKey))
    (.lifecycle "Economic event differs from authenticated source identity")
  let delivery ← expect verified.2 (.lifecycle "Current record differs from confirmed review")
  let decision ← expect (ledger.decisionAt? recordId version)
    (.lifecycle "Current record differs from confirmed review")
  require (decision.reviewId = review.reviewId ∧ review.expectedVersion = (version : ℤ) - 1 ∧
      review.values = fact.values ∧ (1 < version → review.recordId = some recordId))
    (.lifecycle "Current record differs from confirmed review")
  let action ← expect ((answers [2]).action decision.actionEvidenceId
    ⟨expected.binding, review.reviewId, review.reviewSha256, delivery.evidenceId⟩) .evidenceUnavailable
  require (action = decision.material ∧ action.action = "confirm" ∧ action.evidenceId = decision.actionEvidenceId ∧
      action.reviewId = review.reviewId ∧ action.reviewSha256 = review.reviewSha256 ∧
      action.deliveryEvidenceId = delivery.evidenceId ∧ action.principalId = expected.binding.principalId ∧
      action.clientId = expected.binding.clientId)
    (.lifecycle "Record differs from authenticated human decision")
  match event.payload with
  | .confirm payload => do
    require (review.material.createdAt ≤ payload.acceptedAt ∧ payload.acceptedAt < review.material.expiresAt)
      (.lifecycle "Recorded human decision was outside exact review expiry")
    require (event.entityId = recordId ∧ event.operationId = decision.operationId ∧
        payload = ⟨review.reviewId, action, fact.factSha256, version, payload.acceptedAt⟩)
      (.lifecycle "Record differs from commit audit payload")
    return ⟨version, some fact.factSha256, some fact.economicEventId⟩
  | _ => throw (.lifecycle "Recorded human decision was outside exact review expiry")

def verifyVersions (verifier : Verifier) (answers : EvidenceAnswers) (ledger : Ledger)
    (recordId : String) :
    RecordTail → List FactRow → Except Failure RecordTail
  | tail, [] => return tail
  | tail, fact :: rest => do
    let next ← verifyVersion platform verifier (answers.part tail.version) ledger recordId tail fact
    verifyVersions verifier answers ledger recordId next rest

/-- All versions of a record are verified in their order. -/
def verifyRecord (verifier : Verifier) (answers : EvidenceAnswers) (ledger : Ledger)
    (recordId : String) :
    Except Failure ℕ := do
  auditRecordInventory ledger recordId
  let tail ← verifyVersions platform verifier answers ledger recordId ⟨0, none, none⟩
    (sortOn FactRow.version (ledger.recordFacts recordId))
  return tail.version

end FinanceCore.LifecycleV2

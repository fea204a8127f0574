import FinanceCore.Foundation.Operations
import FinanceCore.LifecycleV2.Verification

namespace FinanceCore.LifecycleV2

open Exceptions Operations

/-- A service with the answers that its evidence port gives during one call. -/
structure Service where
  binding : RuntimeBinding
  answers : EvidenceAnswers

def Service.verifier (service : Service) : Verifier := .ledgerService service.binding

abbrev LedgerOperation (α : Type) := Operation Ledger Failure α

variable (platform : Platform) (world : World)

/-- A new identity with its kind in front. -/
def freshId (kind : String) : LedgerOperation String := do
  let name ← draw world
  return kind ++ "-" ++ name

/-- An audit event is appended and its number is returned. -/
def event (operationId entityId : String) (payload : EventPayload) : LedgerOperation ℕ := do
  let row ← reading fun ledger => return nextEvent platform ledger.events operationId entityId payload
  writing fun ledger => ledger.insertEvent platform operationId entityId payload
  return row.seq

/-- A captured source may be captured again only by its own operation. -/
def Service.replayCapture (service : Service) (ledger : Ledger) (existing : SourceRow)
    (operationId sha : String) :
    Except Failure SourceRef := do
  let event ← expect (ledger.operation? operationId)
    (.lifecycle "Duplicate source requires exact original operation replay")
  require (event.kind = .capture ∧ event.entityId = existing.sourceId ∧ existing.sourceSha256 = sha)
    (.lifecycle "Duplicate source requires exact original operation replay")
  let _ ← service.verifier.source platform (service.answers.part 1) ledger existing.sourceId true
  return ⟨existing.sourceId, sha⟩

def Service.capture (service : Service) (sourceEvidenceId operationId : String) : LedgerOperation SourceRef := do
  let evidence ← raising (expect ((service.answers [0]).source sourceEvidenceId) .evidenceUnavailable)
  raising (service.verifier.actor evidence.principalId evidence.clientId)
  raising (require (evidence.evidenceId = sourceEvidenceId ∧ evidence.rawInput ≠ "" ∧
      ¬ isLegacyKey evidence.sourceKey ∧ 0 < evidence.sourceTimestamp ∧ evidence.timezone = singapore)
    (.lifecycle "Exact nonempty source evidence required"))
  raising (require (platform.sha256Hex evidence.rawInput = evidence.originalSha256)
    (.lifecycle "Original text hash mismatch"))
  let sha := digest platform evidence.toJson
  match ← reading (fun ledger => return ledger.sources.find? fun row =>
      row.evidenceId = sourceEvidenceId ∨ row.sourceKey = evidence.sourceKey) with
  | some existing => reading fun ledger => service.replayCapture platform ledger existing operationId sha
  | none => do
    let sourceId ← freshId world "source"
    writing fun ledger => ledger.insertSource
      ⟨sourceId, evidence.sourceKey, evidence.evidenceId, evidence.principalId, evidence.clientId,
        evidence.rawInput, evidence.originalSha256, sha, service.binding.generation, evidence.sourceTimestamp⟩
    let _ ← event platform operationId sourceId (.capture service.binding.generation evidence)
    return ⟨sourceId, sha⟩

def Service.verifyPrior (service : Service) (answers : EvidenceAnswers) (ledger : Ledger) :
    Option ProposalRow → Except Failure Unit
  | some proposal => do
    let _ ← verifyProposal platform service.verifier (answers.part 0) ledger proposal
  | none => return ()

/-- What a request starts from: the current values and, for a correction, the fact to correct. -/
def Service.basis (service : Service) (answers : EvidenceAnswers) (ledger : Ledger)
    (sourceId : String)
    (expectedVersion : ℤ) : Option String → Except Failure (CurrentValues × Option FactRow)
  | some recordId => do
    let _ ← verifyRecord platform service.verifier (answers.part 0) ledger recordId
    let fact ← expect (ledger.latestFact? recordId) (.lifecycle "Correction target/version mismatch")
    require ((fact.version : ℤ) = expectedVersion ∧ fact.sourceId = sourceId)
      (.lifecycle "Correction target/version mismatch")
    return (some fact.values, some fact)
  | none => do
    let prior := ledger.latestProposal? sourceId
    require (((prior.map ProposalRow.version).getD 0 : ℤ) = expectedVersion)
      (.lifecycle "Concurrent proposal version changed")
    service.verifyPrior platform answers ledger prior
    require (∀ fact ∈ ledger.facts, fact.sourceId ≠ sourceId) (.lifecycle "Posted source requires correction")
    return (prior.map ProposalRow.values, none)

def interactionKind (expectedVersion : ℤ) (recordId : Option String) : InteractionKind :=
  if expectedVersion = 0 ∧ recordId = none then .initial else .edit

/-- The labels that introduce the reason of a correction in a reply. -/
def reasonLabels : List String := ["原因：", "原因: ", "reason: "]

/-- A correction states its reason in the reply, and an ordinary edit has none. -/
def requireReason (reply : VerifiedSource) (recordId correctionReason : Option String) : Except Failure Unit :=
  match recordId, correctionReason with
  | some _, some reason =>
    require (Text.strip reason ≠ "" ∧ reason = Text.strip reason ∧ reason.length ≤ 500 ∧
        ∃ label ∈ reasonLabels, label.toList ++ reason.toList <:+: reply.rawInput.toList)
      (.lifecycle "Correction requires an explicit authenticated reason")
  | some _, none => throw (.lifecycle "Correction requires an explicit authenticated reason")
  | none, reason => require (reason = none) (.lifecycle "Ordinary edits cannot carry correction authority")

/-- The text that a provider reads, and when it was written. -/
def Service.replied (service : Service) (answers : EvidenceAnswers) (initial : Projection)
    (recordId replyEvidenceId correctionReason : Option String) : Except Failure Projection :=
  match initial.interactionKind, replyEvidenceId with
  | .initial, none => return initial
  | .initial, some _ => throw (.lifecycle "Initial proposal cannot smuggle edit reply")
  | .edit, none => throw (.lifecycle "Edit requires authenticated reply source")
  | .edit, some replyEvidenceId => do
    let reply ← expect ((answers []).source replyEvidenceId) .evidenceUnavailable
    service.verifier.actor reply.principalId reply.clientId
    require (reply.evidenceId = replyEvidenceId ∧ 0 < reply.sourceTimestamp ∧ reply.timezone = singapore ∧
        platform.sha256Hex reply.rawInput = reply.originalSha256)
      (.lifecycle "Reply source mismatch")
    let localDate ← expect (platform.localDate reply.sourceTimestamp) .dateOutOfRange
    requireReason reply recordId correctionReason
    return { initial with
      replyText := reply.rawInput
      interpretationContext := { initial.interpretationContext with
        anchorTimestamp := reply.sourceTimestamp
        localDate := localDate } }

/-- The exact request that a provider must have answered. -/
def Service.expected (service : Service) (answers : EvidenceAnswers) (ledger : Ledger)
    (sourceId : String)
    (expectedVersion : ℤ) (recordId replyEvidenceId correctionReason : Option String) :
    Except Failure ExpectedInvocation := do
  let source ← service.verifier.source platform (answers.part 0) ledger sourceId recordId.isSome
  let basis ← service.basis platform (answers.part 1) ledger sourceId expectedVersion recordId
  let priorProposal := ledger.latestProposal? sourceId
  let priorReview := priorProposal.bind fun proposal => ledger.reviewOf? proposal.proposalId
  let localDate ← expect (platform.localDate source.createdAt) .dateOutOfRange
  let projection ← service.replied platform (answers.part 2)
    ⟨interactionKind expectedVersion recordId, source.rawInput, "", basis.1,
      ⟨source.createdAt, localDate, singapore, "SGD"⟩⟩ recordId replyEvidenceId correctionReason
  return ⟨service.binding, sourceId, source.sourceSha256, expectedVersion, projection, recordId, replyEvidenceId,
    priorProposal.map ProposalRow.proposalId, priorReview.map ReviewRow.reviewId, correctionReason,
    basis.2.map FactRow.factSha256, basis.2.map FactRow.economicEventId⟩

/-- An observation may be proposed again only by its own operation, with the same request. -/
def Service.replayProposal (service : Service) (ledger : Ledger) (existing : ProposalRow)
    (sourceId : String)
    (expectedVersion : ℤ) (operationId : String) (recordId replyEvidenceId correctionReason : Option String) :
    Except Failure ProposalRef := do
  let retained ← verifyProposal platform service.verifier (service.answers.part 0) ledger existing
  let event ← expect (ledger.operation? operationId) (.lifecycle "Observation replay mismatch")
  require (event.kind = .propose ∧ event.entityId = existing.proposalId ∧ existing.sourceId = sourceId ∧
      existing.expectedVersion = expectedVersion ∧ existing.recordId = recordId ∧
      retained.binding = service.binding ∧ retained.sourceId = sourceId ∧
      retained.expectedVersion = expectedVersion ∧ retained.recordId = recordId ∧
      retained.replyEvidenceId = replyEvidenceId ∧ retained.correctionReason = correctionReason)
    (.lifecycle "Observation replay mismatch")
  return ⟨existing.proposalId, sourceId, existing.version, existing.proposalSha256⟩

/-- An observation that answers its request, with the values read from it. -/
structure Observed where
  expected : ExpectedInvocation
  observation : VerifiedObservation
  values : ExpenseValues

def Service.observe (service : Service) (ledger : Ledger) (sourceId observationId : String)
    (expectedVersion : ℤ)
    (recordId replyEvidenceId correctionReason : Option String) : Except Failure Observed := do
  let expected ← service.expected platform (service.answers.part 1) ledger sourceId expectedVersion recordId
    replyEvidenceId correctionReason
  let observation ← expect ((service.answers [2]).provider observationId expected) .evidenceUnavailable
  service.verifier.actor observation.principalId service.binding.clientId
  require (observation.evidenceId = observationId ∧ observation.sourceId = sourceId ∧
      observation.requestSha256 = digest platform expected.toJson)
    (.lifecycle "Provider request/observation binding mismatch")
  require (observation.replyText = expected.projection.replyText) (.lifecycle "Provider reply text mismatch")
  let payload ← expect (platform.validateResponse observation.rawResponse expected.projection)
    (.lifecycle "Provider proposal is not complete")
  let values ← money payload
  return ⟨expected, observation, values⟩

/-- The row of a new proposal. -/
def proposalRow (proposalId sourceId : String) (version : ℕ) (observationId : String)
    (expectedVersion : ℤ)
    (recordId : Option String) (observed : Observed) (createdAt : ℤ) : ProposalRow where
  proposalId := proposalId
  sourceId := sourceId
  version := version
  observationId := observationId
  expectedVersion := expectedVersion
  recordId := recordId
  values := observed.values
  observation := observed.observation
  expected := observed.expected
  proposalSha256 := digest platform
    (ProposalMaterial.toJson ⟨sourceId, version, observed.observation, observed.values, expectedVersion, recordId⟩)
  createdAt := createdAt

/-- The version number after the newest proposal of a source. -/
def Ledger.nextProposalVersion (ledger : Ledger) (sourceId : String) : ℕ :=
  ((ledger.latestProposal? sourceId).map ProposalRow.version).getD 0 + 1

def Service.proposeWithin (service : Service) (sourceId observationId : String)
    (expectedVersion : ℤ)
    (operationId : String) (recordId replyEvidenceId correctionReason : Option String) :
    LedgerOperation ProposalRef := do
  match ← reading (fun ledger => return ledger.proposals.find? fun row => row.observationId = observationId) with
  | some existing =>
    reading fun ledger => service.replayProposal platform ledger existing sourceId expectedVersion operationId
      recordId replyEvidenceId correctionReason
  | none => do
    let observed ← reading fun ledger => service.observe platform ledger sourceId observationId expectedVersion
      recordId replyEvidenceId correctionReason
    let version ← reading fun ledger => return ledger.nextProposalVersion sourceId
    let proposalId ← freshId world "proposal"
    let createdAt ← now world
    let row := proposalRow platform proposalId sourceId version observationId expectedVersion recordId observed
      createdAt
    writing fun ledger => ledger.insertProposal row
    let _ ← event platform operationId proposalId (.propose row.material)
    return ⟨proposalId, sourceId, version, row.proposalSha256⟩

/-- A review as a caller sees it. -/
def reviewDto (ledger : Ledger) (row : ReviewRow) : Review where
  reviewId := row.reviewId
  proposalId := row.proposalId
  expectedVersion := row.expectedVersion
  recordId := row.recordId
  values := row.values
  reviewSha256 := row.reviewSha256
  deliveryEvidenceId := (ledger.delivery? row.reviewId).map DeliveryRow.evidenceId
  beforeValues := row.material.beforeValues
  correctionReason := row.material.correctionReason

/-- A proposal that may be reviewed at a version. -/
def Service.reviewable (service : Service) (ledger : Ledger) (proposalId : String)
    (expectedVersion : ℤ) :
    Except Failure ProposalRow := do
  let proposal ← expect (ledger.proposal? proposalId) (.lifecycle "Missing l2_proposals identity")
  let _ ← verifyProposal platform service.verifier (service.answers.part 3) ledger proposal
  let _ ← service.verifier.source platform (service.answers.part 4) ledger proposal.sourceId proposal.recordId.isSome
  require ((proposal.version : ℤ) = expectedVersion) (.lifecycle "Review proposal version mismatch")
  return proposal

def Service.replayReview (service : Service) (ledger : Ledger)
    (existing : ReviewRow) : Except Failure Review := do
  let _ ← verifyReview platform service.verifier (service.answers.part 5) ledger existing
  return reviewDto ledger existing

/-- What a review shows and seals; the window starts at one reading of the clock and ends after another. -/
def Service.reviewMaterial (service : Service) (reviewId : String) (proposal : ProposalRow)
    (createdAt expiryReading : ℤ) : ReviewMaterial where
  binding := service.binding
  reviewId := reviewId
  proposalId := proposal.proposalId
  proposalSha256 := proposal.proposalSha256
  expectedVersion := if proposal.recordId.isSome then proposal.expectedVersion else 0
  recordId := proposal.recordId
  values := proposal.values
  createdAt := createdAt
  expiresAt := expiryReading + reviewWindow
  beforeValues := proposal.recordId.map fun _ => proposal.expected.projection.currentValues
  correctionReason := proposal.expected.correctionReason

/-- The row of a new review. -/
def reviewRow (material : ReviewMaterial) (createdAt : ℤ) : ReviewRow where
  reviewId := material.reviewId
  proposalId := material.proposalId
  expectedVersion := material.expectedVersion
  recordId := material.recordId
  values := material.values
  material := material
  reviewSha256 := digest platform material.toJson
  createdAt := createdAt

def Service.reviewWithin (service : Service) (proposalId : String)
    (expectedVersion : ℤ) : LedgerOperation Review := do
  let proposal ← reading fun ledger => service.reviewable platform ledger proposalId expectedVersion
  match ← reading (fun ledger => return ledger.reviewOf? proposalId) with
  | some existing => reading fun ledger => service.replayReview platform ledger existing
  | none => do
    reading fun ledger => require
      ((ledger.latestProposal? proposal.sourceId).map (fun latest => (latest.version : ℤ)) = some expectedVersion)
      (.lifecycle "Superseded proposal cannot be reviewed")
    let reviewId ← freshId world "review"
    let createdAt ← now world
    let expiryReading ← now world
    let rowReading ← now world
    let row := reviewRow platform (service.reviewMaterial reviewId proposal createdAt expiryReading) rowReading
    writing fun ledger => ledger.insertReview row
    let _ ← event platform ("prepare-" ++ reviewId) reviewId (.review row.material)
    return ⟨reviewId, proposalId, row.expectedVersion, row.recordId, row.values, row.reviewSha256, none,
      row.material.beforeValues, row.material.correctionReason⟩

def Service.recordDelivery (service : Service) (reviewId deliveryEvidenceId : String) : LedgerOperation Review := do
  let row ← reading fun ledger => expect (ledger.review? reviewId) (.lifecycle "Missing l2_reviews identity")
  let delivery ← raising (expect ((service.answers [0]).delivery deliveryEvidenceId
    ⟨service.binding, reviewId, row.reviewSha256⟩) .evidenceUnavailable)
  raising (service.verifier.actor delivery.principalId delivery.clientId)
  raising (require (delivery.evidenceId = deliveryEvidenceId ∧ delivery.reviewId = reviewId ∧
      delivery.displaySha256 = row.reviewSha256) (.lifecycle "Delivered display mismatch"))
  match ← reading (fun ledger => return ledger.delivery? reviewId) with
  | some existing => do
    raising (require (existing.evidenceId = deliveryEvidenceId ∧ existing.material = delivery)
      (.lifecycle "Delivery replay mismatch"))
    reading fun ledger => return reviewDto ledger row
  | none => do
    writing fun ledger => ledger.insertDelivery ⟨reviewId, deliveryEvidenceId, delivery⟩
    let _ ← event platform ("delivery-" ++ deliveryEvidenceId) reviewId (.delivery delivery)
    reading fun ledger => return reviewDto ledger row

/-- A committed confirmation is answered from the ledger. -/
def Service.replayCommit (service : Service) (ledger : Ledger) (existing : DecisionRow)
    (reviewId actionEvidenceId : String) : Except Failure CommitReceipt := do
  require (existing.actionEvidenceId = actionEvidenceId ∧ existing.reviewId = reviewId)
    (.lifecycle "Commit replay mismatch")
  let original ← expect (ledger.review? reviewId) (.lifecycle "Missing l2_reviews identity")
  require (original.material.binding = service.binding)
    (.lifecycle "Committed replay belongs to another runtime binding")
  let fact ← expect (ledger.factAt? existing.recordId existing.version)
    (.lifecycle "Committed replay fact is absent")
  let _ ← verifyRecord platform service.verifier (service.answers.part 0) ledger existing.recordId
  return ⟨fact.recordId, fact.version, fact.factSha256, fact.commitSeq⟩

/-- What a decision rests on. -/
structure Accepted where
  source : SourceRow
  action : VerifiedAction

/-- A review is accepted within its window, for the newest proposal, as it was delivered. -/
def Service.accept (service : Service) (ledger : Ledger) (review : ReviewRow)
    (actionEvidenceId : String) (acceptedAt : ℤ) : Except Failure Accepted := do
  let material := review.material
  require (material.binding = service.binding ∧ digest platform material.toJson = review.reviewSha256 ∧
      material.createdAt ≤ acceptedAt ∧ acceptedAt < material.expiresAt)
    (.lifecycle "Review belongs to another binding or was altered")
  let proposal ← expect (ledger.proposal? review.proposalId) (.lifecycle "Missing l2_proposals identity")
  let source ← service.verifier.source platform (service.answers.part 2) ledger proposal.sourceId
    review.recordId.isSome
  require ((ledger.latestProposal? source.sourceId).map ProposalRow.version = some proposal.version)
    (.lifecycle "Stale review after concurrent edit")
  let delivery ← expect (ledger.delivery? review.reviewId) (.lifecycle "Missing l2_deliveries identity")
  let action ← expect ((service.answers [3]).action actionEvidenceId
    ⟨service.binding, review.reviewId, review.reviewSha256, delivery.evidenceId⟩) .evidenceUnavailable
  service.verifier.actor action.principalId action.clientId
  require (action.evidenceId = actionEvidenceId ∧ action.reviewId = review.reviewId ∧
      action.reviewSha256 = review.reviewSha256 ∧ action.deliveryEvidenceId = delivery.evidenceId ∧
      action.action = "confirm") (.lifecycle "Confirmation action mismatch")
  return ⟨source, action⟩

/-- The next version of a record, before its place in the audit chain is known. -/
def nextFact (ledger : Ledger) (review : ReviewRow) (source : SourceRow) (recordId : String) :
    Except Failure (ℕ → FactRow) := do
  let predecessor := ledger.latestFact? recordId
  let version := (predecessor.map FactRow.version).getD 0
  require ((version : ℤ) = review.expectedVersion) (.lifecycle "Correction target changed")
  require (predecessor = none → ∀ fact ∈ ledger.facts, fact.sourceId ≠ source.sourceId)
    (.lifecycle "Economic source already posted")
  let economic := (predecessor.map FactRow.economicEventId).getD source.sourceKey
  let values ← money review.values
  let previous := predecessor.map FactRow.factSha256
  let sha := digest platform (factMaterial recordId (version + 1) economic source.sourceId values previous)
  return fun seq => ⟨recordId, version + 1, economic, source.sourceId, review.reviewId, values, previous, sha, seq⟩

/-- A correction keeps its record, and any other review starts a new one. -/
def recordIdentity : Option String → LedgerOperation String
  | some recordId => pure recordId
  | none => freshId world "record"

def Service.confirm (service : Service) (reviewId actionEvidenceId operationId : String) :
    LedgerOperation CommitReceipt := do
  match ← reading (fun ledger => return ledger.decisions.find? fun row => row.operationId = operationId) with
  | some existing =>
    reading fun ledger => service.replayCommit platform ledger existing reviewId actionEvidenceId
  | none => do
    let review ← reading fun ledger => expect (ledger.review? reviewId) (.lifecycle "Missing l2_reviews identity")
    let _ ← reading fun ledger => verifyReview platform service.verifier (service.answers.part 1) ledger review
    let acceptedAt ← now world
    let accepted ← reading fun ledger => service.accept platform ledger review actionEvidenceId acceptedAt
    let recordId ← recordIdentity world review.recordId
    let fact ← reading fun ledger => nextFact platform ledger review accepted.source recordId
    let seq ← event platform operationId recordId (.confirm
      ⟨reviewId, accepted.action, (fact 0).factSha256, (fact 0).version, acceptedAt⟩)
    writing fun ledger => ledger.insertFact (fact seq)
    writing fun ledger => ledger.insertDecision
      ⟨actionEvidenceId, reviewId, operationId, recordId, (fact seq).version, accepted.action⟩
    return ⟨recordId, (fact seq).version, (fact seq).factSha256, seq⟩

def Service.prepareCorrection (service : Service) (recordId : String) (expectedVersion : ℤ)
    (observationId operationId : String) (replyEvidenceId reason : Option String) : LedgerOperation Review := do
  let fact ← reading fun ledger => expect (ledger.latestFact? recordId) (.lifecycle "Unknown correction target")
  let proposal ← service.proposeWithin platform world fact.sourceId observationId expectedVersion operationId
    (some recordId) replyEvidenceId reason
  service.reviewWithin platform world proposal.proposalId proposal.version

/-- The calls of the lifecycle. -/
inductive Call where
  | capture (sourceEvidenceId operationId : String)
  | propose (sourceId observationId : String) (expectedVersion : ℤ) (operationId : String)
      (replyEvidenceId : Option String)
  | prepareReview (proposalId : String) (expectedVersion : ℤ)
  | recordDelivery (reviewId deliveryEvidenceId : String)
  | confirm (reviewId actionEvidenceId operationId : String)
  | prepareCorrection (recordId : String) (expectedVersion : ℤ) (observationId operationId : String)
      (replyEvidenceId reason : Option String)

inductive Outcome where
  | source (ref : SourceRef)
  | proposal (ref : ProposalRef)
  | review (review : Review)
  | receipt (receipt : CommitReceipt)

/-- A call and the service that makes it. -/
structure Request where
  service : Service
  call : Call

def Service.body (service : Service) : Call → LedgerOperation Outcome
  | .capture sourceEvidenceId operationId =>
    .source <$> service.capture platform world sourceEvidenceId operationId
  | .propose sourceId observationId expectedVersion operationId replyEvidenceId =>
    .proposal <$> service.proposeWithin platform world sourceId observationId expectedVersion operationId none
      replyEvidenceId none
  | .prepareReview proposalId expectedVersion =>
    .review <$> service.reviewWithin platform world proposalId expectedVersion
  | .recordDelivery reviewId deliveryEvidenceId =>
    .review <$> service.recordDelivery platform reviewId deliveryEvidenceId
  | .confirm reviewId actionEvidenceId operationId =>
    .receipt <$> service.confirm platform world reviewId actionEvidenceId operationId
  | .prepareCorrection recordId expectedVersion observationId operationId replyEvidenceId reason =>
    .review <$> service.prepareCorrection platform world recordId expectedVersion observationId operationId
      replyEvidenceId reason

/-- A call is one write operation on the ledger. -/
def perform (request : Request) : LedgerOperation Outcome :=
  transaction (request.service.body platform world request.call)

/-- An empty ledger before the first reading of the clock. -/
def opening : Session Ledger := ⟨Ledger.empty, 0, 0⟩

/-- The session after a sequence of requests to an empty ledger. -/
def afterRequests (requests : List Request) : Session Ledger := run (perform platform world) opening requests

end FinanceCore.LifecycleV2

import FinanceCore.LifecycleV2.Verification

namespace FinanceCore.LifecycleV2

open Exceptions Sorting

variable (platform : Platform)

/-- What the audit of an accepted ledger reports. -/
structure AuditSummary where
  (eventCount factVersionCount : ℕ)
  auditSha256 : Option String

/-- How far the chain of the events has been followed. -/
structure ChainTail where
  expectedSeq : ℕ
  previous : Option String

/-- An event continues the chain with its number and with its hash over the hash before it. -/
def auditEvent (tail : ChainTail) (row : EventRow) : Except Failure ChainTail := do
  require (row.seq = tail.expectedSeq ∧ row.previousSha256 = tail.previous ∧
      row.eventSha256 = digest platform (eventBody row.seq row.operationId row.entityId row.payload tail.previous))
    (.lifecycle "Audit event chain invalid")
  return ⟨tail.expectedSeq + 1, some row.eventSha256⟩

section Owned

variable (ledger : Ledger)

/-- The row that an event is about, with the material of the event. -/
def requireOwnedRow (event : EventRow) : Except Failure Unit :=
  match event.payload with
  | .historicalCapture _ | .capture _ _ => do
    let row ← expect (ledger.source? event.entityId) (.lifecycle "Capture event inventory lacks its exact source")
    require (¬ isLegacyKey row.sourceKey) (.lifecycle "Capture event inventory lacks its exact source")
    let _ ← captureGeneration platform row event.payload
  | .propose material => do
    let row ← expect (ledger.proposal? event.entityId) (.lifecycle "Proposal event inventory lacks owned row")
    require (material = row.material ∧ digest platform material.toJson = row.proposalSha256)
      (.lifecycle "Proposal event inventory differs from owned row")
  | .review material => do
    let row ← expect (ledger.review? event.entityId)
      (.lifecycle "Review event inventory lacks its exact owned row")
    require (material = row.material) (.lifecycle "Review event inventory lacks its exact owned row")
  | .delivery material => do
    let row ← expect (ledger.delivery? event.entityId)
      (.lifecycle "Delivery event inventory lacks its exact owned row")
    require (material = row.material ∧ material.reviewId = event.entityId ∧ material.evidenceId = row.evidenceId)
      (.lifecycle "Delivery event inventory lacks its exact owned row")
  | .confirm _ => do
    let _ ← exactConfirmInventory ledger event

/-- The entity of an event with its kind; a kind names an entity once. -/
def EventRow.owned (event : EventRow) : EventKind × String := (event.kind, event.entityId)

/-- The entities named so far, with that of one more event; commitments are counted for each record. -/
def countOwned (seen : List (EventKind × String)) (event : EventRow) : Except Failure (List (EventKind × String)) :=
  if event.kind = .confirm then do
    requireOwnedRow platform ledger event
    return seen
  else do
    require (event.owned ∉ seen) (.lifecycle "Duplicate owned event inventory")
    requireOwnedRow platform ledger event
    return event.owned :: seen

/-- The identities of the rows that need an event of a kind. -/
def Ledger.ownedKeys : EventKind → List String
  | .capture => (ledger.sources.filter fun row => ¬ isLegacyKey row.sourceKey).map SourceRow.sourceId
  | .propose => ledger.proposals.map ProposalRow.proposalId
  | .review => ledger.reviews.map ReviewRow.reviewId
  | .delivery => ledger.deliveries.map DeliveryRow.reviewId
  | .confirm => []

def requireOwnedKeys (seen : List (EventKind × String)) (kind : EventKind) : Except Failure Unit :=
  require ((ledger.ownedKeys kind).toFinset = ((seen.filter fun entity => entity.1 = kind).map Prod.snd).toFinset)
    (.lifecycle ("Owned row inventory lacks its exact " ++ kind.value ++ " event"))

/-- Rows and events match one to one. -/
def auditOwnedInventory : Except Failure Unit := do
  let seen ← (sortOn EventRow.seq ledger.events).foldlM (countOwned platform ledger) []
  forM [EventKind.capture, .propose, .review, .delivery] (requireOwnedKeys ledger seen)
  forM (ledger.facts.map FactRow.recordId ++ ledger.decisions.map DecisionRow.recordId).dedup
    (auditRecordInventory ledger)

end Owned

section Connection

variable (ledger : Ledger)

def requirePredecessor (row : FactRow) : Except Failure Unit :=
  if 1 < row.version then do
    let prior ← expect (ledger.factAt? row.recordId ((row.version : ℤ) - 1)) (.lifecycle "Fact predecessor invalid")
    require (some prior.factSha256 = row.predecessorSha256) (.lifecycle "Fact predecessor invalid")
  else return ()

/-- A fact is sealed, continues its record and has its event and its decision. -/
def auditFact (row : FactRow) : Except Failure Unit := do
  let values ← money row.values
  let expected := digest platform
    (factMaterial row.recordId row.version row.economicEventId row.sourceId values row.predecessorSha256)
  require (expected = row.factSha256) (.lifecycle "Fact material hash invalid")
  requirePredecessor ledger row
  let event ← expect (ledger.events.find? fun event => event.seq = row.commitSeq) (.lifecycle "Fact lacks audit commit")
  match event.payload with
  | .confirm payload => do
    require (payload.factSha256 = expected) (.lifecycle "Fact audit binding mismatch")
    let decision ← expect (ledger.decisionAt? row.recordId row.version) (.lifecycle "Fact lacks exact decision")
    require (decision.reviewId = row.reviewId) (.lifecycle "Fact lacks exact decision")
  | _ => throw (.lifecycle "Fact lacks audit commit")

def auditReview (row : ReviewRow) : Except Failure Unit :=
  require (digest platform row.material.toJson = row.reviewSha256 ∧ row.material.values = row.values)
    (.lifecycle "Review hash invalid")

/-- The audit of the tables alone. -/
def auditConnection : Except Failure AuditSummary := do
  let tail ← (sortOn EventRow.seq ledger.events).foldlM (auditEvent platform) ⟨1, none⟩
  auditOwnedInventory platform ledger
  forM (sortOn (fun row => toLex (row.recordId, row.version)) ledger.facts) (auditFact platform ledger)
  forM ledger.reviews (auditReview platform)
  return ⟨tail.expectedSeq - 1, ledger.facts.length, tail.previous⟩

end Connection

section Evidence

variable (verifier : Verifier) (port : EvidencePort) (ledger : Ledger)

def Verifier.requireSource (row : SourceRow) : Except Failure Unit := do
  let _ ← verifier.source platform port.steady ledger row.sourceId true

def Verifier.requireProposal (row : ProposalRow) : Except Failure Unit := do
  let _ ← verifyProposal platform verifier port.steady ledger row

def Verifier.requireReview (row : ReviewRow) : Except Failure Unit := do
  let _ ← verifyReview platform verifier port.steady ledger row

def Verifier.requireRecord (recordId : String) : Except Failure Unit := do
  let _ ← verifyRecord platform verifier port.steady ledger recordId

/-- The audit of the tables, and of every row against the evidence of a port. -/
def Verifier.audit : Except Failure AuditSummary := do
  let summary ← auditConnection platform ledger
  forM ledger.sources (verifier.requireSource platform port ledger)
  forM ledger.proposals (verifier.requireProposal platform port ledger)
  forM ledger.reviews (verifier.requireReview platform port ledger)
  forM (ledger.facts.map FactRow.recordId).dedup (verifier.requireRecord platform port ledger)
  return summary

end Evidence

/-- The audit of a snapshot, without a service. -/
def auditEvidenceConnection (port : EvidencePort) (binding : RuntimeBinding) (ledger : Ledger) :
    Except Failure AuditSummary := (Verifier.snapshotEvidence binding).audit platform port ledger

/-- The audit that a service makes of its own ledger. -/
def fullAudit (port : EvidencePort) (binding : RuntimeBinding)
    (ledger : Ledger) : Except Failure AuditSummary :=
  (Verifier.ledgerService binding).audit platform port ledger

end FinanceCore.LifecycleV2

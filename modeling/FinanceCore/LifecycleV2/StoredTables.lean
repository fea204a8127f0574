import FinanceCore.Foundation.JsonLoads
import FinanceCore.Foundation.Tables
import FinanceCore.LifecycleV2.Audit

namespace FinanceCore.LifecycleV2.Stored

open Exceptions Json Sorting Tables

/-- How the audit of stored tables fails: with a message of its own, or on a value of an unexpected shape. -/
inductive AuditFailure where
  | ledger (failure : Failure)
  | malformed
deriving DecidableEq

def refused (message : String) : AuditFailure := .ledger (.lifecycle message)

/-- What the audit takes from its surroundings: the digest of a text, and the texts and values of floats. -/
structure Codec where
  sha256Hex : String → String
  printFloat : String → Option String
  floatNumber : String → Option ℚ

/-- The compact text of a value without undefined or infinite numbers. -/
def canonicalText (value : Value) : Except AuditFailure String := do
  require (finite value) .malformed
  return canonical value

namespace Codec

variable (codec : Codec)

def loads (text : String) : Except AuditFailure Value := expect (Json.loads codec.printFloat text) .malformed

def digest (value : Value) : Except AuditFailure String := do
  let text ← canonicalText value
  return codec.sha256Hex text

end Codec

/-- Only a dictionary can be asked for its keys. -/
def requireDict (value : Value) : Except AuditFailure Unit := require (isDict value) .malformed

structure ProposalRow where
  (proposalId sourceId : String)
  version : ℤ
  observationId : String
  expectedVersion : ℤ
  recordId : Option String
  (valuesJson observationJson proposalSha256 : String)
  createdAt : ℤ
deriving DecidableEq

structure ReviewRow where
  (reviewId proposalId : String)
  expectedVersion : ℤ
  recordId : Option String
  (valuesJson materialJson reviewSha256 : String)
  createdAt : ℤ
deriving DecidableEq

structure DeliveryRow where
  (reviewId evidenceId materialJson : String)
deriving DecidableEq

/-- One version of a record; an imported one has no review. -/
structure FactRow where
  recordId : String
  version : ℤ
  (economicEventId sourceId : String)
  reviewId : Option String
  valuesJson : String
  predecessorSha256 : Option String
  factSha256 : String
  commitSeq : ℤ
deriving DecidableEq

structure DecisionRow where
  (actionEvidenceId reviewId operationId recordId : String)
  version : ℤ
  materialJson : String
deriving DecidableEq

structure EventRow where
  seq : ℤ
  (operationId kind entityId payloadJson : String)
  previousSha256 : Option String
  eventSha256 : String
deriving DecidableEq

structure ImportRow where
  (exportId exportSha256 : String)

/-- The tables that the audit reads, as they are stored. -/
structure LedgerTables where
  sources : List SourceRow
  proposals : List ProposalRow
  reviews : List ReviewRow
  deliveries : List DeliveryRow
  facts : List FactRow
  decisions : List DecisionRow
  events : List EventRow
  imports : List ImportRow

/-- The keys that the schema keeps unique. -/
structure LedgerTables.Schema (tables : LedgerTables) : Prop where
  sources : Keyed SourceRow.sourceId tables.sources
  proposals : Keyed ProposalRow.proposalId tables.proposals
  reviews : Keyed ReviewRow.reviewId tables.reviews
  deliveries : Keyed DeliveryRow.reviewId tables.deliveries
  versions : Keyed (fun row => (row.recordId, row.version)) tables.facts
  commits : Keyed FactRow.commitSeq tables.facts
  decisions : Keyed DecisionRow.operationId tables.decisions
  seqs : Keyed EventRow.seq tables.events
  operations : Keyed EventRow.operationId tables.events

section Chain

variable (codec : Codec)

def eventBody (row : EventRow) (payload : Value) (previous : Option String) : Value :=
  .array [.integer row.seq, .text row.operationId, .text row.kind, .text row.entityId, payload, textOrNull previous]

structure ChainTail where
  expectedSeq : ℤ
  previous : Option String

def auditEvent (tail : ChainTail) (row : EventRow) : Except AuditFailure ChainTail := do
  let payload ← codec.loads row.payloadJson
  let sha ← codec.digest (eventBody row payload tail.previous)
  require (row.seq = tail.expectedSeq ∧ row.previousSha256 = tail.previous ∧ row.eventSha256 = sha)
    (refused "Audit event chain invalid")
  return ⟨tail.expectedSeq + 1, some row.eventSha256⟩

end Chain

section Commitments

variable (codec : Codec) (tables : LedgerTables)

def confirmKeys : List String := ["review_id", "action", "fact_sha256", "version", "accepted_at"]

/-- A confirm event has exactly its fact and its decision. -/
def exactConfirmInventory (event : EventRow) : Except AuditFailure (FactRow × DecisionRow) := do
  let payload ← codec.loads event.payloadJson
  requireDict payload
  require ((payload.members.map Prod.fst).toFinset = confirmKeys.toFinset)
    (refused "Confirm event inventory payload invalid")
  let version ← expect (payload.field "version").integer? (refused "Confirm event inventory payload invalid")
  require (1 ≤ version) (refused "Confirm event inventory payload invalid")
  let _ ← expect (payload.field "accepted_at").integer? (refused "Confirm event inventory payload invalid")
  let fact ← expect (onlyRow (tables.facts.filter fun row => row.commitSeq = event.seq))
    (refused "Confirm event inventory lacks its exact fact/decision")
  let decision ← expect (onlyRow (tables.decisions.filter fun row => row.operationId = event.operationId))
    (refused "Confirm event inventory lacks its exact fact/decision")
  let action := payload.field "action"
  require (isDict action ∧ event.entityId = fact.recordId ∧ version = fact.version ∧
      payload.field "fact_sha256" = .text fact.factSha256 ∧ payload.field "review_id" = textOrNull fact.reviewId ∧
      decision.recordId = fact.recordId ∧ decision.version = fact.version ∧ some decision.reviewId = fact.reviewId ∧
      action.field "evidence_id" = .text decision.actionEvidenceId ∧
      action.field "review_id" = textOrNull fact.reviewId)
    (refused "Confirm event/fact/decision inventory differs")
  let material ← canonicalText action
  require (material = decision.materialJson) (refused "Confirm event/fact/decision inventory differs")
  return (fact, decision)

/-- An import event has exactly its fact, which has neither review nor decision. -/
def exactImportInventory (event : EventRow) : Except AuditFailure FactRow := do
  let payload ← codec.loads event.payloadJson
  let fact ← expect (onlyRow (tables.facts.filter fun row => row.commitSeq = event.seq))
    (refused "Import event inventory lacks its exact fact version")
  requireDict payload
  require (agrees codec.floatNumber (payload.field "version") (.integer fact.version) ∧
      payload.field "fact_sha256" = .text fact.factSha256 ∧ event.entityId = fact.recordId ∧ fact.reviewId = none)
    (refused "Import event inventory lacks its exact fact version")
  require (∀ row ∈ tables.decisions, ¬ (row.recordId = fact.recordId ∧ row.version = fact.version))
    (refused "Imported history acquired a native executable decision")
  return fact

/-- The version that an event commits. -/
def committedVersion (event : EventRow) : Except AuditFailure ℤ :=
  if event.kind = "confirm" then do
    let inventory ← exactConfirmInventory codec tables event
    return inventory.1.version
  else do
    let fact ← exactImportInventory codec tables event
    return fact.version

def countCommit (seen : List ℤ) (event : EventRow) : Except AuditFailure (List ℤ) := do
  let version ← committedVersion codec tables event
  require (version ∉ seen) (refused "Duplicate record commit event inventory")
  return version :: seen

def requireDecisionEvent (recordId : String) (decision : DecisionRow) : Except AuditFailure Unit := do
  let event ← expect (onlyRow
      (tables.events.filter fun row => row.kind = "confirm" ∧ row.operationId = decision.operationId))
    (refused "Decision inventory lacks its exact confirm event")
  let inventory ← exactConfirmInventory codec tables event
  require (inventory.2 = decision ∧ inventory.1.recordId = recordId) (refused "Decision reverse inventory differs")

/-- The facts, decisions and commit events of one record match. -/
def auditRecordInventory (recordId : String) : Except AuditFailure Unit := do
  let seen ← (tables.events.filter fun row =>
    row.entityId = recordId ∧ (row.kind = "confirm" ∨ row.kind = "import")).foldlM (countCommit codec tables) []
  require (((tables.facts.filter fun row => row.recordId = recordId).map FactRow.version).toFinset = seen.toFinset)
    (refused "Record fact inventory differs from retained commit events")
  forM (tables.decisions.filter fun row => row.recordId = recordId) (requireDecisionEvent codec tables recordId)

end Commitments

section Owned

variable (codec : Codec) (tables : LedgerTables)

def captureKeys : List String := ["format", "generation", "source"]

/-- A capture retains its source as it is, or with the generation that captured it. -/
def captureGeneration (row : SourceRow) (payloadJson : String) : Except AuditFailure Unit := do
  let payload ← codec.loads payloadJson
  let text ← canonicalText payload
  require (payloadJson = text) (refused "Capture event must retain exact canonical JSON")
  let sha ← codec.digest row.evidence.toJson
  require (row.sourceSha256 = sha) (refused "Capture event inventory lacks its exact source")
  let source ← canonicalText row.evidence.toJson
  if text = source then return ()
  else do
    require (isDict payload ∧ (payload.members.map Prod.fst).toFinset = captureKeys.toFinset ∧
        payload.field "format" = .text "lifecycle-capture-v2" ∧ payload.field "generation" = .text row.generation ∧
        1 ≤ row.generation.length ∧ row.generation.length ≤ 256)
      (refused "Original capture generation or source binding changed")
    let retained ← canonicalText (payload.field "source")
    require (retained = source) (refused "Original capture generation or source binding changed")

/-- What a propose event must retain of its row. -/
def proposalMaterial (row : ProposalRow) : Except AuditFailure Value := do
  let observation ← codec.loads row.observationJson
  requireDict observation
  let observed ← expect (observation.members.lookup "observation") .malformed
  let values ← codec.loads row.valuesJson
  return .array [.text row.sourceId, .integer row.version, observed, values, .integer row.expectedVersion,
    textOrNull row.recordId]

section

variable (event : EventRow)

def requireSource : Except AuditFailure Unit := do
  let row ← expect (tables.sources.find? fun row => row.sourceId = event.entityId)
    (refused "Capture event inventory lacks its exact source")
  require (¬ isLegacyKey row.sourceKey) (refused "Capture event inventory lacks its exact source")
  captureGeneration codec row event.payloadJson

def requireProposal : Except AuditFailure Unit := do
  let payload ← codec.loads event.payloadJson
  let row ← expect (tables.proposals.find? fun row => row.proposalId = event.entityId)
    (refused "Proposal event inventory lacks owned row")
  let expected ← proposalMaterial codec row
  let sha ← codec.digest payload
  require (agrees codec.floatNumber payload expected ∧ sha = row.proposalSha256)
    (refused "Proposal event inventory differs from owned row")

def requireReview : Except AuditFailure Unit := do
  let row ← expect (tables.reviews.find? fun row => row.reviewId = event.entityId)
    (refused "Review event inventory lacks its exact owned row")
  require (event.payloadJson = row.materialJson) (refused "Review event inventory lacks its exact owned row")

def requireDelivery : Except AuditFailure Unit := do
  let payload ← codec.loads event.payloadJson
  let row ← expect (tables.deliveries.find? fun row => row.reviewId = event.entityId)
    (refused "Delivery event inventory lacks its exact owned row")
  require (event.payloadJson = row.materialJson) (refused "Delivery event inventory lacks its exact owned row")
  requireDict payload
  require (payload.field "review_id" = .text event.entityId ∧ payload.field "evidence_id" = .text row.evidenceId)
    (refused "Delivery event inventory lacks its exact owned row")

def requireImport : Except AuditFailure Unit := do
  let payload ← codec.loads event.payloadJson
  let imported ← expect (tables.imports.find? fun row => row.exportId = event.entityId)
    (refused "Legacy archive event inventory lacks its exact import")
  requireDict payload
  require (payload.field "export_id" = .text event.entityId ∧
      payload.field "export_sha256" = .text imported.exportSha256)
    (refused "Legacy archive event inventory lacks its exact import")

def EventRow.owned : String × String := (event.kind, event.entityId)

end

section

variable (seen : List (String × String))

/-- An event that owns its row counts once for its entity. -/
def countEntity (event : EventRow) (check : Except AuditFailure Unit) :
    Except AuditFailure (List (String × String)) := do
  require (event.owned ∉ seen) (refused "Duplicate owned event inventory")
  check
  return event.owned :: seen

def countOwned (event : EventRow) : Except AuditFailure (List (String × String)) :=
  if event.kind = "confirm" then do
    let _ ← exactConfirmInventory codec tables event
    return seen
  else if event.kind = "import" then do
    let _ ← exactImportInventory codec tables event
    return seen
  else if event.kind = "legacy_archive" then do
    requireImport codec tables event
    return seen
  else if event.kind = "capture" then countEntity seen event (requireSource codec tables event)
  else if event.kind = "propose" then countEntity seen event (requireProposal codec tables event)
  else if event.kind = "review" then countEntity seen event (requireReview tables event)
  else if event.kind = "delivery" then countEntity seen event (requireDelivery codec tables event)
  else throw (refused "Unknown lifecycle audit event kind")

def requireOwnedKeys (kind : String) (keys : List String) : Except AuditFailure Unit :=
  require (keys.toFinset = ((seen.filter fun entity => entity.1 = kind).map Prod.snd).toFinset)
    (refused ("Owned row inventory lacks its exact " ++ kind ++ " event"))

end

/-- The sources that were captured here. -/
def LedgerTables.nativeSources : List SourceRow := tables.sources.filter fun row => ¬ isLegacyKey row.sourceKey

def auditOwnedInventory : Except AuditFailure Unit := do
  let seen ← (sortOn EventRow.seq tables.events).foldlM (countOwned codec tables) []
  requireOwnedKeys seen "capture" (tables.nativeSources.map SourceRow.sourceId)
  requireOwnedKeys seen "propose" (tables.proposals.map ProposalRow.proposalId)
  requireOwnedKeys seen "review" (tables.reviews.map ReviewRow.reviewId)
  requireOwnedKeys seen "delivery" (tables.deliveries.map DeliveryRow.reviewId)
  forM (tables.facts.map FactRow.recordId ++ tables.decisions.map DecisionRow.recordId).dedup
    (auditRecordInventory codec tables)

end Owned

section Connection

variable (codec : Codec) (tables : LedgerTables)

/-- The values of a fact need a canonical positive amount in a supported currency. -/
def requireMoney (values : Value) : Except AuditFailure Unit := do
  requireDict values
  let _ ← (money ⟨(values.field "amount").text?, (values.field "currency").text?, none, none, none, none⟩).mapError
    .ledger

def requirePredecessor (row : FactRow) : Except AuditFailure Unit :=
  if 1 < row.version then do
    let prior ← expect (tables.facts.find? fun prior => prior.recordId = row.recordId ∧ prior.version = row.version - 1)
      (refused "Fact predecessor invalid")
    require (some prior.factSha256 = row.predecessorSha256) (refused "Fact predecessor invalid")
  else return ()

/-- A confirmed fact is bound to its event and to its decision. -/
def requireCommit (row : FactRow) (event : EventRow) (expected : String) : Except AuditFailure Unit :=
  if event.kind = "confirm" then do
    let payload ← codec.loads event.payloadJson
    requireDict payload
    require (payload.field "fact_sha256" = .text expected) (refused "Fact audit binding mismatch")
    let decision ← expect
      (tables.decisions.find? fun other => other.recordId = row.recordId ∧ other.version = row.version)
      (refused "Fact lacks exact decision")
    require (some decision.reviewId = row.reviewId) (refused "Fact lacks exact decision")
  else return ()

def auditFact (row : FactRow) : Except AuditFailure Unit := do
  let values ← codec.loads row.valuesJson
  requireMoney values
  let expected ← codec.digest (.array [.text row.recordId, .integer row.version, .text row.economicEventId,
    .text row.sourceId, values, textOrNull row.predecessorSha256])
  require (expected = row.factSha256) (refused "Fact material hash invalid")
  requirePredecessor tables row
  let event ← expect (tables.events.find? fun event => event.seq = row.commitSeq) (refused "Fact lacks audit commit")
  require (event.kind = "confirm" ∨ event.kind = "import") (refused "Fact lacks audit commit")
  requireCommit codec tables row event expected

def auditReview (row : ReviewRow) : Except AuditFailure Unit := do
  let material ← codec.loads row.materialJson
  let sha ← codec.digest material
  require (sha = row.reviewSha256) (refused "Review hash invalid")
  requireDict material
  let values ← expect (material.members.lookup "values") .malformed
  let text ← canonicalText values
  require (text = row.valuesJson) (refused "Review hash invalid")

structure AuditSummary where
  eventCount : ℤ
  factVersionCount : ℕ
  auditSha256 : Option String
deriving DecidableEq

/-- The audit of the stored tables, whatever they hold. -/
def auditConnection : Except AuditFailure AuditSummary := do
  let tail ← (sortOn EventRow.seq tables.events).foldlM (auditEvent codec) ⟨1, none⟩
  auditOwnedInventory codec tables
  forM (sortOn (fun row => toLex (row.recordId, row.version)) tables.facts) (auditFact codec tables)
  forM tables.reviews (auditReview codec)
  return ⟨tail.expectedSeq - 1, tables.facts.length, tail.previous⟩

end Connection

end FinanceCore.LifecycleV2.Stored

import FinanceCore.Foundation.Tables
import FinanceCore.LifecycleV2.Service

namespace FinanceCore.LifecycleV2

open Exceptions Operations Tables

/-- What one audited change adds to the tables. -/
inductive Entry where
  | captured (row : SourceRow)
  | proposed (row : ProposalRow)
  | reviewed (row : ReviewRow)
  | delivered (row : DeliveryRow)
  | committed (fact : FactRow) (decision : DecisionRow) (acceptedAt : ℤ)

namespace Entry

/-- The entity that a change is about. -/
def entityId : Entry → String
  | .captured row => row.sourceId
  | .proposed row => row.proposalId
  | .reviewed row => row.reviewId
  | .delivered row => row.reviewId
  | .committed fact _ _ => fact.recordId

/-- What the event of a change retains. -/
def payload : Entry → EventPayload
  | .captured row => .capture row.generation row.evidence
  | .proposed row => .propose row.material
  | .reviewed row => .review row.material
  | .delivered row => .delivery row.material
  | .committed fact decision acceptedAt =>
    .confirm ⟨fact.reviewId, decision.material, fact.factSha256, fact.version, acceptedAt⟩

@[simp] def sources : Entry → List SourceRow
  | .captured row => [row]
  | _ => []

@[simp] def proposals : Entry → List ProposalRow
  | .proposed row => [row]
  | _ => []

@[simp] def reviews : Entry → List ReviewRow
  | .reviewed row => [row]
  | _ => []

@[simp] def deliveries : Entry → List DeliveryRow
  | .delivered row => [row]
  | _ => []

@[simp] def facts : Entry → List FactRow
  | .committed fact _ _ => [fact]
  | _ => []

@[simp] def decisions : Entry → List DecisionRow
  | .committed _ decision _ => [decision]
  | _ => []

end Entry

variable (platform host : Platform)

/-- The audit event of a change. -/
def Ledger.eventFor (ledger : Ledger) (operationId : String) (entry : Entry) : EventRow :=
  nextEvent platform ledger.events operationId entry.entityId entry.payload

/-- The tables after one audited change. -/
def Ledger.record (ledger : Ledger) (operationId : String) (entry : Entry) : Ledger where
  sources := ledger.sources ++ entry.sources
  proposals := ledger.proposals ++ entry.proposals
  reviews := ledger.reviews ++ entry.reviews
  deliveries := ledger.deliveries ++ entry.deliveries
  facts := ledger.facts ++ entry.facts
  decisions := ledger.decisions ++ entry.decisions
  events := ledger.events ++ [ledger.eventFor platform operationId entry]

/-- The chain takes an operation that it does not hold yet. -/
structure Ledger.Opens (ledger : Ledger) (operationId : String) (entry : Entry) : Prop where
  named : operationId ≠ "" ∧ operationId.length ≤ 256
  fresh : ∀ other ∈ ledger.events, other.seq ≠ (ledger.eventFor platform operationId entry).seq ∧
    other.operationId ≠ operationId ∧ other.eventSha256 ≠ (ledger.eventFor platform operationId entry).eventSha256

/-- What a capture has checked when it writes a source. -/
structure Service.Captures (service : Service) (ledger : Ledger) (row : SourceRow) : Prop where
  answered : (service.answers [0]).source row.evidenceId = some row.evidence
  actor : row.principalId = service.binding.principalId ∧ row.clientId = service.binding.clientId
  native : ¬ isLegacyKey row.sourceKey
  original : platform.sha256Hex row.rawInput = row.originalSha256
  sealed : row.sourceSha256 = digest platform row.evidence.toJson
  generation : row.generation = service.binding.generation
  fresh : ∀ other ∈ ledger.sources,
    other.sourceId ≠ row.sourceId ∧ other.sourceKey ≠ row.sourceKey ∧ other.evidenceId ≠ row.evidenceId

/-- What a proposal has checked when it is written. -/
structure Service.Proposes (service : Service) (ledger : Ledger) (row : ProposalRow) : Prop where
  observed : service.observe platform ledger row.sourceId row.observationId row.expectedVersion row.recordId
    row.expected.replyEvidenceId row.expected.correctionReason = .ok ⟨row.expected, row.observation, row.values⟩
  version : row.version = ledger.nextProposalVersion row.sourceId
  sealed : row.proposalSha256 = digest platform row.material.toJson
  fresh : ∀ other ∈ ledger.proposals, other.proposalId ≠ row.proposalId ∧ other.observationId ≠ row.observationId ∧
    ¬ (other.sourceId = row.sourceId ∧ other.version = row.version)

/-- What a review has checked when it is written, and the two readings of its window. -/
structure Service.Reviews (service : Service) (world : World) (ledger : Ledger)
    (proposal : ProposalRow) (reading : ℕ) (row : ReviewRow) : Prop where
  reviewable : service.reviewable platform ledger row.proposalId proposal.version = .ok proposal
  material : row.material =
    service.reviewMaterial row.reviewId proposal (world.clock reading) (world.clock (reading + 1))
  written : row = reviewRow platform row.material (world.clock (reading + 2))
  newest : (ledger.latestProposal? proposal.sourceId).map ProposalRow.version = some proposal.version
  fresh : ∀ other ∈ ledger.reviews,
    other.reviewId ≠ row.reviewId ∧ other.proposalId ≠ row.proposalId ∧ other.reviewSha256 ≠ row.reviewSha256

/-- What a delivery has checked when it is written. -/
structure Service.Delivers (service : Service) (ledger : Ledger) (review : ReviewRow)
    (row : DeliveryRow) : Prop where
  found : ledger.review? row.reviewId = some review
  answered : (service.answers [0]).delivery row.evidenceId ⟨service.binding, row.reviewId, review.reviewSha256⟩ =
    some row.material
  actor : row.material.principalId = service.binding.principalId ∧ row.material.clientId = service.binding.clientId
  evidence : row.material.evidenceId = row.evidenceId
  display : row.material.reviewId = row.reviewId ∧ row.material.displaySha256 = review.reviewSha256
  fresh : ∀ other ∈ ledger.deliveries, other.reviewId ≠ row.reviewId ∧ other.evidenceId ≠ row.evidenceId

/-- What a confirmation has checked when it writes a fact and its decision. -/
structure Service.Commits (service : Service) (ledger : Ledger) (review : ReviewRow)
    (accepted : Accepted) (acceptedAt : ℤ) (fact : FactRow) (decision : DecisionRow) : Prop where
  found : ledger.review? fact.reviewId = some review
  verified : ∃ outcome, verifyReview platform service.verifier (service.answers.part 1) ledger review = .ok outcome
  accepts : service.accept platform ledger review decision.actionEvidenceId acceptedAt = .ok accepted
  record : review.recordId = none ∨ review.recordId = some fact.recordId
  next : ∃ build, nextFact platform ledger review accepted.source fact.recordId = .ok build ∧ build fact.commitSeq = fact
  decided : decision = ⟨decision.actionEvidenceId, fact.reviewId, decision.operationId, fact.recordId, fact.version,
    accepted.action⟩
  continued : 1 < fact.version → ∃ prior ∈ ledger.facts, prior.recordId = fact.recordId ∧
    prior.version + 1 = fact.version ∧ some prior.factSha256 = fact.predecessorSha256 ∧
    prior.economicEventId = fact.economicEventId ∧ prior.sourceId = fact.sourceId
  freshFact : ∀ other ∈ ledger.facts, ¬ (other.recordId = fact.recordId ∧ other.version = fact.version) ∧
    ¬ (other.economicEventId = fact.economicEventId ∧ other.version = fact.version) ∧
    other.factSha256 ≠ fact.factSha256 ∧ other.commitSeq ≠ fact.commitSeq ∧ other.reviewId ≠ fact.reviewId
  freshDecision : ∀ other ∈ ledger.decisions, other.actionEvidenceId ≠ decision.actionEvidenceId ∧
    other.reviewId ≠ decision.reviewId ∧ other.operationId ≠ decision.operationId ∧
    ¬ (other.recordId = decision.recordId ∧ other.version = decision.version)

/-- The audited changes that a service can make to a ledger. -/
inductive Service.Records (service : Service) (world : World) (ledger : Ledger) (operationId : String) : Entry → Prop
  | captured {row : SourceRow} (captures : service.Captures platform ledger row) :
      Records service world ledger operationId (.captured row)
  | proposed {row : ProposalRow} (proposes : service.Proposes platform ledger row) :
      Records service world ledger operationId (.proposed row)
  | reviewed {row : ReviewRow} {proposal : ProposalRow} {reading : ℕ}
      (reviews : service.Reviews platform world ledger proposal reading row) :
      Records service world ledger operationId (.reviewed row)
  | delivered {row : DeliveryRow} {review : ReviewRow} (delivers : service.Delivers ledger review row) :
      Records service world ledger operationId (.delivered row)
  | committed {fact : FactRow} {decision : DecisionRow} {acceptedAt : ℤ} {review : ReviewRow} {accepted : Accepted}
      (commits : service.Commits platform ledger review accepted acceptedAt fact decision)
      (operation : decision.operationId = operationId)
      (seq : fact.commitSeq = (ledger.eventFor platform operationId (.committed fact decision acceptedAt)).seq) :
      Records service world ledger operationId (.committed fact decision acceptedAt)

/-- A ledger grows by the changes of one service. -/
inductive Service.Extends (service : Service) (world : World) (ledger : Ledger) : Ledger → Prop
  | refl : Extends service world ledger ledger
  | step {middle : Ledger} {operationId : String} {entry : Entry} (before : Extends service world ledger middle)
      (opens : middle.Opens platform operationId entry) (records : service.Records platform world middle operationId entry) :
      Extends service world ledger (middle.record platform operationId entry)

variable {host} {world : World} {service : Service} {session after : Session Ledger}

variable {ledger first second third : Ledger} {opId : String} {entry : Entry}

theorem Service.Extends.single (opens : ledger.Opens host opId entry)
    (records : service.Records host world ledger opId entry) :
    service.Extends host world ledger (ledger.record host opId entry) :=
  .step .refl opens records

theorem Service.Extends.trans (earlier : service.Extends host world first second)
    (later : service.Extends host world second third) : service.Extends host world first third := by
  induction later with
  | refl => exact earlier
  | step _ opens records ih => exact .step ih opens records

section Statements

/-- A fresh identity draws one name. -/
theorem freshId_returns {kind identity : String} :
    freshId world kind session = .ok identity after ↔
      kind ++ "-" ++ world.names session.draws = identity ∧ { session with draws := session.draws + 1 } = after := by
  simp only [freshId, bind_returns, draw_returns, pure_returns]
  constructor
  · rintro ⟨name, middle, ⟨rfl, rfl⟩, rfl, rfl⟩
    exact ⟨rfl, rfl⟩
  · rintro ⟨rfl, rfl⟩
    exact ⟨_, _, ⟨rfl, rfl⟩, rfl, rfl⟩

variable {opId entityId : String} {payload : EventPayload}

/-- An event is inserted when its number, operation and hash are new. -/
theorem insertEvent_ok {ledger result : Ledger} :
    ledger.insertEvent host opId entityId payload = .ok result ↔ (opId ≠ "" ∧ opId.length ≤ 256) ∧
      (∀ other ∈ ledger.events, other.seq ≠ (nextEvent host ledger.events opId entityId payload).seq ∧
        other.operationId ≠ opId ∧
        other.eventSha256 ≠ (nextEvent host ledger.events opId entityId payload).eventSha256) ∧
      { ledger with events := ledger.events ++ [nextEvent host ledger.events opId entityId payload] } = result := by
  simp only [Ledger.insertEvent, bind_ok, require_ok, pure_ok]
  constructor
  · rintro ⟨-, named, -, fresh, rfl⟩
    exact ⟨named, fresh, rfl⟩
  · rintro ⟨named, fresh, rfl⟩
    exact ⟨(), named, (), fresh, rfl⟩

/-- An audited change returns the number of its event. -/
theorem event_returns {seq : ℕ} :
    event host opId entityId payload session = .ok seq after ↔
      (nextEvent host session.store.events opId entityId payload).seq = seq ∧
      ∃ store, session.store.insertEvent host opId entityId payload = .ok store ∧
      { session with store } = after := by
  simp only [event, bind_returns, reading_returns, writing_returns, pure_returns, pure_ok]
  constructor
  · rintro ⟨row, middle, ⟨rfl, rfl⟩, -, last, ⟨store, inserted, rfl⟩, rfl, rfl⟩
    exact ⟨rfl, store, inserted, rfl⟩
  · rintro ⟨rfl, store, inserted, rfl⟩
    exact ⟨_, _, ⟨rfl, rfl⟩, (), _, ⟨store, inserted, rfl⟩, rfl, rfl⟩

end Statements

/-- The window of a review is taken at a reading of the clock and at the next one. -/
def ReviewRow.TakenAt (world : World) (review : ReviewRow) (reading : ℕ) : Prop :=
  review.material.createdAt = world.clock reading ∧
    review.material.expiresAt = world.clock (reading + 1) + reviewWindow

/-- The windows of the new reviews are taken at readings between two sessions. -/
structure TakesWindows (world : World) (before after : Session Ledger) : Prop where
  forward : before.readings ≤ after.readings
  taken : ∀ review ∈ after.store.reviews, review ∈ before.store.reviews ∨ ∃ reading, before.readings ≤ reading ∧
    reading + 1 < after.readings ∧ review.TakenAt world reading

theorem takesWindows_of_reviews (same : after.store.reviews = session.store.reviews)
    (forward : session.readings ≤ after.readings) : TakesWindows world session after :=
  ⟨forward, fun _ member => .inl (same ▸ member)⟩

theorem TakesWindows.trans {middle : Session Ledger} (earlier : TakesWindows world session middle)
    (later : TakesWindows world middle after) : TakesWindows world session after := by
  refine ⟨earlier.forward.trans later.forward, ?_⟩
  intro review member
  have forward := earlier.forward
  have onward := later.forward
  rcases later.taken review member with known | ⟨reading, from_, to_, taken⟩
  · rcases earlier.taken review known with old | ⟨reading, from_, to_, taken⟩
    · exact .inl old
    · exact .inr ⟨reading, from_, by omega, taken⟩
  · exact .inr ⟨reading, by omega, to_, taken⟩

/-- A ledger grows without a new fact. -/
structure Service.Quiet (platform : Platform) (service : Service) (world : World)
    (before after : Session Ledger) :
    Prop where
  grows : service.Extends platform world before.store after.store
  facts : after.store.facts = before.store.facts
  decisions : after.store.decisions = before.store.decisions
  windows : TakesWindows world before after

theorem Service.Quiet.refl (session : Session Ledger) : service.Quiet host world session session :=
  ⟨.refl, rfl, rfl, takesWindows_of_reviews rfl le_rfl⟩

theorem Service.Quiet.single (opens : session.store.Opens host opId entry)
    (records : service.Records host world session.store opId entry) (facts : entry.facts = [])
    (decisions : entry.decisions = []) (written : session.store.record host opId entry = after.store)
    (windows : TakesWindows world session after) : service.Quiet host world session after := by
  refine ⟨?_, ?_, ?_, windows⟩ <;> rw [← written]
  · exact .single opens records
  · rw [Ledger.record, facts, List.append_nil]
  · rw [Ledger.record, decisions, List.append_nil]

theorem Service.Quiet.trans {middle : Session Ledger} (earlier : service.Quiet host world session middle)
    (later : service.Quiet host world middle after) : service.Quiet host world session after where
  grows := earlier.grows.trans later.grows
  facts := later.facts.trans earlier.facts
  decisions := later.decisions.trans earlier.decisions
  windows := earlier.windows.trans later.windows

section Operations

variable {opId observationId : String} {ledger : Ledger} {expectedVersion : ℤ}
  {replyEvidenceId replyId : Option String} {review : Review} {request : Request}

/-- A capture records its source, or nothing. -/
theorem capture_quiet {sourceEvidenceId : String} {ref : SourceRef}
    (done : service.capture host world sourceEvidenceId opId session = .ok ref after) :
    service.Quiet host world session after := by
  simp only [Service.capture, bind_returns, raising_returns, reading_returns, expect_ok, require_ok, Verifier.actor] at done
  obtain ⟨evidence, _, ⟨answered, rfl⟩, -, _, ⟨actor, rfl⟩, -, _, ⟨checked, rfl⟩, -, _, ⟨original, rfl⟩,
    found, _, ⟨looked, rfl⟩, done⟩ := done
  cases found with
  | some existing =>
    rw [reading_returns] at done
    rw [← done.2]
    exact .refl session
  | none =>
    obtain ⟨rfl, -, native, -, zone⟩ := checked
    simp only [bind_returns, freshId_returns, writing_returns, event_returns, insertEvent_ok, pure_returns,
      Ledger.insertSource, bind_ok, require_ok, pure_ok] at done
    obtain ⟨sourceId, _, ⟨-, rfl⟩, -, _, ⟨_, ⟨-, -, -, fresh, rfl⟩, rfl⟩, -, _,
      ⟨-, _, ⟨opened, unused, rfl⟩, rfl⟩, -, rfl⟩ := done
    let row : SourceRow := ⟨sourceId, evidence.sourceKey, evidence.evidenceId, evidence.principalId,
      evidence.clientId, evidence.rawInput, evidence.originalSha256, digest host evidence.toJson,
      service.binding.generation, evidence.sourceTimestamp⟩
    have retained : row.evidence = evidence := by
      cases evidence
      simp_all [row, SourceRow.evidence]
    have captures : service.Captures host session.store row :=
      ⟨by rw [retained, ← answered], actor, native, original, by rw [retained], rfl, fresh⟩
    have same : (Entry.captured row).payload = .capture service.binding.generation evidence := by
      rw [Entry.payload, retained]
    have opens : session.store.Opens host opId (.captured row) := by
      constructor
      · exact opened
      · rw [Ledger.eventFor, same]
        exact unused
    exact .single opens (.captured captures) rfl rfl
      (by simp [Ledger.record, Ledger.eventFor, same, Entry.entityId, row]) (takesWindows_of_reviews rfl le_rfl)

variable {sourceId proposalId reviewId : String} {recordId correctionReason : Option String} {outcome : Outcome}

/-- The request that a provider answered names what it was built from. -/
theorem observe_request {observed : Observed}
    (done : service.observe host ledger sourceId observationId expectedVersion recordId replyId
      correctionReason = .ok observed) :
    observed.expected.replyEvidenceId = replyId ∧ observed.expected.correctionReason = correctionReason := by
  simp only [Service.observe, Service.expected, bind_ok, pure_ok] at done
  obtain ⟨expected, ⟨source, -, basis, -, localDate, -, projection, -, rfl⟩, observation, -, -, -, -, -, -, -,
    payload, -, values, -, rfl⟩ := done
  exact ⟨rfl, rfl⟩

/-- A proposal is recorded, or nothing. -/
theorem proposeWithin_quiet {ref : ProposalRef}
    (done : service.proposeWithin host world sourceId observationId expectedVersion opId recordId
      replyId correctionReason session = .ok ref after) : service.Quiet host world session after := by
  simp only [Service.proposeWithin, bind_returns, reading_returns] at done
  obtain ⟨found, _, ⟨looked, rfl⟩, done⟩ := done
  cases found with
  | some existing =>
    rw [reading_returns] at done
    rw [← done.2]
    exact .refl session
  | none =>
    simp only [bind_returns, reading_returns, freshId_returns, now_returns, writing_returns, event_returns,
      insertEvent_ok, pure_returns, Ledger.insertProposal, bind_ok, require_ok, pure_ok] at done
    obtain ⟨observed, _, ⟨observes, rfl⟩, version, _, ⟨counted, rfl⟩, proposalId, _, ⟨-, rfl⟩,
      createdAt, _, ⟨-, rfl⟩, -, _, ⟨_, ⟨-, -, -, fresh, rfl⟩, rfl⟩, -, _,
      ⟨-, _, ⟨opened, unused, rfl⟩, rfl⟩, -, rfl⟩ := done
    obtain ⟨reply, reason⟩ := observe_request observes
    let row := proposalRow host proposalId sourceId version observationId expectedVersion recordId observed
      createdAt
    have proposes : service.Proposes host session.store row := by
      refine ⟨?_, counted.symm, rfl, fresh⟩
      change service.observe host session.store sourceId observationId expectedVersion recordId
        observed.expected.replyEvidenceId observed.expected.correctionReason = _
      rw [reply, reason]
      exact observes
    have opens : session.store.Opens host opId (.proposed row) := ⟨opened, unused⟩
    exact .single opens (.proposed proposes) rfl rfl (by simp [Ledger.record, Ledger.eventFor, row]; rfl)
      (takesWindows_of_reviews rfl (Nat.le_succ _))

theorem reviewable_proposal {proposal : ProposalRow}
    (done : service.reviewable host ledger proposalId expectedVersion = .ok proposal) :
    ledger.proposal? proposalId = some proposal ∧ (proposal.version : ℤ) = expectedVersion := by
  simp only [Service.reviewable, bind_ok, expect_ok, require_ok, pure_ok] at done
  obtain ⟨row, found, -, -, -, -, -, version, rfl⟩ := done
  exact ⟨found, version⟩

/-- A review is recorded at three readings of the clock, or nothing. -/
theorem reviewWithin_quiet
    (done : service.reviewWithin host world proposalId expectedVersion session = .ok review after) :
    service.Quiet host world session after := by
  simp only [Service.reviewWithin, bind_returns, reading_returns] at done
  obtain ⟨proposal, _, ⟨reviewable, rfl⟩, found, _, ⟨looked, rfl⟩, done⟩ := done
  cases found with
  | some existing =>
    rw [reading_returns] at done
    rw [← done.2]
    exact .refl session
  | none =>
    simp only [bind_returns, reading_returns, freshId_returns, now_returns, writing_returns, event_returns,
      insertEvent_ok, pure_returns, Ledger.insertReview, bind_ok, require_ok, pure_ok] at done
    obtain ⟨-, _, ⟨newest, rfl⟩, reviewId, _, ⟨-, rfl⟩, _, _, ⟨rfl, rfl⟩, _, _, ⟨rfl, rfl⟩, _, _, ⟨rfl, rfl⟩,
      -, _, ⟨_, ⟨-, -, -, fresh, rfl⟩, rfl⟩, -, _, ⟨-, _, ⟨opened, unused, rfl⟩, rfl⟩, -, rfl⟩ := done
    obtain ⟨known, numbered⟩ := reviewable_proposal reviewable
    have same : proposal.proposalId = proposalId := (find?_key known).2
    let row := reviewRow host (service.reviewMaterial reviewId proposal (world.clock session.readings)
      (world.clock (session.readings + 1))) (world.clock (session.readings + 2))
    have reviews : service.Reviews host world session.store proposal session.readings row := by
      refine ⟨?_, rfl, rfl, ?_, fresh⟩
      · change service.reviewable host session.store proposal.proposalId proposal.version = _
        rw [same, numbered]
        exact reviewable
      · rw [← numbered] at newest
        cases latest : session.store.latestProposal? proposal.sourceId with
        | none => simp [latest] at newest
        | some row => simpa [latest] using newest
    have opens : session.store.Opens host ("prepare-" ++ reviewId) (.reviewed row) := ⟨opened, unused⟩
    have windows (events : List EventRow) (draws : ℕ) : TakesWindows world session
        ⟨{ session.store with reviews := session.store.reviews ++ [row], events }, session.readings + 3, draws⟩ := by
      refine ⟨Nat.le_add_right _ 3, ?_⟩
      intro review member
      rcases List.mem_append.mp member with old | added
      · exact .inl old
      · rw [List.mem_singleton.mp added]
        exact .inr ⟨session.readings, le_rfl, by simp, rfl, rfl⟩
    exact .single opens (.reviewed reviews) rfl rfl (by simp [Ledger.record, Ledger.eventFor, row]; rfl) (windows _ _)

/-- A delivery is recorded, or nothing. -/
theorem recordDelivery_quiet {deliveryEvidenceId : String}
    (done : service.recordDelivery host reviewId deliveryEvidenceId session = .ok review after) :
    service.Quiet host world session after := by
  simp only [Service.recordDelivery, bind_returns, raising_returns, reading_returns, expect_ok, require_ok,
    Verifier.actor] at done
  obtain ⟨row, _, ⟨known, rfl⟩, delivery, _, ⟨answered, rfl⟩, -, _, ⟨actor, rfl⟩, -, _, ⟨display, rfl⟩,
    found, _, ⟨looked, rfl⟩, done⟩ := done
  cases found with
  | some existing =>
    simp only [bind_returns, raising_returns, reading_returns] at done
    obtain ⟨-, _, ⟨-, rfl⟩, -, rfl⟩ := done
    exact .refl _
  | none =>
    simp only [bind_returns, reading_returns, writing_returns, event_returns, insertEvent_ok,
      Ledger.insertDelivery, bind_ok, require_ok, pure_ok] at done
    obtain ⟨-, _, ⟨_, ⟨-, fresh, rfl⟩, rfl⟩, -, _, ⟨-, _, ⟨opened, unused, rfl⟩, rfl⟩, -, rfl⟩ := done
    let entry : DeliveryRow := ⟨reviewId, deliveryEvidenceId, delivery⟩
    have delivers : service.Delivers session.store row entry := ⟨known, answered, actor, display.1, display.2, fresh⟩
    have opens : session.store.Opens host ("delivery-" ++ deliveryEvidenceId) (.delivered entry) :=
      ⟨opened, unused⟩
    exact .single opens (.delivered delivers) rfl rfl
      (by simp [Ledger.record, Ledger.eventFor, Entry.entityId, Entry.payload, entry])
      (takesWindows_of_reviews rfl le_rfl)

/-- A correction records a proposal and its review. -/
theorem prepareCorrection_quiet {recordId : String} {reason : Option String}
    (done : service.prepareCorrection host world recordId expectedVersion observationId opId replyId
      reason session = .ok review after) : service.Quiet host world session after := by
  simp only [Service.prepareCorrection, bind_returns, reading_returns] at done
  obtain ⟨fact, _, ⟨-, rfl⟩, proposal, middle, proposed, reviewed⟩ := done
  exact (proposeWithin_quiet proposed).trans (reviewWithin_quiet reviewed)

/-- A confirmation that commits, with the fact, the decision and the receipt that it leaves. -/
structure Service.Confirms (platform : Platform) (service : Service) (world : World)
    (session : Session Ledger)
    (reviewId actionEvidenceId operationId : String) (review : ReviewRow) (accepted : Accepted)
    (fact : FactRow) (decision : DecisionRow) : Prop where
  commits : service.Commits platform session.store review accepted (world.clock session.readings) fact decision
  review : fact.reviewId = reviewId
  action : decision.actionEvidenceId = actionEvidenceId
  operation : decision.operationId = operationId
  seq : fact.commitSeq =
    (session.store.eventFor platform operationId (.committed fact decision (world.clock session.readings))).seq
  opens : session.store.Opens platform operationId (.committed fact decision (world.clock session.readings))

/-- The receipt of a fact. -/
def FactRow.receipt (fact : FactRow) : CommitReceipt := ⟨fact.recordId, fact.version, fact.factSha256, fact.commitSeq⟩

/-- The next version of a record, whatever its event. -/
theorem nextFact_build {review : ReviewRow} {source : SourceRow} {recordId : String}
    {build : ℕ → FactRow}
    (built : nextFact host ledger review source recordId = .ok build) (seq : ℕ) :
    (build seq).recordId = recordId ∧ (build seq).reviewId = review.reviewId ∧
      (build seq).commitSeq = seq ∧
      (build seq).factSha256 = (build 0).factSha256 ∧ (build seq).version = (build 0).version := by
  simp only [nextFact, bind_ok, pure_ok] at built
  obtain ⟨-, -, -, -, values, -, rfl⟩ := built
  exact ⟨rfl, rfl, rfl, rfl, rfl⟩

/-- A confirmation that returns answers from a committed decision or commits a new one. -/
theorem confirm_cases {actionId : String} {receipt : CommitReceipt}
    (done : service.confirm host world reviewId actionId opId session = .ok receipt after) :
    (∃ existing, session.store.decisions.find? (fun row => row.operationId = opId) = some existing ∧
      service.replayCommit host session.store existing reviewId actionId = .ok receipt ∧ after = session) ∨
    (session.store.decisions.find? (fun row => row.operationId = opId) = none ∧ ∃ review accepted fact decision,
        service.Confirms host world session reviewId actionId opId review accepted fact decision ∧
        after.store = session.store.record host opId (.committed fact decision (world.clock session.readings)) ∧
        receipt = fact.receipt) := by
  rw [Service.confirm, bind_returns] at done
  obtain ⟨found, _, looked, done⟩ := done
  obtain ⟨rfl, rfl⟩ := looked
  cases looked : session.store.decisions.find? (fun row => row.operationId = opId) with
  | some existing =>
    rw [looked] at done
    rw [reading_returns] at done
    exact .inl ⟨existing, rfl, done.1, done.2.symm⟩
  | none =>
    rw [looked] at done
    right
    refine ⟨rfl, ?_⟩
    simp only [bind_returns, reading_returns, expect_ok] at done
    obtain ⟨review, _, ⟨known, rfl⟩, outcome, _, ⟨verified, rfl⟩, acceptedAt, _, clocked, accepted, _, ⟨accepts, rfl⟩,
      recordId, middle, identified, build, _, ⟨built, rfl⟩, seq, _, opened, _, _, inserted, _, _, decided, returned⟩ :=
      done
    obtain ⟨rfl, rfl⟩ := clocked
    have record : (review.recordId = none ∨ review.recordId = some recordId) ∧ middle.store = session.store := by
      cases named : review.recordId with
      | none =>
        rw [named, recordIdentity, freshId_returns] at identified
        rw [← identified.2]
        exact ⟨.inl rfl, rfl⟩
      | some name =>
        rw [named, recordIdentity, pure_returns] at identified
        rw [← identified.1, ← identified.2]
        exact ⟨.inr rfl, rfl⟩
    obtain ⟨record, stored⟩ := record
    rw [stored] at built
    rw [event_returns, stored] at opened
    obtain ⟨rfl, _, opened, rfl⟩ := opened
    rw [insertEvent_ok] at opened
    obtain ⟨named, unused, rfl⟩ := opened
    simp only [writing_returns, Ledger.insertFact, bind_ok, require_ok, pure_ok] at inserted
    obtain ⟨_, ⟨-, ⟨-, continued⟩, -, freshFact, -, -, rfl⟩, rfl⟩ := inserted
    simp only [writing_returns, Ledger.insertDecision, bind_ok, require_ok, pure_ok] at decided
    obtain ⟨_, ⟨-, freshDecision, rfl⟩, rfl⟩ := decided
    obtain ⟨rfl, rfl⟩ := returned
    have reviewed : review.reviewId = reviewId := (find?_key known).2
    let seq := (nextEvent host session.store.events opId recordId (.confirm
      ⟨reviewId, accepted.action, (build 0).factSha256, (build 0).version, world.clock session.readings⟩)).seq
    let decision : DecisionRow :=
      ⟨actionId, reviewId, opId, recordId, (build seq).version, accepted.action⟩
    obtain ⟨sameRecord, sameReview, sameSeq, sameSha, sameVersion⟩ := nextFact_build built seq
    rw [reviewed] at sameReview
    have event : session.store.eventFor host opId (.committed (build seq) decision (world.clock session.readings)) =
        nextEvent host session.store.events opId recordId (.confirm
          ⟨reviewId, accepted.action, (build 0).factSha256, (build 0).version, world.clock session.readings⟩) := by
      rw [Ledger.eventFor, Entry.payload, Entry.entityId, sameRecord, sameReview, sameSha, sameVersion]
    have commits : service.Commits host session.store review accepted (world.clock session.readings) (build seq)
        decision :=
      { found := by rw [sameReview]; exact known
        verified := ⟨outcome, verified⟩
        accepts := accepts
        record := by rw [sameRecord]; exact record
        next := ⟨build, by rw [sameRecord]; exact built, by rw [sameSeq]⟩
        decided := by rw [sameRecord, sameReview]
        continued := continued
        freshFact := freshFact
        freshDecision := freshDecision }
    refine ⟨review, accepted, build seq, decision, ⟨commits, sameReview, rfl, rfl, ?_, ⟨named, ?_⟩⟩, ?_, ?_⟩
    · exact sameSeq
    · rw [event]
      exact unused
    · simp [Ledger.record, event, seq, decision]
    · rw [FactRow.receipt, sameRecord, sameSeq]

/-- What a request can do to a ledger. -/
theorem perform_cases (done : perform host world request session = .ok outcome after) :
    request.service.Quiet host world session after ∨
      ∃ reviewId actionId opId review accepted fact decision, request.call = .confirm reviewId actionId opId ∧
        request.service.Confirms host world session reviewId actionId opId review accepted fact decision ∧
        after.store = session.store.record host opId (.committed fact decision (world.clock session.readings)) ∧
        outcome = .receipt fact.receipt := by
  obtain ⟨service, call⟩ := request
  rw [perform, transaction_returns] at done
  cases call with
  | capture sourceEvidenceId opId =>
    obtain ⟨ref, done, -⟩ := map_returns.mp done
    exact .inl (capture_quiet done)
  | propose sourceId observationId expectedVersion opId replyId =>
    obtain ⟨ref, done, -⟩ := map_returns.mp done
    exact .inl (proposeWithin_quiet done)
  | prepareReview proposalId expectedVersion =>
    obtain ⟨review, done, -⟩ := map_returns.mp done
    exact .inl (reviewWithin_quiet done)
  | recordDelivery reviewId deliveryEvidenceId =>
    obtain ⟨review, done, -⟩ := map_returns.mp done
    exact .inl (recordDelivery_quiet done)
  | prepareCorrection recordId expectedVersion observationId opId replyId reason =>
    obtain ⟨review, done, -⟩ := map_returns.mp done
    exact .inl (prepareCorrection_quiet done)
  | confirm reviewId actionId opId =>
    obtain ⟨receipt, confirmed, rfl⟩ := map_returns.mp done
    rcases confirm_cases confirmed with ⟨existing, -, -, rfl⟩ | ⟨-, review, accepted, fact, decision, confirms, grown, rfl⟩
    · exact .inl (.refl _)
    · exact .inr ⟨reviewId, actionId, opId, review, accepted, fact, decision, rfl, confirms, grown, rfl⟩

/-- A request that raises leaves every table as it was. -/
theorem perform_raises {failure : Failure} (raised : perform host world request session = .error failure after) :
    after.store = session.store :=
  transaction_raises raised

/-- A request that returns extends the ledger by audited changes. -/
theorem perform_extends (done : perform host world request session = .ok outcome after) :
    request.service.Extends host world session.store after.store := by
  rcases perform_cases done with quiet | ⟨_, _, _, _, _, _, _, -, confirms, grown, -⟩
  · exact quiet.grows
  · rw [grown]
    exact .single confirms.opens (.committed confirms.commits confirms.operation confirms.seq)

end Operations

end FinanceCore.LifecycleV2

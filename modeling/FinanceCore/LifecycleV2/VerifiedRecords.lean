import FinanceCore.LifecycleV2.VerifiedProposals

namespace FinanceCore.LifecycleV2

open Exceptions Operations Tables List

variable {host : Platform} {world : World} {admitted : Service → Prop} {ledger : Ledger} {port : EvidencePort}
  {review : ReviewRow} {verifier : Verifier} {source : SourceRow}

/-- What a review needs beyond what its writing ensures: the binding of its proposal, an open window and a delivery
for that binding. -/
structure ReviewRow.Confirmable (port : EvidencePort) (ledger : Ledger) (review : ReviewRow)
    (proposal : ProposalRow) :
    Prop where
  binding : review.material.binding = proposal.expected.binding
  window : 0 < review.material.expiresAt - review.material.createdAt ∧
    review.material.expiresAt - review.material.createdAt ≤ reviewWindow
  delivered : ∀ delivery, ledger.delivery? review.reviewId = some delivery →
    port.delivery delivery.evidenceId ⟨proposal.expected.binding, review.reviewId, review.reviewSha256⟩ =
        some delivery.material ∧
      delivery.material.principalId = proposal.expected.binding.principalId ∧
      delivery.material.clientId = proposal.expected.binding.clientId

variable {recordId : String} {acceptedAt : ℤ} {event : EventRow}

theorem verifyReview_facts {outcome : ExpectedInvocation × Option DeliveryRow}
    (done : verifyReview host verifier port.steady ledger review = .ok outcome) :
    ∃ proposal, ledger.proposal? review.proposalId = some proposal ∧
      review.Confirmable port ledger proposal ∧
      ∃ source ∈ ledger.sources, source.sourceId = proposal.sourceId ∧ verifier.Owns source := by
  simp only [verifyReview, bind_ok, expect_ok, require_ok, pure_ok, EvidencePort.steady_part] at done
  obtain ⟨proposal, found, expected, verified, _, checked, event, _, _, _, _, delivery, _⟩ := done
  have returned := verified
  simp only [verifyProposal, bind_ok, expect_ok, require_ok, pure_ok, EvidencePort.steady_part] at returned
  obtain ⟨source, owned, _, _, anchor, _, _, _, localDate, _, _, _, observation, _, _, _, _, _, _, _, _, _, proposeEvent,
    _, _, _, _, _, _, _, rfl⟩ := returned
  refine ⟨proposal, found, ⟨checked.1, ?_, ?_⟩, source, source_row owned⟩
  · obtain ⟨_, _, _, _, _, _, _, _, _, _, _, window⟩ := checked
    exact window
  · intro row known
    rw [known] at delivery
    simp only [verifyDelivery, bind_ok, expect_ok, require_ok, EvidencePort.steady_apply] at delivery
    obtain ⟨actual, answered, same, _, _, principal, client⟩ := delivery
    rw [same] at answered principal client
    exact ⟨answered, principal, client⟩

section Reviews

variable (steady : ∀ service, admitted service → service.answers = port.steady)
  (reached : ledger.Reachable host world admitted)
include reached

variable {proposal : ProposalRow}

/-- A delivery shows the review that it names. -/
theorem Ledger.Reachable.delivery_display (member : review ∈ ledger.reviews)
    {delivery : DeliveryRow} (found : ledger.delivery? review.reviewId = some delivery) :
    delivery.material.reviewId = review.reviewId ∧ delivery.material.displaySha256 = review.reviewSha256 := by
  obtain ⟨listed, named⟩ := find?_key found
  obtain ⟨before, service, opId, shown, origin, delivers⟩ := reached.delivery_origin listed
  obtain ⟨known, same⟩ := find?_key delivers.found
  have identical := reached.inventory.reviewIds.injective (origin.earlier.reviews.subset known) member (same.trans named)
  rw [← identical, same]
  exact delivers.display

/-- A review repeats its proposal, and its window comes from two successive readings of the clock. -/
theorem Ledger.Reachable.review_repeats (member : review ∈ ledger.reviews)
    (known : proposal ∈ ledger.proposals) (same : proposal.proposalId = review.proposalId) :
    ∃ service reading, admitted service ∧ review.material =
        Service.reviewMaterial service review.reviewId proposal (world.clock reading) (world.clock (reading + 1)) ∧
      review = reviewRow host review.material (world.clock (reading + 2)) := by
  obtain ⟨before, service, opId, reviewed, reading, origin, reviews⟩ := reached.review_origin member
  obtain ⟨found, named⟩ := find?_key (reviewable_proposal reviews.reviewable).1
  have inside := origin.earlier.proposals.subset found
  have identical := reached.inventory.proposalIds.injective inside known (named.trans same.symm)
  subst identical
  exact ⟨service, reading, origin.allowed, reviews.material, reviews.written⟩

include steady

/-- A confirmable review is verified by every verifier of its actor. -/
theorem Ledger.Reachable.review_verified (member : review ∈ ledger.reviews)
    (known : proposal ∈ ledger.proposals) (same : proposal.proposalId = review.proposalId)
    (held : source ∈ ledger.sources) (named : source.sourceId = proposal.sourceId)
    (owns : verifier.Owns source) (confirmable : review.Confirmable port ledger proposal) :
    verifyReview host verifier port.steady ledger review =
      .ok (proposal.expected, ledger.delivery? review.reviewId) := by
  have found := reached.proposal?_eq known
  rw [same] at found
  obtain ⟨service, reading, _, material, row⟩ := reached.review_repeats member known same
  obtain ⟨event, only, payload⟩ := reached.review_event member
  simp only [verifyReview, bind_ok, expect_ok, require_ok, EvidencePort.steady_part]
  refine ⟨proposal, found, proposal.expected, reached.proposal_verified steady known held named owns, (),
    ⟨confirmable.binding, ?_, ?_, ?_, ?_, ?_, ?_, ?_, ?_, ?_, ?_, confirmable.window⟩, event, only, (), payload, (), ?_, rfl⟩
  iterate 4 rw [material, Service.reviewMaterial]
  · rw [row]
    rfl
  iterate 2 rw [material, Service.reviewMaterial]
  iterate 3
    rw [row]
    rfl
  · cases delivered : ledger.delivery? review.reviewId with
    | none => rfl
    | some delivery =>
      obtain ⟨answered, principal, client⟩ := confirmable.delivered delivery delivered
      obtain ⟨shown, display⟩ := reached.delivery_display member delivered
      simp only [verifyDelivery, bind_ok, expect_ok, require_ok, EvidencePort.steady_apply]
      exact ⟨delivery.material, answered, rfl, shown, display, principal, client⟩

end Reviews

/-- A new fact is sealed over its own columns and continues the newest version. -/
theorem nextFact_sealed {build : ℕ → FactRow} (built : nextFact host ledger review source recordId = .ok build)
    (seq : ℕ) :
    money (build seq).values = .ok (build seq).values ∧
      (build seq).predecessorSha256 = (ledger.latestFact? recordId).map FactRow.factSha256 ∧
      digest host (factMaterial recordId (build seq).version (build seq).economicEventId (build seq).sourceId
        (build seq).values (build seq).predecessorSha256) = (build seq).factSha256 ∧
      (ledger.latestFact? recordId = none → (build seq).economicEventId = source.sourceKey) := by
  simp only [nextFact, bind_ok, require_ok, pure_ok] at built
  obtain ⟨_, _, _, _, values, checked, rfl⟩ := built
  have same := money_eq_ok checked
  subst same
  refine ⟨checked, rfl, rfl, ?_⟩
  intro absent
  rw [absent]
  rfl

/-- What an accepted review rests on. -/
structure Service.Accepts (service : Service) (port : EvidencePort) (ledger : Ledger)
    (review : ReviewRow)
    (actionEvidenceId : String) (acceptedAt : ℤ) (accepted : Accepted) (proposal : ProposalRow)
    (delivery : DeliveryRow) : Prop where
  binding : review.material.binding = service.binding
  window : review.material.createdAt ≤ acceptedAt ∧ acceptedAt < review.material.expiresAt
  proposed : ledger.proposal? review.proposalId = some proposal
  sourced : accepted.source ∈ ledger.sources ∧ accepted.source.sourceId = proposal.sourceId
  delivered : ledger.delivery? review.reviewId = some delivery
  answered : port.action actionEvidenceId ⟨service.binding, review.reviewId, review.reviewSha256, delivery.evidenceId⟩ =
    some accepted.action
  actor : accepted.action.principalId = service.binding.principalId ∧
    accepted.action.clientId = service.binding.clientId
  action : accepted.action.evidenceId = actionEvidenceId ∧ accepted.action.reviewId = review.reviewId ∧
    accepted.action.reviewSha256 = review.reviewSha256 ∧ accepted.action.deliveryEvidenceId = delivery.evidenceId ∧
    accepted.action.action = "confirm"

theorem accept_facts {service : Service} (steady : service.answers = port.steady)
    {actionId : String} {accepted : Accepted}
    (done : service.accept host ledger review actionId acceptedAt = .ok accepted) :
    ∃ proposal delivery, service.Accepts port ledger review actionId acceptedAt accepted proposal delivery := by
  simp only [Service.accept, steady, EvidencePort.steady_part, EvidencePort.steady_apply, bind_ok, require_ok,
    expect_ok, pure_ok, Verifier.actor] at done
  obtain ⟨_, ⟨binding, _, window⟩, proposal, found, source, verified, _, _, delivery, delivered, action, answered, _,
    actor, _, named, rfl⟩ := done
  obtain ⟨inside, keyed, _⟩ := source_row verified
  exact ⟨proposal, delivery, binding, window, found, ⟨inside, keyed⟩, delivered, answered, actor, named⟩

/-- A commitment as a later ledger holds it. -/
structure Ledger.Holds (platform : Platform) (port : EvidencePort) (ledger : Ledger)
    (fact : FactRow)
    (decision : DecisionRow) (acceptedAt : ℤ) (review : ReviewRow) (proposal : ProposalRow)
    (source : SourceRow) (delivery : DeliveryRow) (event : EventRow) : Prop where
  reviewed : review ∈ ledger.reviews ∧ review.reviewId = fact.reviewId
  proposed : proposal ∈ ledger.proposals ∧ proposal.proposalId = review.proposalId
  sourced : source ∈ ledger.sources ∧ source.sourceId = proposal.sourceId ∧ fact.sourceId = source.sourceId
  confirmable : review.Confirmable port ledger proposal
  delivered : ledger.delivery? review.reviewId = some delivery
  decided : decision ∈ ledger.decisions ∧ (⟨fact, decision, acceptedAt⟩ : Commitment).Matches
  recorded : event ∈ ledger.events ∧ event.seq = fact.commitSeq ∧ event.entityId = fact.recordId ∧
    event.operationId = decision.operationId ∧
    event.payload = .confirm (⟨fact, decision, acceptedAt⟩ : Commitment).payload
  window : review.material.createdAt ≤ acceptedAt ∧ acceptedAt < review.material.expiresAt
  answered : port.action decision.actionEvidenceId
    ⟨proposal.expected.binding, review.reviewId, review.reviewSha256, delivery.evidenceId⟩ = some decision.material
  actor : decision.material.principalId = proposal.expected.binding.principalId ∧
    decision.material.clientId = proposal.expected.binding.clientId
  action : decision.material.reviewSha256 = review.reviewSha256 ∧
    decision.material.deliveryEvidenceId = delivery.evidenceId ∧ decision.material.action = "confirm"
  sealed : money fact.values = .ok fact.values ∧
    digest platform (factMaterial fact.recordId fact.version fact.economicEventId fact.sourceId fact.values
      fact.predecessorSha256) = fact.factSha256
  first : fact.version = 1 → fact.economicEventId = source.sourceKey ∧ fact.predecessorSha256 = none
  expected : review.expectedVersion = (fact.version : ℤ) - 1 ∧ review.values = fact.values ∧
    (1 < fact.version → review.recordId = some fact.recordId)

/-- The event and the decision of a held fact are found by its number and its version. -/
theorem Ledger.Holds.found {fact : FactRow} {decision : DecisionRow} {proposal : ProposalRow}
    {delivery : DeliveryRow} {commitments : List Commitment}
    (holds : ledger.Holds host port fact decision acceptedAt review proposal source delivery event)
    (inventory : ledger.Inventory commitments) :
    ledger.events.find? (fun row => row.seq = fact.commitSeq) = some event ∧
      ledger.decisionAt? fact.recordId fact.version = some decision := by
  rw [← holds.recorded.2.1, ← holds.decided.2.record, ← holds.decided.2.version]
  constructor
  · apply find?_eq_of_unique holds.recorded.1 (by simp)
    intro other inside equal
    exact inventory.numbered.injective inside holds.recorded.1 (of_decide_eq_true equal)
  · apply find?_eq_of_unique holds.decided.1 (by simp)
    intro other inside equal
    apply inventory.decided.injective inside holds.decided.1
    simpa using equal

section Records

variable (steady : ∀ service, admitted service → service.answers = port.steady)
  (reached : ledger.Reachable host world admitted)
include steady reached

variable {fact : FactRow}

/-- Every fact is held with its review, its proposal, its source, its delivery, its decision and its event. -/
theorem Ledger.Reachable.fact_held (member : fact ∈ ledger.facts) :
    ∃ decision acceptedAt review proposal source delivery event,
      ledger.Holds host port fact decision acceptedAt review proposal source delivery event := by
  obtain ⟨before, service, opId, review, accepted, acceptedAt, decision, origin, commits, operation, seq⟩ :=
    reached.fact_origin member
  have answers := steady service origin.allowed
  have earlier := origin.earlier
  have later := origin.later.tables
  obtain ⟨proposal, delivery, accepts⟩ := accept_facts answers commits.accepts
  obtain ⟨outcome, verified⟩ := commits.verified
  rw [answers] at verified
  obtain ⟨checked, found, confirmable, _⟩ := verifyReview_facts verified
  have same : checked = proposal := by
    have both := found.symm.trans accepts.proposed
    exact Option.some_inj.mp both
  subst same
  obtain ⟨reviewed, reviewId⟩ := find?_key commits.found
  obtain ⟨proposed, proposalId⟩ := find?_key found
  obtain ⟨listed, deliveredId⟩ := find?_key accepts.delivered
  have delivered : ledger.delivery? review.reviewId = some delivery :=
    deliveredId ▸ reached.delivery?_eq (earlier.deliveries.subset listed)
  obtain ⟨build, built, isFact⟩ := commits.next
  obtain ⟨version, sourceId, values, expected, _⟩ := nextFact_fields built fact.commitSeq
  obtain ⟨paid, previous, digested, economic⟩ := nextFact_sealed built fact.commitSeq
  rw [isFact] at version sourceId values paid previous digested economic
  have material : decision.material = accepted.action := by rw [commits.decided]
  have binding : checked.expected.binding = service.binding := confirmable.binding.symm.trans accepts.binding
  have starts : fact.version = 1 → before.latestFact? fact.recordId = none := by
    intro one
    cases latest : before.latestFact? fact.recordId with
    | none => rfl
    | some newest =>
      have bounds := (origin.reached.inventory.linked.numbered fact.recordId).bounds (argmax_mem latest)
      rw [Ledger.factVersion, latest, Option.map_some, Option.getD_some] at version
      omega
  refine ⟨decision, acceptedAt, review, checked, accepted.source, delivery, before.eventFor host opId
    (.committed fact decision acceptedAt), ?_⟩
  constructor
  · exact ⟨earlier.reviews.subset reviewed, reviewId⟩
  · exact ⟨earlier.proposals.subset proposed, proposalId⟩
  · exact ⟨earlier.sources.subset accepts.sourced.1, accepts.sourced.2, sourceId⟩
  · refine ⟨confirmable.binding, confirmable.window, ?_⟩
    intro other known
    rw [delivered, Option.some_inj] at known
    subst known
    exact confirmable.delivered delivery accepts.delivered
  · exact delivered
  · refine ⟨later.decisions.subset ?_, commits.matches⟩
    exact mem_append_right _ (by simp [Entry.decisions])
  · refine ⟨later.events.subset ?_, seq.symm, rfl, operation.symm, rfl⟩
    exact mem_append_right _ (by simp)
  · exact accepts.window
  · rw [binding, material]
    exact accepts.answered
  · rw [binding, material]
    exact accepts.actor
  · rw [material]
    exact ⟨accepts.action.2.2.1, accepts.action.2.2.2.1, accepts.action.2.2.2.2⟩
  · exact ⟨paid, digested⟩
  · intro one
    refine ⟨economic (starts one), ?_⟩
    rw [previous, starts one]
    rfl
  · refine ⟨by omega, values.symm, ?_⟩
    intro many
    rcases commits.record with absent | named
    · obtain ⟨writer, reading, _, content, row⟩ := origin.reached.review_repeats reviewed proposed proposalId
      have none : checked.recordId = none := by
        rw [row, content] at absent
        exact absent
      have zero : review.expectedVersion = 0 := by
        rw [row, content]
        simp [reviewRow, Service.reviewMaterial, none]
      omega
    · exact named

/-- A version is verified behind the versions before it. -/
theorem Ledger.Reachable.version_verified (member : fact ∈ ledger.facts)
    (held : source ∈ ledger.sources)
    (named : source.sourceId = fact.sourceId) (owns : verifier.Owns source) {tail : RecordTail}
    (version : fact.version = tail.version + 1) (previous : fact.predecessorSha256 = tail.previous)
    (economic : tail.economic = none ∨ tail.economic = some fact.economicEventId) :
    verifyVersion host verifier port.steady ledger fact.recordId tail fact =
      .ok ⟨fact.version, some fact.factSha256, some fact.economicEventId⟩ := by
  obtain ⟨decision, acceptedAt, review, proposal, origin, delivery, event, holds⟩ := reached.fact_held steady member
  have same : origin = source :=
    reached.inventory.sourceIds.injective holds.sourced.1 held (holds.sourced.2.2.symm.trans named.symm)
  subst same
  have bound : proposal.expected.sourceId = origin.sourceId := by
    obtain ⟨before, service, opId, written, proposes⟩ := reached.proposal_origin holds.proposed.1
    obtain ⟨_, _, _, requests⟩ := proposes.requests (steady service written.allowed)
    rw [requests.expected]
    exact holds.sourced.2.1.symm
  have reviewFound := reached.review?_eq holds.reviewed.1
  rw [holds.reviewed.2] at reviewFound
  obtain ⟨eventFound, decisionFound⟩ := holds.found reached.inventory
  rw [version] at decisionFound
  have verified := reached.review_verified steady holds.reviewed.1 holds.proposed.1 holds.proposed.2 held
    holds.sourced.2.1 owns holds.confirmable
  have sourceVerified := reached.source_verified steady held owns
  rw [← bound] at sourceVerified
  have digested := holds.sealed.2
  rw [version, previous] at digested
  have expected := holds.expected
  simp only [verifyVersion, bind_ok, expect_ok, require_ok, EvidencePort.steady_part, EvidencePort.steady_apply]
  refine ⟨fact.values, holds.sealed.1, (), ⟨version, previous, digested, economic⟩, event, eventFound, review,
    reviewFound, _, verified, origin, sourceVerified, (), ⟨?_, ?_⟩, delivery, holds.delivered, decision,
    decisionFound, (), ⟨?_, ?_, expected.2.1, ?_⟩, decision.material, ?_, (), ?_, ?_⟩
  · exact holds.sourced.2.2.trans bound.symm
  · intro one
    exact (holds.first (version.trans one)).1
  · rw [holds.decided.2.review, holds.reviewed.2]
  · rw [expected.1, version]
  · rw [← version]
    exact expected.2.2
  · exact holds.answered
  · refine ⟨rfl, holds.action.2.2, holds.decided.2.action.symm, ?_, holds.action.1, holds.action.2.1, holds.actor⟩
    rw [holds.decided.2.confirmed, holds.reviewed.2]
  · rw [holds.recorded.2.2.2.2]
    simp only [bind_ok, require_ok, pure_ok]
    refine ⟨(), holds.window, (), ⟨holds.recorded.2.2.1, holds.recorded.2.2.2.1, ?_⟩, ?_⟩
    · rw [Commitment.payload, holds.reviewed.2, version]
    · rw [version]

/-- The tail that the first versions of a record leave. -/
def tailOf (facts : List FactRow) : RecordTail :=
  ⟨facts.length, facts.getLast?.map FactRow.factSha256, facts.getLast?.map FactRow.economicEventId⟩

theorem Ledger.Reachable.versions_verified {recordId : String} (held : source ∈ ledger.sources)
    (owns : verifier.Owns source) (named : ∀ fact ∈ ledger.recordFacts recordId, fact.sourceId = source.sourceId)
    (front rest : List FactRow) (split : ledger.recordFacts recordId = front ++ rest) :
    verifyVersions host verifier port.steady ledger recordId (tailOf front) rest = .ok (tailOf (front ++ rest)) := by
  have counted {front rest : List FactRow} {fact : FactRow}
      (split : ledger.recordFacts recordId = front ++ fact :: rest) : fact.version = front.length + 1 := by
    have numbered := reached.inventory.linked.numbered recordId
    rw [split] at numbered
    have counted := congrArg (fun versions => versions[front.length]?) numbered
    simpa [Nat.add_comm] using counted
  induction rest generalizing front with
  | nil =>
    rw [append_nil]
    rfl
  | cons fact rest ih =>
    have inside : fact ∈ ledger.recordFacts recordId := by
      rw [split]
      simp
    obtain ⟨member, record⟩ := mem_recordFacts.mp inside
    have version := counted split
    have continued : fact.predecessorSha256 = (tailOf front).previous ∧
        ((tailOf front).economic = none ∨ (tailOf front).economic = some fact.economicEventId) := by
      rcases eq_nil_or_concat front with rfl | ⟨init, prior, rfl⟩
      · obtain ⟨_, _, _, _, _, _, _, holds⟩ := reached.fact_held steady member
        exact ⟨(holds.first version).2, .inl rfl⟩
      · have older : prior ∈ ledger.recordFacts recordId := by
          rw [split]
          simp
        obtain ⟨priorMember, priorRecord⟩ := mem_recordFacts.mp older
        have priorVersion := counted (by simpa using split)
        have same : prior.recordId = fact.recordId := priorRecord.trans record.symm
        have next : fact.version = prior.version + 1 := by simpa [priorVersion] using version
        have linked := reached.inventory.linked.predecessor prior priorMember fact member same next
        have shared := (reached.inventory.linked.economic prior priorMember fact member same).2
        exact ⟨by simpa [tailOf] using linked, .inr (by simpa [tailOf] using shared)⟩
    obtain ⟨previous, economic⟩ := continued
    have verified := reached.version_verified steady member held (named fact inside).symm owns version previous economic
    have next : (⟨fact.version, some fact.factSha256, some fact.economicEventId⟩ : RecordTail) =
        tailOf (front ++ [fact]) := by
      simp [tailOf, version]
    rw [record, next] at verified
    have later := ih (front ++ [fact]) (by simpa using split)
    simp only [verifyVersions, EvidencePort.steady_part, bind_ok]
    refine ⟨_, verified, ?_⟩
    simpa using later

end Records

theorem commit_eq_some {view : CommitView} (viewed : event.commit = some view) :
    event.payload = .confirm view.payload ∧ event.seq = view.seq ∧
      event.operationId = view.operationId ∧
      event.entityId = view.recordId := by
  unfold EventRow.commit at viewed
  split at viewed
  · next payload named =>
    rw [Option.some_inj] at viewed
    subst viewed
    exact ⟨named, rfl, rfl, rfl⟩
  · cases viewed

section Inventories

variable {commitments : List Commitment} (inventory : ledger.Inventory commitments)
include inventory

variable {commitment : Commitment}

namespace Ledger.Inventory

theorem version_positive (member : commitment ∈ commitments) : 1 ≤ commitment.fact.version := by
  have held : commitment.fact ∈ ledger.facts := by
    rw [inventory.facts]
    exact mem_map_of_mem member
  exact ((inventory.linked.numbered commitment.fact.recordId).bounds (mem_recordFacts.mpr ⟨held, rfl⟩)).1

/-- A confirm event has exactly its fact and its decision. -/
theorem exact_confirm {event : EventRow} (member : commitment ∈ commitments)
    (viewed : event.commit = some commitment.shown) :
    exactConfirmInventory ledger event = .ok (commitment.fact, commitment.decision) := by
  have held : commitment.fact ∈ ledger.facts := by
    rw [inventory.facts]
    exact mem_map_of_mem member
  have decided : commitment.decision ∈ ledger.decisions := by
    rw [inventory.decisions]
    exact mem_map_of_mem member
  have matching := inventory.matching commitment member
  obtain ⟨payload, seq, operation, entity⟩ := commit_eq_some viewed
  unfold exactConfirmInventory
  rw [payload]
  simp only [bind_ok, require_ok, expect_ok, pure_ok]
  refine ⟨(), inventory.version_positive member, commitment.fact, ?_, commitment.decision, ?_, (), ?_, rfl⟩
  · rw [seq]
    change onlyRow (ledger.facts.filter fun row => row.commitSeq = commitment.fact.commitSeq) = _
    rw [inventory.commitSeqs.filter_eq held, onlyRow]
  · rw [operation]
    change onlyRow (ledger.decisions.filter fun row => row.operationId = commitment.decision.operationId) = _
    rw [inventory.operations.filter_eq decided, onlyRow]
  · exact ⟨entity, rfl, rfl, rfl, matching.record, matching.version, matching.review, matching.action,
      matching.confirmed, rfl⟩

/-- The confirm events of a record show its commitments in their order. -/
theorem record_commits (recordId : String) :
    Forall₂ (fun event commitment => event.commit = some (Commitment.shown commitment))
      (ledger.eventsOf .confirm recordId)
      (commitments.filter fun commitment => commitment.fact.recordId = recordId) := by
  have lockstep := inventory.committed
  unfold Ledger.eventsOf
  generalize ledger.events = events at lockstep
  clear inventory
  induction events generalizing commitments with
  | nil =>
    rw [filterMap_nil, eq_comm, map_eq_nil_iff] at lockstep
    rw [lockstep]
    exact .nil
  | cons event rest ih =>
    cases viewed : event.commit with
    | none =>
      rw [filterMap_cons_none viewed] at lockstep
      have other : ¬ (event.kind = .confirm ∧ event.entityId = recordId) := by
        intro asked
        unfold EventRow.commit at viewed
        unfold EventRow.kind at asked
        cases payload : event.payload <;> simp_all [EventPayload.kind]
      rw [filter_cons_of_neg (by simpa using other)]
      exact ih lockstep
    | some view =>
      rw [filterMap_cons_some viewed] at lockstep
      cases commitments with
      | nil => cases lockstep
      | cons commitment others =>
        rw [map_cons, List.cons.injEq] at lockstep
        obtain ⟨rfl, lockstep⟩ := lockstep
        obtain ⟨payload, _, _, entity⟩ := commit_eq_some viewed
        have kind : event.kind = .confirm := by rw [EventRow.kind, payload, EventPayload.kind]
        have entity : event.entityId = commitment.fact.recordId := entity
        by_cases same : commitment.fact.recordId = recordId
        · rw [filter_cons_of_pos (by simp [kind, entity, same]), filter_cons_of_pos (by simpa using same)]
          exact .cons viewed (ih lockstep)
        · rw [filter_cons_of_neg (by simp [entity, same]), filter_cons_of_neg (by simpa using same)]
          exact ih lockstep

theorem recordFacts_eq (recordId : String) :
    ledger.recordFacts recordId =
      (commitments.filter fun commitment => commitment.fact.recordId = recordId).map Commitment.fact := by
  rw [Ledger.recordFacts, inventory.facts, filter_map]
  rfl

/-- The confirm events of a record count each of its versions once. -/
theorem counted {events : List EventRow} {counted : List Commitment} {seen : List ℕ}
    (shown : Forall₂ (fun event commitment => event.commit = some (Commitment.shown commitment)) events counted)
    (members : ∀ commitment ∈ counted, commitment ∈ commitments)
    (fresh : (seen.reverse ++ counted.map fun commitment => commitment.fact.version).Nodup) :
    events.foldlM (countCommit ledger) seen =
      .ok ((counted.map fun commitment => commitment.fact.version).reverse ++ seen) := by
  induction shown generalizing seen with
  | nil => rfl
  | @cons event commitment events counted viewed _ ih =>
    have exact_ := inventory.exact_confirm (members commitment (by simp)) viewed
    have new : commitment.fact.version ∉ seen := by
      intro old
      rw [nodup_append] at fresh
      exact fresh.2.2 _ (mem_reverse.mpr old) _ (by simp) rfl
    have step : countCommit ledger seen event = .ok (commitment.fact.version :: seen) := by
      simp only [countCommit, exact_, ok_bind, bind_ok, require_ok, pure_ok]
      exact ⟨(), new, trivial⟩
    rw [foldlM_cons, step, ok_bind]
    rw [ih (fun other inside => members other (by simp [inside])) (by simpa using fresh)]
    simp

/-- A decision has exactly its confirm event. -/
theorem decision_event {decision : DecisionRow} (member : decision ∈ ledger.decisions)
    {recordId : String} (record : decision.recordId = recordId) :
    requireDecisionEvent ledger recordId decision = .ok () := by
  rw [inventory.decisions, mem_map] at member
  obtain ⟨commitment, inside, rfl⟩ := member
  have keyed : Keyed (CommitView.operationId ∘ Commitment.shown) commitments := by
    have operations := inventory.operations
    rw [Keyed, inventory.decisions, map_map] at operations
    exact operations
  obtain ⟨event, only, viewed⟩ := only_entry inventory.committed keyed inside
  have asked : (ledger.events.filter fun row =>
      row.kind = .confirm ∧ row.operationId = commitment.decision.operationId) = [event] := by
    rw [← only]
    apply filter_congr
    intro other _
    unfold EventRow.commit EventRow.kind
    cases payload : other.payload <;> simp [EventPayload.kind, Commitment.shown]
  simp only [requireDecisionEvent, asked, onlyRow, bind_ok, expect_ok, require_ok]
  refine ⟨event, rfl, _, inventory.exact_confirm inside viewed, rfl, ?_⟩
  exact (inventory.matching commitment inside).record.symm.trans record

/-- The facts, decisions and confirm events of every record match. -/
theorem record_audited (recordId : String) : auditRecordInventory ledger recordId = .ok () := by
  have numbered := inventory.linked.numbered recordId
  have versions : (commitments.filter fun commitment => commitment.fact.recordId = recordId).map
      (fun commitment => commitment.fact.version) = (ledger.recordFacts recordId).map FactRow.version := by
    rw [inventory.recordFacts_eq, map_map]
    rfl
  have distinct : (([] : List ℕ).reverse ++ (commitments.filter fun commitment => commitment.fact.recordId = recordId).map
      fun commitment => commitment.fact.version).Nodup := by
    rw [versions]
    exact numbered.nodup
  have counted := inventory.counted (inventory.record_commits recordId)
    (fun commitment inside => (mem_filter.mp inside).1) distinct
  simp only [auditRecordInventory, counted, ok_bind, bind_ok, require_ok]
  refine ⟨(), ?_, ?_⟩
  · rw [append_nil, versions, toFinset_reverse]
  · change forM (ledger.decisions.filter fun row => row.recordId = recordId) (requireDecisionEvent ledger recordId) = _
    rw [forM_ok]
    intro decision member
    obtain ⟨inside, record⟩ := mem_filter.mp member
    exact inventory.decision_event inside (of_decide_eq_true record)

end Ledger.Inventory

end Inventories

/-- Every record is verified by every verifier of the actor of its source. -/
theorem Ledger.Reachable.record_verified (steady : ∀ service, admitted service → service.answers = port.steady)
    (reached : ledger.Reachable host world admitted) (held : source ∈ ledger.sources)
    (owns : verifier.Owns source) (named : ∀ fact ∈ ledger.recordFacts recordId, fact.sourceId = source.sourceId) :
    verifyRecord host verifier port.steady ledger recordId = .ok (ledger.recordFacts recordId).length := by
  have versions := reached.versions_verified steady held owns named [] (ledger.recordFacts recordId) rfl
  simp only [verifyRecord, reached.inventory.record_audited, ok_bind,
    (reached.inventory.linked.numbered recordId).sortOn_eq, bind_ok, pure_ok]
  exact ⟨_, versions, rfl⟩

end FinanceCore.LifecycleV2

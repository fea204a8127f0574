import FinanceCore.LifecycleV2.History

namespace FinanceCore.LifecycleV2

open Exceptions NumberedRows Operations Tables List

variable {host : Platform} {world : World} {admitted : Service → Prop} {service : Service} {ledger : Ledger}

/-- What an event of a kind says about its entity. -/
def EventRow.view (kind : EventKind) (event : EventRow) : Option (String × EventPayload) :=
  if event.kind = kind then some (event.entityId, event.payload) else none

/-- What the events of a kind must say about the rows of a ledger; commitments are counted on their own. -/
def Ledger.shown (ledger : Ledger) : EventKind → List (String × EventPayload)
  | .capture => ledger.sources.map fun row => (row.sourceId, .capture row.generation row.evidence)
  | .propose => ledger.proposals.map fun row => (row.proposalId, .propose row.material)
  | .review => ledger.reviews.map fun row => (row.reviewId, .review row.material)
  | .delivery => ledger.deliveries.map fun row => (row.reviewId, .delivery row.material)
  | .confirm => []

/-- One commitment: the fact, its decision and the moment of acceptance. -/
structure Commitment where
  fact : FactRow
  decision : DecisionRow
  acceptedAt : ℤ

namespace Commitment

def payload (commitment : Commitment) : ConfirmPayload :=
  ⟨commitment.fact.reviewId, commitment.decision.material, commitment.fact.factSha256, commitment.fact.version,
    commitment.acceptedAt⟩

/-- A decision repeats its fact and rests on the action that it names. -/
structure Matches (commitment : Commitment) : Prop where
  record : commitment.decision.recordId = commitment.fact.recordId
  version : commitment.decision.version = commitment.fact.version
  review : commitment.decision.reviewId = commitment.fact.reviewId
  action : commitment.decision.actionEvidenceId = commitment.decision.material.evidenceId
  confirmed : commitment.decision.material.reviewId = commitment.fact.reviewId

end Commitment

/-- What a confirm event says about its commitment. -/
structure CommitView where
  seq : ℕ
  (operationId recordId : String)
  payload : ConfirmPayload

def EventRow.commit (event : EventRow) : Option CommitView :=
  match event.payload with
  | .confirm payload => some ⟨event.seq, event.operationId, event.entityId, payload⟩
  | _ => none

def Commitment.shown (commitment : Commitment) : CommitView :=
  ⟨commitment.fact.commitSeq, commitment.decision.operationId, commitment.fact.recordId, commitment.payload⟩

def Entry.commitments : Entry → List Commitment
  | .committed fact decision acceptedAt => [⟨fact, decision, acceptedAt⟩]
  | _ => []

/-- Tables and events in lockstep, with unique identities and counted versions. -/
structure Ledger.Inventory (ledger : Ledger) (commitments : List Commitment) : Prop where
  owned : ∀ kind ≠ .confirm, ledger.events.filterMap (EventRow.view kind) = ledger.shown kind
  committed : ledger.events.filterMap EventRow.commit = commitments.map Commitment.shown
  facts : ledger.facts = commitments.map Commitment.fact
  decisions : ledger.decisions = commitments.map Commitment.decision
  matching : ∀ commitment ∈ commitments, commitment.Matches
  sourceIds : Keyed SourceRow.sourceId ledger.sources
  proposalIds : Keyed ProposalRow.proposalId ledger.proposals
  reviewIds : Keyed ReviewRow.reviewId ledger.reviews
  deliveryIds : Keyed DeliveryRow.reviewId ledger.deliveries
  operations : Keyed DecisionRow.operationId ledger.decisions
  decided : Keyed (fun row => (row.recordId, row.version)) ledger.decisions
  commitSeqs : Keyed FactRow.commitSeq ledger.facts
  numbered : Numbered EventRow.seq ledger.events
  proposalVersions : ∀ sourceId, Numbered ProposalRow.version (ledger.proposals.filter fun row => row.sourceId = sourceId)
  linked : ledger.Linked

theorem inventory_empty : Ledger.empty.Inventory [] where
  owned := by
    intro kind _
    cases kind <;> rfl
  committed := rfl
  facts := rfl
  decisions := rfl
  matching := fun _ member => nomatch member
  sourceIds := keyed_nil _
  proposalIds := keyed_nil _
  reviewIds := keyed_nil _
  deliveryIds := keyed_nil _
  operations := keyed_nil _
  decided := keyed_nil _
  commitSeqs := keyed_nil _
  numbered := numbered_nil _
  proposalVersions := fun _ => numbered_nil _
  linked := linked_empty

/-- The number of the next event continues the count. -/
theorem eventFor_seq (numbered : Numbered EventRow.seq ledger.events) (opId : String)
    (entry : Entry) :
    (ledger.eventFor host opId entry).seq = ledger.events.length + 1 := by
  change ((ledger.events.argmax EventRow.seq).map EventRow.seq).getD 0 + 1 = _
  rw [numbered.newest]

section Lockstep

variable (ledger : Ledger) (opId : String) (entry : Entry)

theorem shown_record {kind : EventKind} (owned : kind ≠ .confirm) :
    (ledger.record host opId entry).shown kind =
      ledger.shown kind ++ ([ledger.eventFor host opId entry].filterMap (EventRow.view kind)) := by
  cases kind <;> cases entry <;>
    simp_all [Ledger.shown, Ledger.record, Entry.sources, Entry.proposals, Entry.reviews, Entry.deliveries,
      EventRow.view, EventRow.kind, Ledger.eventFor, nextEvent, Entry.payload, Entry.entityId, EventPayload.kind]

theorem commits_record (records : service.Records host world ledger opId entry) :
    [ledger.eventFor host opId entry].filterMap EventRow.commit = entry.commitments.map Commitment.shown := by
  cases records with
  | committed commits operation seq =>
    rw [Entry.commitments, map_singleton, Commitment.shown, seq, operation]
    rfl
  | _ => rfl

theorem facts_commitments : entry.facts = entry.commitments.map Commitment.fact := by
  cases entry <;> rfl

theorem decisions_commitments : entry.decisions = entry.commitments.map Commitment.decision := by
  cases entry <;> rfl

end Lockstep

variable {review : ReviewRow} {acceptedAt : ℤ} {accepted : Accepted}

/-- An accepted action names its evidence and its review. -/
theorem accept_action {actionId : String}
    (done : service.accept host ledger review actionId acceptedAt = .ok accepted) :
    accepted.action.evidenceId = actionId ∧ accepted.action.reviewId = review.reviewId := by
  simp only [Service.accept, bind_ok, require_ok, expect_ok, pure_ok] at done
  obtain ⟨_, _, _, _, source, _, _, _, _, _, action, _, _, _, _, named, rfl⟩ := done
  exact ⟨named.1, named.2.1⟩

theorem Service.Commits.matches {fact : FactRow} {decision : DecisionRow}
    (commits : service.Commits host ledger review accepted acceptedAt fact decision) :
    (⟨fact, decision, acceptedAt⟩ : Commitment).Matches := by
  obtain ⟨evidence, reviewed⟩ := accept_action commits.accepts
  have named := (find?_key commits.found).2
  have decided := commits.decided
  constructor
  · rw [decided]
  · rw [decided]
  · rw [decided]
  · rw [decided]
    exact evidence.symm
  · rw [decided]
    exact reviewed.trans named

section Preservation

variable {opId : String} {entry : Entry}

theorem proposalVersions_record
    (numbered : ∀ sourceId, Numbered ProposalRow.version (ledger.proposals.filter fun row => row.sourceId = sourceId))
    (records : service.Records host world ledger opId entry) (sourceId : String) :
    Numbered ProposalRow.version
      ((ledger.record host opId entry).proposals.filter fun row => row.sourceId = sourceId) := by
  change Numbered _ ((ledger.proposals ++ entry.proposals).filter _)
  rw [filter_append]
  cases records with
  | @proposed row proposes =>
    by_cases same : row.sourceId = sourceId
    · rw [Entry.proposals, filter_cons_of_pos (by simpa using same)]
      subst same
      apply (numbered row.sourceId).concat
      rw [proposes.version, Ledger.nextProposalVersion, Ledger.latestProposal?, (numbered row.sourceId).newest]
    · rw [Entry.proposals, filter_cons_of_neg (by simpa using same), filter_nil, append_nil]
      exact numbered sourceId
  | _ => simpa [Entry.proposals] using numbered sourceId

theorem linked_record (linked : ledger.Linked) (records : service.Records host world ledger opId entry) :
    (ledger.record host opId entry).Linked := by
  cases records with
  | committed commits _ _ => exact linked.committed commits
  | _ => exact linked.of_facts (append_nil _)

/-- Every audited change keeps the inventory. -/
theorem Ledger.Inventory.record {commitments : List Commitment}
    (inventory : ledger.Inventory commitments)
    (records : service.Records host world ledger opId entry) :
    (ledger.record host opId entry).Inventory (commitments ++ entry.commitments) where
  owned := by
    intro kind owned
    rw [shown_record ledger opId entry owned, ← inventory.owned kind owned]
    exact filterMap_append
  committed := by
    rw [map_append, ← inventory.committed, ← commits_record ledger opId entry records]
    exact filterMap_append
  facts := by
    rw [map_append, ← inventory.facts, ← facts_commitments]
    rfl
  decisions := by
    rw [map_append, ← inventory.decisions, ← decisions_commitments]
    rfl
  matching := by
    intro commitment member
    rw [mem_append] at member
    rcases member with old | new
    · exact inventory.matching commitment old
    · cases records with
      | committed commits _ _ =>
        rw [Entry.commitments, mem_singleton] at new
        rw [new]
        exact commits.matches
      | _ => cases new
  sourceIds := by
    cases records with
    | captured captures => exact inventory.sourceIds.concat fun other member => (captures.fresh other member).1
    | _ => simpa [Ledger.record] using inventory.sourceIds
  proposalIds := by
    cases records with
    | proposed proposes => exact inventory.proposalIds.concat fun other member => (proposes.fresh other member).1
    | _ => simpa [Ledger.record] using inventory.proposalIds
  reviewIds := by
    cases records with
    | reviewed reviews => exact inventory.reviewIds.concat fun other member => (reviews.fresh other member).1
    | _ => simpa [Ledger.record] using inventory.reviewIds
  deliveryIds := by
    cases records with
    | delivered delivers => exact inventory.deliveryIds.concat fun other member => (delivers.fresh other member).1
    | _ => simpa [Ledger.record] using inventory.deliveryIds
  operations := by
    cases records with
    | committed commits _ _ =>
      exact inventory.operations.concat fun other member => (commits.freshDecision other member).2.2.1
    | _ => simpa [Ledger.record] using inventory.operations
  decided := by
    cases records with
    | committed commits _ _ =>
      apply inventory.decided.concat
      intro other member same
      exact (commits.freshDecision other member).2.2.2 (Prod.ext_iff.mp same)
    | _ => simpa [Ledger.record] using inventory.decided
  commitSeqs := by
    cases records with
    | committed commits _ _ =>
      exact inventory.commitSeqs.concat fun other member => (commits.freshFact other member).2.2.2.1
    | _ => simpa [Ledger.record] using inventory.commitSeqs
  numbered := inventory.numbered.concat (eventFor_seq inventory.numbered opId entry)
  proposalVersions := proposalVersions_record inventory.proposalVersions records
  linked := linked_record inventory.linked records

end Preservation

/-- Every reachable ledger has its inventory. -/
theorem Ledger.Reachable.exists_inventory (reached : ledger.Reachable host world admitted) :
    ∃ commitments, ledger.Inventory commitments := by
  induction reached with
  | refl => exact ⟨[], inventory_empty⟩
  | step _ _ _ records ih =>
    obtain ⟨commitments, inventory⟩ := ih
    exact ⟨_, inventory.record records⟩

theorem Ledger.Reachable.inventory (reached : ledger.Reachable host world admitted) :
    ledger.Inventory reached.exists_inventory.choose := reached.exists_inventory.choose_spec

end FinanceCore.LifecycleV2

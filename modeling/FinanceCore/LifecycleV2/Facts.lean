import FinanceCore.Foundation.Numbering
import FinanceCore.LifecycleV2.Steps

namespace FinanceCore.LifecycleV2

open Exceptions NumberedRows Operations Tables List

variable {host : Platform} {world : World} {service : Service} {ledger : Ledger}

/-- The facts of a ledger: numbered and linked versions, one source and one economic event for each record, and one
record for each source. -/
structure Ledger.Linked (ledger : Ledger) : Prop where
  numbered : ∀ recordId, Numbered FactRow.version (ledger.recordFacts recordId)
  predecessor : ∀ first ∈ ledger.facts, ∀ second ∈ ledger.facts, first.recordId = second.recordId →
    second.version = first.version + 1 → second.predecessorSha256 = some first.factSha256
  economic : ∀ first ∈ ledger.facts, ∀ second ∈ ledger.facts, first.recordId = second.recordId →
    first.sourceId = second.sourceId ∧ first.economicEventId = second.economicEventId
  source : ∀ first ∈ ledger.facts, ∀ second ∈ ledger.facts, first.sourceId = second.sourceId →
    first.recordId = second.recordId

variable {recordId : String}

theorem mem_recordFacts {fact : FactRow} :
    fact ∈ ledger.recordFacts recordId ↔ fact ∈ ledger.facts ∧ fact.recordId = recordId := by
  rw [Ledger.recordFacts, mem_filter, decide_eq_true_iff]

/-- What a new fact takes from the ledger. -/
theorem nextFact_fields {review : ReviewRow} {source : SourceRow} {build : ℕ → FactRow}
    (built : nextFact host ledger review source recordId = .ok build) (seq : ℕ) :
    (build seq).version = ledger.factVersion recordId + 1 ∧ (build seq).sourceId = source.sourceId ∧
      (build seq).values = review.values ∧ ((ledger.factVersion recordId : ℕ) : ℤ) = review.expectedVersion ∧
      (ledger.latestFact? recordId = none → ∀ fact ∈ ledger.facts, fact.sourceId ≠ source.sourceId) := by
  simp only [nextFact, bind_ok, require_ok, pure_ok] at built
  obtain ⟨-, version, -, unposted, values, checked, rfl⟩ := built
  exact ⟨rfl, rfl, money_eq_ok checked, version, unposted⟩

section Linked

variable (linked : ledger.Linked)
include linked

theorem Ledger.Linked.factVersion (recordId : String) :
    ledger.factVersion recordId = (ledger.recordFacts recordId).length := (linked.numbered recordId).newest

theorem Ledger.Linked.unique {first second : FactRow} (member : first ∈ ledger.facts)
    (other : second ∈ ledger.facts)
    (record : first.recordId = second.recordId) (version : first.version = second.version) : first = second :=
  (linked.numbered second.recordId).injective (mem_recordFacts.mpr ⟨member, record⟩) (mem_recordFacts.mpr ⟨other, rfl⟩)
    version

/-- A confirmation keeps the facts linked. -/
theorem Ledger.Linked.committed {opId : String} {review : ReviewRow} {accepted : Accepted}
    {acceptedAt : ℤ} {fact : FactRow} {decision : DecisionRow}
    (commits : service.Commits host ledger review accepted acceptedAt fact decision) :
    (ledger.record host opId (.committed fact decision acceptedAt)).Linked := by
  obtain ⟨build, built, isFact⟩ := commits.next
  have fields := nextFact_fields built fact.commitSeq
  rw [isFact, linked.factVersion] at fields
  obtain ⟨version, source, -, -, unposted⟩ := fields
  have older : ∀ other ∈ ledger.facts, other.recordId = fact.recordId →
      other.version < fact.version ∧ 1 < fact.version := by
    intro other member record
    have bounds := (linked.numbered fact.recordId).bounds (mem_recordFacts.mpr ⟨member, record⟩)
    omega
  have economic : ∀ other ∈ ledger.facts, other.recordId = fact.recordId →
      other.sourceId = fact.sourceId ∧ other.economicEventId = fact.economicEventId := by
    intro other member record
    obtain ⟨prior, inside, same, -, -, event, origin⟩ := commits.continued (older other member record).2
    have shared := linked.economic other member prior inside (record.trans same.symm)
    exact ⟨shared.1.trans origin, shared.2.trans event⟩
  have owner : ∀ other ∈ ledger.facts, other.sourceId = fact.sourceId → other.recordId = fact.recordId := by
    intro other member same
    cases latest : ledger.latestFact? fact.recordId with
    | none => exact absurd (same.trans source) (unposted latest other member)
    | some newest =>
      obtain ⟨inside, record⟩ := mem_recordFacts.mp (argmax_mem latest)
      obtain ⟨prior, priorInside, priorRecord, -, -, -, origin⟩ := commits.continued (older newest inside record).2
      exact (linked.source other member prior priorInside (same.trans origin.symm)).trans priorRecord
  have pairs {holds : FactRow → FactRow → Prop} (old : ∀ first ∈ ledger.facts, ∀ second ∈ ledger.facts, holds first second)
      (new : ∀ other ∈ ledger.facts, holds other fact ∧ holds fact other) (self : holds fact fact) :
      ∀ first ∈ (ledger.record host opId (.committed fact decision acceptedAt)).facts,
        ∀ second ∈ (ledger.record host opId (.committed fact decision acceptedAt)).facts, holds first second := by
    simp only [Ledger.record, Entry.facts, forall_mem_append, forall_mem_singleton]
    exact ⟨fun first member => ⟨old first member, (new first member).1⟩, fun other member => (new other member).2, self⟩
  constructor
  · intro recordId
    rw [Ledger.recordFacts, Ledger.record, filter_append, Entry.facts]
    by_cases same : fact.recordId = recordId
    · rw [filter_cons_of_pos (by simpa using same)]
      subst same
      exact (linked.numbered fact.recordId).concat version
    · rw [filter_cons_of_neg (by simpa using same), filter_nil, append_nil]
      exact linked.numbered recordId
  · refine pairs linked.predecessor (fun other old => ⟨fun record next => ?_, fun record next => ?_⟩) fun _ next => ?_
    · obtain ⟨prior, inside, same, number, hash, -, -⟩ := commits.continued (older other old record).2
      have identical := linked.unique old inside (record.trans same.symm) (by omega)
      rw [identical]
      exact hash.symm
    · have before := older other old record.symm
      omega
    · omega
  · refine pairs linked.economic (fun other old => ⟨economic other old, fun record => ?_⟩) fun _ => ⟨rfl, rfl⟩
    exact (economic other old record.symm).imp Eq.symm Eq.symm
  · exact pairs linked.source (fun other old => ⟨owner other old, fun same => (owner other old same.symm).symm⟩) fun _ => rfl

end Linked

theorem linked_empty : Ledger.empty.Linked where
  numbered := fun _ => numbered_nil _
  predecessor := fun _ member => nomatch member
  economic := fun _ member => nomatch member
  source := fun _ member => nomatch member

/-- Only the facts matter for their links. -/
theorem Ledger.Linked.of_facts {other : Ledger} (linked : ledger.Linked)
    (same : other.facts = ledger.facts) :
    other.Linked := by
  refine ⟨fun recordId => ?_, same ▸ linked.predecessor, same ▸ linked.economic, same ▸ linked.source⟩
  rw [Ledger.recordFacts, same]
  exact linked.numbered recordId

theorem perform_linked {request : Request} {outcome : Outcome} {session after : Session Ledger}
    (done : perform host world request session = .ok outcome after)
    (linked : session.store.Linked) :
    after.store.Linked := by
  rcases perform_cases done with quiet | ⟨_, _, _, _, _, _, _, -, confirms, grown, -⟩
  · exact linked.of_facts quiet.facts
  · rw [grown]
    exact linked.committed confirms.commits

/-- The facts are linked after every run. -/
theorem afterRequests_linked (host : Platform) (world : World) (requests : List Request) :
    (afterRequests host world requests).store.Linked :=
  run_keeps (fun _ _ _ _ => perform_raises) opening requests linked_empty
    fun _ _ _ _ _ done linked => perform_linked done linked

/-- The session before the request at a position of a run. -/
def sessionAt (platform : Platform) (world : World) (requests : List Request)
    (position : ℕ) : Session Ledger :=
  afterRequests platform world (requests.take position)

/-- A review that a confirmation may turn into a fact: delivered, within its window, with the values of the fact and
the newest proposal of the source. -/
structure Approved (world : World) (before : Session Ledger) (review : ReviewRow)
    (proposal : ProposalRow) (delivery : DeliveryRow) (fact : FactRow) : Prop where
  reviewed : review ∈ before.store.reviews ∧ review.reviewId = fact.reviewId
  unexpired : review.material.createdAt ≤ world.clock before.readings ∧
    world.clock before.readings < review.material.expiresAt
  delivered : delivery ∈ before.store.deliveries ∧ delivery.reviewId = fact.reviewId
  values : review.values = fact.values
  proposed : proposal ∈ before.store.proposals ∧ proposal.proposalId = review.proposalId ∧
    proposal.sourceId = fact.sourceId
  newest : ∀ other ∈ before.store.proposals, other.sourceId = proposal.sourceId → other.version ≤ proposal.version

/-- The request at a position is a confirmation that writes a fact. -/
def WrittenAt (platform : Platform) (world : World) (requests : List Request) (position : ℕ)
    (fact : FactRow) : Prop :=
  let before := sessionAt platform world requests position
  (∃ service actionEvidenceId operationId,
    requests[position]? = some ⟨service, .confirm fact.reviewId actionEvidenceId operationId⟩) ∧
  fact ∉ before.store.facts ∧
  (sessionAt platform world requests (position + 1)).store.facts = before.store.facts ++ [fact] ∧
  ∃ review proposal delivery, Approved world before review proposal delivery fact

/-- The evidence of a source belongs to the actor of a verifier. -/
def Verifier.Owns (verifier : Verifier) (row : SourceRow) : Prop :=
  row.principalId = verifier.binding.principalId ∧ row.clientId = verifier.binding.clientId

/-- A verified source is the row with its identity, and it belongs to the actor of its verifier. -/
theorem source_row {verifier : Verifier} {answers : EvidenceAnswers} {sourceId : String}
    {allowArchived : Bool} {row : SourceRow}
    (done : verifier.source host answers ledger sourceId allowArchived = .ok row) :
    row ∈ ledger.sources ∧ row.sourceId = sourceId ∧ verifier.Owns row := by
  simp only [Verifier.source, bind_ok, expect_ok, require_ok, Verifier.actor] at done
  obtain ⟨found, known, -, -, evidence, -, -, actor, -, checked, capture, -, generation, -, returned⟩ := done
  have same : found = row := by
    cases allowArchived with
    | true => simpa using returned
    | false =>
      simp only [Bool.false_eq_true, if_false, bind_ok, pure_ok] at returned
      obtain ⟨-, -, same⟩ := returned
      exact same
  rw [← same]
  have keyed := find?_key known
  exact ⟨keyed.1, keyed.2, checked.2.2.2.1.trans actor.1, checked.2.2.2.2.1.trans actor.2⟩

theorem Service.Commits.approved {session : Session Ledger} {review : ReviewRow}
    {accepted : Accepted} {fact : FactRow} {decision : DecisionRow}
    (commits : service.Commits host session.store review accepted (world.clock session.readings) fact decision) :
    ∃ proposal delivery, Approved world session review proposal delivery fact := by
  have accepts := commits.accepts
  simp only [Service.accept, bind_ok, require_ok, expect_ok, pure_ok] at accepts
  obtain ⟨-, ⟨-, -, opened, unexpired⟩, proposal, proposed, source, sourced, -, newest, delivery, delivered, action, -,
    -, -, -, -, rfl⟩ := accepts
  obtain ⟨build, built, isFact⟩ := commits.next
  have fields := nextFact_fields built fact.commitSeq
  rw [isFact] at fields
  obtain ⟨-, origin, values, -, -⟩ := fields
  obtain ⟨-, sameSource, -⟩ := source_row sourced
  have reviewed := find?_key commits.found
  have shown := find?_key delivered
  have known := find?_key proposed
  refine ⟨proposal, delivery, reviewed, ⟨opened, unexpired⟩, ⟨shown.1, shown.2.trans reviewed.2⟩, values.symm,
    ⟨known.1, known.2, sameSource.symm.trans origin.symm⟩, ?_⟩
  intro other member same
  rw [sameSource] at newest
  obtain ⟨latest, found, version⟩ := Option.map_eq_some_iff.mp newest
  rw [← version]
  exact le_of_mem_argmax (mem_filter.mpr ⟨member, by simpa using same⟩) found

section Positions

variable (host world)

theorem sessionAt_succ {requests : List Request} {position : ℕ} {request : Request}
    (at_ : requests[position]? = some request) :
    sessionAt host world requests (position + 1) =
      next (perform host world) (sessionAt host world requests position) request := by
  rw [sessionAt, take_add_one, at_, Option.toList_some, afterRequests, run_concat]
  rfl

variable (requests : List Request) {fact : FactRow}

/-- A request adds no fact, or it is a confirmation that writes one. -/
theorem facts_succ (position : ℕ) :
    (sessionAt host world requests (position + 1)).store.facts =
        (sessionAt host world requests position).store.facts ∨
      ∃ fact, WrittenAt host world requests position fact := by
  cases at_ : requests[position]? with
  | none =>
    left
    rw [sessionAt, take_add_one, at_, Option.toList_none, append_nil]
    rfl
  | some request =>
    rw [sessionAt_succ host world at_]
    rcases next_cases (fun _ _ _ _ => perform_raises) (sessionAt host world requests position) request with
      same | ⟨outcome, done⟩
    · left
      rw [same]
    · rcases perform_cases done with quiet | ⟨reviewId, actionEvidenceId, opId, review, accepted, fact,
          decision, call, confirms, grown, -⟩
      · exact .inl quiet.facts
      · right
        refine ⟨fact, ⟨request.service, actionEvidenceId, opId, ?_⟩, ?_, ?_, review, confirms.commits.approved⟩
        · rw [at_, confirms.review, ← call]
        · intro member
          exact (confirms.commits.freshFact fact member).1 ⟨rfl, rfl⟩
        · rw [sessionAt_succ host world at_, grown, Ledger.record, Entry.facts]

/-- The facts only grow along a run. -/
theorem facts_stay {earlier later : ℕ} (before : earlier ≤ later) :
    (sessionAt host world requests earlier).store.facts <+: (sessionAt host world requests later).store.facts := by
  induction later, before using Nat.le_induction with
  | base => exact prefix_rfl
  | succ later _ ih =>
    apply ih.trans
    rcases facts_succ host world requests later with same | ⟨fact, written⟩
    · rw [same]
    · rw [written.2.2.1]
      exact prefix_append _ _

/-- Every fact was written at some position. -/
theorem exists_writtenAt (position : ℕ) (member : fact ∈ (sessionAt host world requests position).store.facts) :
    ∃ earlier, WrittenAt host world requests earlier fact := by
  induction position with
  | zero => exact nomatch member
  | succ position ih =>
    rcases facts_succ host world requests position with same | ⟨written, found⟩
    · rw [same] at member
      exact ih member
    · rw [found.2.2.1, mem_append, mem_singleton] at member
      rcases member with old | rfl
      · exact ih old
      · exact ⟨position, found⟩

/-- A fact is written only once. -/
theorem writtenAt_unique {first second : ℕ} (one : WrittenAt host world requests first fact)
    (other : WrittenAt host world requests second fact) : first = second := by
  have written : ∀ {earlier later}, WrittenAt host world requests earlier fact →
      WrittenAt host world requests later fact → ¬ earlier < later := by
    intro earlier later early late before
    apply late.2.1
    apply (facts_stay host world requests (Nat.succ_le_of_lt before)).subset
    rw [early.2.2.1]
    simp
  have notBefore := written one other
  have notAfter := written other one
  omega

end Positions

/-- Over every run the facts stay linked, every version was written by exactly one confirmation of an open, delivered
review of the newest proposal, and no fact ever changes. -/
theorem facts_of_runs (platform : Platform) (world : World) (requests : List Request) :
    let facts := (afterRequests platform world requests).store.facts
    (∀ recordId, (facts.filter fun fact => fact.recordId = recordId).map FactRow.version =
      List.range' 1 (facts.filter fun fact => fact.recordId = recordId).length) ∧
    (∀ first ∈ facts, ∀ second ∈ facts, first.recordId = second.recordId → second.version = first.version + 1 →
      second.predecessorSha256 = some first.factSha256) ∧
    (∀ first ∈ facts, ∀ second ∈ facts, first.recordId = second.recordId →
      first.sourceId = second.sourceId ∧ first.economicEventId = second.economicEventId) ∧
    (∀ first ∈ facts, ∀ second ∈ facts, first.sourceId = second.sourceId → first.recordId = second.recordId) ∧
    (∀ fact ∈ facts, ∃! position, WrittenAt platform world requests position fact) ∧
    (∀ earlier later, requests = earlier ++ later →
      (afterRequests platform world earlier).store.facts <+: facts) := by
  have linked := afterRequests_linked platform world requests
  have final : sessionAt platform world requests requests.length = afterRequests platform world requests := by
    rw [sessionAt, List.take_length]
  refine ⟨linked.numbered, linked.predecessor, linked.economic, linked.source, ?_, ?_⟩
  · intro fact member
    rw [← final] at member
    obtain ⟨position, written⟩ := exists_writtenAt platform world requests requests.length member
    exact ⟨position, written, fun other found => writtenAt_unique platform world requests found written⟩
  · rintro earlier later rfl
    have within : earlier.length ≤ (earlier ++ later).length := by simp
    have grown := facts_stay platform world (earlier ++ later) within
    rw [final, sessionAt, List.take_left] at grown
    exact grown

end FinanceCore.LifecycleV2

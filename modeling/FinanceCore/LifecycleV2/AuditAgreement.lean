import FinanceCore.LifecycleV2.Audit
import FinanceCore.LifecycleV2.ExactlyOnce

namespace FinanceCore.LifecycleV2

open Exceptions NumberedRows Operations Sorting Tables List

variable {host : Platform} {world : World} {admitted : Service → Prop} {ledger : Ledger} {port : EvidencePort}

/-- An event behind numbered events is the newest one. -/
theorem argmax_eventFor (numbered : Numbered EventRow.seq ledger.events) (opId : String)
    (entry : Entry) :
    (ledger.events ++ [ledger.eventFor host opId entry]).argmax EventRow.seq =
      some (ledger.eventFor host opId entry) := by
  have next : (ledger.eventFor host opId entry).seq = ledger.events.length + 1 :=
    eventFor_seq numbered opId entry
  rw [argmax_concat]
  cases latest : ledger.events.argmax EventRow.seq with
  | none => rfl
  | some newest =>
    have bounds := numbered.bounds (argmax_mem latest)
    have before : newest.seq < (ledger.eventFor host opId entry).seq := by omega
    exact if_pos before

/-- The events of every run form one chain. -/
theorem Ledger.Reachable.chained (reached : ledger.Reachable host world admitted) :
    ledger.events.foldlM (auditEvent host) ⟨1, none⟩ =
      .ok ⟨ledger.events.length + 1, (ledger.events.argmax EventRow.seq).map EventRow.eventSha256⟩ := by
  induction reached with
  | refl => rfl
  | @step middle service opId entry before allowed opens records ih =>
    have reached : middle.Reachable host world admitted := before
    have next : (middle.eventFor host opId entry).seq = middle.events.length + 1 :=
      eventFor_seq reached.inventory.numbered opId entry
    have step : auditEvent host
        ⟨middle.events.length + 1, (middle.events.argmax EventRow.seq).map EventRow.eventSha256⟩
        (middle.eventFor host opId entry) =
          .ok ⟨middle.events.length + 2, some (middle.eventFor host opId entry).eventSha256⟩ := by
      simp only [auditEvent, bind_ok, require_ok, pure_ok]
      exact ⟨(), ⟨next, rfl, rfl⟩, trivial⟩
    rw [Ledger.record, foldlM_append, ih, ok_bind, foldlM_cons, step,
      argmax_eventFor reached.inventory.numbered, length_append]
    rfl

section Owned

variable (reached : ledger.Reachable host world admitted)
include reached

theorem Ledger.Reachable.native {row : SourceRow} (member : row ∈ ledger.sources) : ¬ isLegacyKey row.sourceKey := by
  obtain ⟨before, service, opId, origin, captures⟩ := reached.source_origin member
  exact captures.native

/-- Every event has the row that it is about. -/
theorem Ledger.Reachable.owned_row {event : EventRow} (member : event ∈ ledger.events) :
    requireOwnedRow host ledger event = .ok () := by
  have shown : event.kind ≠ .confirm → (event.entityId, event.payload) ∈ ledger.shown event.kind := by
    intro owned
    rw [← reached.inventory.owned _ owned, mem_filterMap]
    exact ⟨event, member, if_pos rfl⟩
  unfold requireOwnedRow
  cases payload : event.payload <;> rw [EventRow.kind, payload] at shown
  case historicalCapture source =>
    obtain ⟨row, _, same⟩ := mem_map.mp (shown (by rintro ⟨⟩))
    exact EventPayload.noConfusion (Prod.mk.inj same).2
  case capture generation source =>
    obtain ⟨row, inside, same⟩ := mem_map.mp (shown (by rintro ⟨⟩))
    rw [Prod.mk.injEq] at same
    obtain ⟨entity, rfl, rfl⟩ := same
    obtain ⟨before, service, opId, origin, captures⟩ := reached.source_origin inside
    have named := service.binding.admitted service.binding.generation (by simp)
    have long : 1 ≤ service.binding.generation.length := by
      rw [Nat.one_le_iff_ne_zero]
      simpa [String.length_eq_zero_iff] using named.1
    rw [← captures.generation] at named long
    rw [← entity]
    simp only [captureGeneration, bind_ok, expect_ok, require_ok, pure_ok]
    exact ⟨row, reached.source?_eq inside, (), captures.native, _, ⟨(), captures.sealed, (),
      ⟨long, named.2, rfl, rfl⟩, rfl⟩, trivial⟩
  case propose material =>
    obtain ⟨row, inside, same⟩ := mem_map.mp (shown (by rintro ⟨⟩))
    rw [Prod.mk.injEq, EventPayload.propose.injEq] at same
    obtain ⟨entity, rfl⟩ := same
    obtain ⟨before, service, opId, origin, proposes⟩ := reached.proposal_origin inside
    rw [← entity]
    simp only [bind_ok, expect_ok, require_ok]
    exact ⟨row, reached.proposal?_eq inside, rfl, proposes.sealed.symm⟩
  case review material =>
    obtain ⟨row, inside, same⟩ := mem_map.mp (shown (by rintro ⟨⟩))
    rw [Prod.mk.injEq, EventPayload.review.injEq] at same
    obtain ⟨entity, rfl⟩ := same
    rw [← entity]
    simp only [bind_ok, expect_ok, require_ok]
    exact ⟨row, reached.review?_eq inside, rfl⟩
  case delivery material =>
    obtain ⟨row, inside, same⟩ := mem_map.mp (shown (by rintro ⟨⟩))
    rw [Prod.mk.injEq, EventPayload.delivery.injEq] at same
    obtain ⟨entity, rfl⟩ := same
    obtain ⟨before, service, opId, review, origin, delivers⟩ := reached.delivery_origin inside
    rw [← entity]
    simp only [bind_ok, expect_ok, require_ok]
    exact ⟨row, reached.delivery?_eq inside, rfl, delivers.display.1, delivers.evidence⟩
  case confirm content =>
    have viewed : event.commit = some ⟨event.seq, event.operationId, event.entityId, content⟩ := by
      rw [EventRow.commit, payload]
    have listed : (⟨event.seq, event.operationId, event.entityId, content⟩ : CommitView) ∈
        reached.exists_inventory.choose.map Commitment.shown := by
      rw [← reached.inventory.committed, mem_filterMap]
      exact ⟨event, member, viewed⟩
    obtain ⟨commitment, inside, same⟩ := mem_map.mp listed
    rw [← same] at viewed
    simp only [bind_ok]
    exact ⟨_, reached.inventory.exact_confirm inside viewed, rfl⟩

end Owned

/-- The entities that the events of a list name, commitments apart. -/
def ownedEntities (events : List EventRow) : List (EventKind × String) :=
  (events.filter fun event => event.kind ≠ .confirm).map EventRow.owned

/-- Events about existing rows and different entities are counted one by one. -/
theorem counted_owned {events : List EventRow} {seen : List (EventKind × String)}
    (rows : ∀ event ∈ events, requireOwnedRow host ledger event = .ok ())
    (fresh : (seen.reverse ++ ownedEntities events).Nodup) :
    events.foldlM (countOwned host ledger) seen = .ok ((ownedEntities events).reverse ++ seen) := by
  induction events generalizing seen with
  | nil => rfl
  | cons event rest ih =>
    have row := rows event (by simp)
    have later := fun other inside => rows other (mem_cons_of_mem event inside)
    by_cases confirmed : event.kind = .confirm
    · have same : ownedEntities (event :: rest) = ownedEntities rest := by
        rw [ownedEntities, filter_cons_of_neg (by simpa using confirmed)]
        rfl
      have step : countOwned host ledger seen event = .ok seen := by
        rw [countOwned, if_pos confirmed, row]
        rfl
      rw [same] at fresh ⊢
      rw [foldlM_cons, step, ok_bind, ih later fresh]
    · have more : ownedEntities (event :: rest) = event.owned :: ownedEntities rest := by
        rw [ownedEntities, filter_cons_of_pos (by simpa using confirmed)]
        rfl
      have new : event.owned ∉ seen := by
        intro old
        rw [more, nodup_append] at fresh
        exact fresh.2.2 _ (mem_reverse.mpr old) _ (by simp) rfl
      have step : countOwned host ledger seen event = .ok (event.owned :: seen) := by
        rw [countOwned, if_neg confirmed]
        simp only [row, ok_bind, bind_ok, require_ok, pure_ok]
        exact ⟨(), new, trivial⟩
      rw [more] at fresh ⊢
      rw [foldlM_cons, step, ok_bind, ih later (by simpa using fresh)]
      simp

/-- The entities of one kind are those that the events of the kind are about. -/
theorem ownedEntities_kind (events : List EventRow) {kind : EventKind} (owned : kind ≠ .confirm) :
    ((ownedEntities events).filter fun entity => entity.1 = kind).map Prod.snd =
      (events.filterMap (EventRow.view kind)).map Prod.fst := by
  induction events with
  | nil => rfl
  | cons event rest ih =>
    by_cases same : event.kind = kind
    · have shown : event.view kind = some (event.entityId, event.payload) := if_pos same
      have counted : event.kind ≠ .confirm := by
        rw [same]
        exact owned
      rw [ownedEntities, filter_cons_of_pos (by simpa using counted), map_cons,
        filter_cons_of_pos (by simp [EventRow.owned, same]), filterMap_cons_some shown, map_cons, map_cons, ← ih]
      rfl
    · have hidden : event.view kind = none := if_neg same
      rw [filterMap_cons_none hidden, ← ih]
      by_cases confirmed : event.kind = .confirm
      · rw [ownedEntities, filter_cons_of_neg (by simpa using confirmed)]
        rfl
      · rw [ownedEntities, filter_cons_of_pos (by simpa using confirmed), map_cons,
          filter_cons_of_neg (by simp [EventRow.owned, same])]
        rfl

/-- Entities are different when those of each kind are. -/
theorem nodup_of_kinds {entities : List (EventKind × String)}
    (kinds : ∀ kind, ((entities.filter fun entity => entity.1 = kind).map Prod.snd).Nodup) : entities.Nodup := by
  rw [nodup_iff_count_le_one]
  intro entity
  have distinct := (kinds entity.1).of_map
  rw [nodup_iff_count_le_one] at distinct
  have once := distinct entity
  rw [count_filter (by simp)] at once
  exact once

section Inventory

variable (reached : ledger.Reachable host world admitted)
include reached

/-- The events of a kind name the rows that need one. -/
theorem Ledger.Reachable.ownedKeys_eq {kind : EventKind} (owned : kind ≠ .confirm) :
    ((ownedEntities ledger.events).filter fun entity => entity.1 = kind).map Prod.snd = ledger.ownedKeys kind := by
  rw [ownedEntities_kind ledger.events owned, reached.inventory.owned kind owned]
  cases kind with
  | capture =>
    have native : ledger.sources.filter (fun row => ¬ isLegacyKey row.sourceKey) = ledger.sources := by
      rw [filter_eq_self]
      intro row member
      simpa using reached.native member
    rw [Ledger.shown, Ledger.ownedKeys, native, map_map]
    rfl
  | propose => exact map_map
  | review => exact map_map
  | delivery => exact map_map
  | confirm => exact absurd rfl owned

theorem Ledger.Reachable.ownedKeys_nodup (kind : EventKind) : (ledger.ownedKeys kind).Nodup := by
  cases kind with
  | capture => exact reached.inventory.sourceIds.sublist (filter_sublist.map _)
  | propose => exact reached.inventory.proposalIds
  | review => exact reached.inventory.reviewIds
  | delivery => exact reached.inventory.deliveryIds
  | confirm => exact nodup_nil

theorem Ledger.Reachable.ownedEntities_nodup : (ownedEntities ledger.events).Nodup := by
  apply nodup_of_kinds
  intro kind
  by_cases confirmed : kind = .confirm
  · have none : (ownedEntities ledger.events).filter (fun entity => entity.1 = kind) = [] := by
      rw [filter_eq_nil_iff]
      intro entity member same
      obtain ⟨event, inside, rfl⟩ := mem_map.mp member
      simp_all [EventRow.owned]
    rw [none]
    exact nodup_nil
  · rw [reached.ownedKeys_eq confirmed]
    exact reached.ownedKeys_nodup kind

theorem Ledger.Reachable.inventory_audited : auditOwnedInventory host ledger = .ok () := by
  have distinct : (([] : List (EventKind × String)).reverse ++ ownedEntities ledger.events).Nodup :=
    reached.ownedEntities_nodup
  have counted := counted_owned (fun event member => reached.owned_row member) distinct
  simp only [auditOwnedInventory, reached.inventory.numbered.sortOn_eq, counted, ok_bind, bind_ok]
  refine ⟨(), ?_, ?_⟩
  · rw [forM_ok]
    intro kind member
    have owned : kind ≠ .confirm := by
      rintro rfl
      simp at member
    rw [requireOwnedKeys, require_ok, append_nil, filter_reverse, map_reverse, toFinset_reverse,
      reached.ownedKeys_eq owned]
  · rw [forM_ok]
    intro recordId _
    exact reached.inventory.record_audited recordId

end Inventory

section Connection

variable (steady : ∀ service, admitted service → service.answers = port.steady)
  (reached : ledger.Reachable host world admitted)
include steady reached

theorem Ledger.Reachable.fact_audited {fact : FactRow} (member : fact ∈ ledger.facts) :
    auditFact host ledger fact = .ok () := by
  obtain ⟨decision, acceptedAt, review, proposal, source, delivery, event, holds⟩ := reached.fact_held steady member
  obtain ⟨found, decided⟩ := holds.found reached.inventory
  have predecessor : requirePredecessor ledger fact = .ok () := by
    unfold requirePredecessor
    split_ifs with later
    · have numbered := reached.inventory.linked.numbered fact.recordId
      have bounds := numbered.bounds (mem_recordFacts.mpr ⟨member, rfl⟩)
      have positive : 1 ≤ fact.version - 1 := by omega
      obtain ⟨prior, inside, version⟩ := numbered.exists_row positive (by omega)
      obtain ⟨held, record⟩ := mem_recordFacts.mp inside
      have priorFound := reached.factAt?_eq held
      have number : (prior.version : ℤ) = (fact.version : ℤ) - 1 := by omega
      rw [record, number] at priorFound
      simp only [bind_ok, expect_ok, require_ok]
      exact ⟨prior, priorFound, (reached.inventory.linked.predecessor prior held fact member record (by omega)).symm⟩
    · rfl
  simp only [auditFact, bind_ok, expect_ok, require_ok]
  refine ⟨fact.values, holds.sealed.1, (), holds.sealed.2, (), predecessor, event, found, ?_⟩
  rw [holds.recorded.2.2.2.2]
  simp only [bind_ok, expect_ok, require_ok]
  exact ⟨(), holds.sealed.2.symm, decision, decided, holds.decided.2.review⟩

omit steady in
theorem Ledger.Reachable.review_audited {review : ReviewRow} (member : review ∈ ledger.reviews) :
    auditReview host review = .ok () := by
  obtain ⟨before, service, opId, proposal, reading, origin, reviews⟩ := reached.review_origin member
  rw [auditReview, require_ok, reviews.written]
  exact ⟨rfl, rfl⟩

/-- The audit of the tables accepts every run. -/
theorem Ledger.Reachable.connection_audited : auditConnection host ledger =
    .ok ⟨ledger.events.length, ledger.facts.length, (ledger.events.argmax EventRow.seq).map EventRow.eventSha256⟩ := by
  simp only [auditConnection, reached.inventory.numbered.sortOn_eq, reached.chained, reached.inventory_audited, ok_bind,
    bind_ok, forM_ok, pure_ok]
  refine ⟨(), ?_, (), ?_, rfl⟩
  · intro fact member
    exact reached.fact_audited steady (mem_sortOn.mp member)
  · intro review member
    exact reached.review_audited member

end Connection

/-- The services of one binding that ask one port. -/
def Service.Bound (binding : RuntimeBinding) (port : EvidencePort) (service : Service) : Prop :=
  service.binding = binding ∧ service.answers = port.steady

section Bound

variable {binding : RuntimeBinding} (reached : ledger.Reachable host world (Service.Bound binding port))
include reached

namespace Ledger.Reachable

theorem source_owned {source : SourceRow} (member : source ∈ ledger.sources) {verifier : Verifier}
    (bound : verifier.binding = binding) : verifier.Owns source := by
  obtain ⟨before, service, opId, origin, captures⟩ := reached.source_origin member
  have actor := captures.actor
  rw [origin.allowed.1, ← bound] at actor
  exact actor

theorem proposal_bound {row : ProposalRow} (member : row ∈ ledger.proposals) : row.expected.binding = binding := by
  obtain ⟨before, service, opId, origin, proposes⟩ := reached.proposal_origin member
  obtain ⟨source, basis, localDate, requests⟩ := proposes.requests origin.allowed.2
  rw [requests.expected]
  exact origin.allowed.1

variable {review : ReviewRow}

variable (member : review ∈ ledger.reviews)
include member

/-- The proposal of a review. -/
theorem review_proposal : ∃ proposal ∈ ledger.proposals, proposal.proposalId = review.proposalId := by
  obtain ⟨before, service, opId, proposal, reading, origin, reviews⟩ := reached.review_origin member
  obtain ⟨found, named⟩ := find?_key (reviewable_proposal reviews.reviewable).1
  exact ⟨proposal, origin.earlier.proposals.subset found, named⟩

/-- The window of a review comes from two successive readings of the clock. -/
theorem review_window : ∃ reading, review.TakenAt world reading := by
  obtain ⟨before, service, opId, proposal, reading, origin, reviews⟩ := reached.review_origin member
  refine ⟨reading, ?_, ?_⟩ <;> rw [reviews.material, Service.reviewMaterial]

/-- With one binding a review is confirmable as soon as its window is not too long. -/
theorem review_confirmable {proposal : ProposalRow}
    (known : proposal ∈ ledger.proposals) (same : proposal.proposalId = review.proposalId)
    (window : 0 < review.material.expiresAt - review.material.createdAt ∧
      review.material.expiresAt - review.material.createdAt ≤ reviewWindow) :
    review.Confirmable port ledger proposal := by
  have bound := reached.proposal_bound known
  obtain ⟨service, reading, allowed, material, row⟩ := reached.review_repeats member known same
  refine ⟨?_, window, ?_⟩
  · rw [material, bound]
    exact allowed.1
  · intro delivery found
    obtain ⟨listed, named⟩ := find?_key found
    obtain ⟨before, sender, opId, shown, origin, delivers⟩ := reached.delivery_origin listed
    have answered := delivers.answered
    have actor := delivers.actor
    have display := (reached.delivery_display member found).2
    rw [← delivers.display.2, display, named, origin.allowed.1, origin.allowed.2] at answered
    rw [origin.allowed.1] at actor
    rw [bound]
    exact ⟨answered, actor⟩

omit member

variable (forward : Monotone world.clock) {verifier : Verifier} (bound : verifier.binding = binding)
include forward bound

/-- A review passes exactly when its two readings of the clock agree. -/
theorem review_passes (member : review ∈ ledger.reviews) :
    (∃ outcome, verifyReview host verifier port.steady ledger review = .ok outcome) ↔
      review.material.expiresAt = review.material.createdAt + reviewWindow := by
  obtain ⟨reading, created, expires⟩ := reached.review_window member
  have ordered := forward (Nat.le_succ reading)
  have positive : 0 < reviewWindow := by decide
  constructor
  · rintro ⟨outcome, done⟩
    obtain ⟨proposal, found, confirmable, source, held, named, owns⟩ := verifyReview_facts done
    have window := confirmable.window.2
    rw [Nat.succ_eq_add_one] at ordered
    omega
  · intro same
    obtain ⟨proposal, known, named⟩ := reached.review_proposal member
    obtain ⟨source, held, sourced, _⟩ := reached.proposal_source (fun _ allowed => allowed.2) known
    have confirmable := reached.review_confirmable member known named ⟨by omega, by omega⟩
    exact ⟨_, reached.review_verified (fun _ allowed => allowed.2) member known named held sourced
      (reached.source_owned held bound) confirmable⟩

/-- The whole audit accepts a run of one binding exactly when the two readings of every review agree. -/
theorem audit_passes :
    (∃ summary, verifier.audit host port ledger = .ok summary) ↔
      ∀ review ∈ ledger.reviews, review.material.expiresAt = review.material.createdAt + reviewWindow := by
  have steady : ∀ service : Service, service.Bound binding port → service.answers = port.steady :=
    fun _ allowed => allowed.2
  simp only [Verifier.audit, bind_ok, forM_ok, pure_ok]
  constructor
  · rintro ⟨_, summary, _, _, _, _, _, _, reviews, _⟩ review member
    have done := reviews review member
    simp only [Verifier.requireReview, bind_ok] at done
    obtain ⟨outcome, verified, _⟩ := done
    exact (reached.review_passes forward bound member).mp ⟨outcome, verified⟩
  · intro agree
    refine ⟨_, _, reached.connection_audited steady, (), ?_, (), ?_, (), ?_, (), ?_, rfl⟩
    · intro source member
      rw [Verifier.requireSource, reached.source_verified steady member (reached.source_owned member bound)]
      rfl
    · intro proposal member
      obtain ⟨source, held, named, _⟩ := reached.proposal_source steady member
      rw [Verifier.requireProposal,
        reached.proposal_verified steady member held named (reached.source_owned held bound)]
      rfl
    · intro review member
      obtain ⟨outcome, verified⟩ := (reached.review_passes forward bound member).mpr (agree review member)
      rw [Verifier.requireReview, verified]
      rfl
    · intro recordId listed
      obtain ⟨fact, member, rfl⟩ := mem_map.mp (mem_dedup.mp listed)
      obtain ⟨decision, acceptedAt, review, proposal, source, delivery, event, holds⟩ := reached.fact_held steady member
      have named : ∀ version ∈ ledger.recordFacts fact.recordId, version.sourceId = source.sourceId := by
        intro version inside
        obtain ⟨held, record⟩ := mem_recordFacts.mp inside
        rw [(reached.inventory.linked.economic version held fact member record).1]
        exact holds.sourced.2.2
      rw [Verifier.requireRecord,
        reached.record_verified steady holds.sourced.1 (reached.source_owned holds.sourced.1 bound) named]
      rfl

end Ledger.Reachable

end Bound

/-- The request at a position of a run writes a review, whose window is taken at two of the request's own readings of
the clock. -/
structure ReviewedAt (platform : Platform) (world : World) (requests : List Request)
    (position reading : ℕ) (review : ReviewRow) : Prop where
  absent : review ∉ (sessionAt platform world requests position).store.reviews
  written : review ∈ (sessionAt platform world requests (position + 1)).store.reviews
  own : (sessionAt platform world requests position).readings ≤ reading ∧
    reading + 1 < (sessionAt platform world requests (position + 1)).readings
  taken : review.TakenAt world reading

/-- Every request that writes a review reads the same second at both ends of its window. -/
def ReadingsAgree (platform : Platform) (world : World) (requests : List Request) : Prop :=
  ∀ position reading review, ReviewedAt platform world requests position reading review →
    world.clock (reading + 1) = world.clock reading

section Readings

variable {requests : List Request} {review : ReviewRow}

/-- Every review of a run was written by one of its requests. -/
theorem exists_reviewedAt (member : review ∈ (afterRequests host world requests).store.reviews) :
    ∃ position reading, ReviewedAt host world requests position reading review := by
  have held : review ∈ (runTo (perform host world) opening requests requests.length).store.reviews := by
    rwa [runTo, take_length]
  obtain ⟨position, -, absent, present⟩ :=
    exists_start (fun ledger : Ledger => review ∈ ledger.reviews) (by simp [opening, Ledger.empty]) held
  rcases runTo_cases (fun _ _ _ _ => perform_raises) opening requests position with same | ⟨request, outcome, -, done⟩
  · rw [same] at present
    exact absurd present absent
  · rcases perform_cases done with quiet | ⟨_, _, _, _, _, _, _, -, -, grown, -⟩
    · rcases quiet.windows.taken review present with old | ⟨reading, after, before, taken⟩
      · exact absurd old absent
      · exact ⟨position, reading, absent, present, ⟨after, before⟩, taken⟩
    · rw [grown] at present
      rcases mem_append.mp present with old | added
      · exact absurd old absent
      · exact absurd added not_mem_nil

theorem ReviewedAt.stored {position reading : ℕ} (reviewed : ReviewedAt host world requests position reading review) :
    review ∈ (afterRequests host world requests).store.reviews := by
  have grown := sessionAt_grown host world requests (Nat.le_add_left (position + 1) requests.length)
  have whole : sessionAt host world requests (requests.length + (position + 1)) = afterRequests host world requests := by
    rw [sessionAt, take_of_length_le (Nat.le_add_right _ _)]
  rw [whole] at grown
  exact grown.tables.reviews.subset reviewed.written

/-- The readings agree exactly when every stored review has the whole window. -/
theorem readingsAgree_iff : ReadingsAgree host world requests ↔
    ∀ review ∈ (afterRequests host world requests).store.reviews,
      review.material.expiresAt = review.material.createdAt + reviewWindow := by
  constructor
  · intro agree review member
    obtain ⟨position, reading, reviewed⟩ := exists_reviewedAt member
    rw [reviewed.taken.1, reviewed.taken.2, agree position reading review reviewed]
  · intro whole position reading review reviewed
    have window := whole review reviewed.stored
    rw [reviewed.taken.1, reviewed.taken.2] at window
    omega

end Readings

/-- Writer and auditor agree on the runs of one binding with a clock that never goes back, a port whose answers do not
change and any calls, exactly when the two readings of the clock behind each review agree: then both audits accept the
ledger and every review is verified, and a review whose readings differ is refused by each of them. -/
theorem audits_accept_iff_readings_agree (platform : Platform) (world : World)
    (forward : Monotone world.clock)
    (binding : RuntimeBinding) (port : EvidencePort) (requests : List Request)
    (services : ∀ request ∈ requests, request.service.Bound binding port) :
    ((∃ summary, auditEvidenceConnection platform port binding (afterRequests platform world requests).store =
        .ok summary) ↔ ReadingsAgree platform world requests) ∧
    ((∃ summary, fullAudit platform port binding (afterRequests platform world requests).store = .ok summary) ↔
      ReadingsAgree platform world requests) ∧
    (ReadingsAgree platform world requests ↔ ∀ review ∈ (afterRequests platform world requests).store.reviews,
      review.material.expiresAt = review.material.createdAt + reviewWindow) ∧
    (∀ review ∈ (afterRequests platform world requests).store.reviews,
      ((∃ outcome, verifyReview platform (.ledgerService binding) port.steady
          (afterRequests platform world requests).store review = .ok outcome) ↔
        review.material.expiresAt = review.material.createdAt + reviewWindow) ∧
      ∃ position reading, ReviewedAt platform world requests position reading review) := by
  have reached : (afterRequests platform world requests).store.Reachable platform world
      (Service.Bound binding port) := afterRequests_reachable services
  refine ⟨?_, ?_, readingsAgree_iff, ?_⟩
  · exact (reached.audit_passes forward rfl).trans readingsAgree_iff.symm
  · exact (reached.audit_passes forward rfl).trans readingsAgree_iff.symm
  · intro review member
    exact ⟨reached.review_passes forward rfl member, exists_reviewedAt member⟩

theorem sampleRequests_bound (request : Request) (member : request ∈ sampleRequests) :
    request.service.Bound sampleBinding samplePort := by
  simp only [sampleRequests, mem_cons, not_mem_nil, or_false] at member
  rcases member with rfl | rfl | rfl | rfl | rfl <;> exact ⟨rfl, rfl⟩

/-- A clock that stands still lets the audits accept the sample. -/
theorem audits_accept_frozen_clock :
    Monotone (sampleWorld frozen).clock ∧ (∀ request ∈ sampleRequests, request.service.Bound sampleBinding samplePort) ∧
    ∃ summary, auditEvidenceConnection samplePlatform samplePort sampleBinding
      (afterRequests samplePlatform (sampleWorld frozen) sampleRequests).store = .ok summary := by
  have forward : Monotone (sampleWorld frozen).clock := fun _ _ _ => le_rfl
  refine ⟨forward, sampleRequests_bound, ?_⟩
  apply (audits_accept_iff_readings_agree samplePlatform (sampleWorld frozen) forward sampleBinding samplePort
    sampleRequests sampleRequests_bound).1.mpr
  intro position reading review _
  rfl

/-- A clock that ticks at every reading. -/
def ticking (reading : ℕ) : ℤ := 100 + reading

theorem sessionAt_reviewed : sessionAt samplePlatform (sampleWorld ticking) sampleRequests 3 =
    ⟨reviewedLedger ticking, 4, 3⟩ := by
  have storable : ∀ reading < 4, -(2 ^ 63) ≤ ticking reading ∧ ticking reading < 2 ^ 63 := by
    simp only [ticking]
    omega
  rw [sessionAt_succ _ _ rfl, sessionAt_succ _ _ rfl, sessionAt_succ _ _ rfl]
  change next _ (next _ (next _ opening _) _) _ = _
  rw [next_of_ok (sample_capture ticking), next_of_ok (sample_propose ticking (storable 0 (by omega))),
    next_of_ok (sample_review ticking storable)]

/-- A clock that ticks between the two readings of a review makes the service refuse the review it has written: it is
not verified, and both audits raise. -/
theorem audits_refuse_ticking_clock :
    Monotone (sampleWorld ticking).clock ∧
    (∀ request ∈ sampleRequests.take 3, request.service.Bound sampleBinding samplePort) ∧
    sampleReview ticking ∈ (afterRequests samplePlatform (sampleWorld ticking) (sampleRequests.take 3)).store.reviews ∧
    (¬ ∃ outcome, verifyReview samplePlatform (.ledgerService sampleBinding) samplePort.steady
      (afterRequests samplePlatform (sampleWorld ticking) (sampleRequests.take 3)).store (sampleReview ticking) =
        .ok outcome) ∧
    (¬ ∃ summary, auditEvidenceConnection samplePlatform samplePort sampleBinding
      (afterRequests samplePlatform (sampleWorld ticking) (sampleRequests.take 3)).store = .ok summary) ∧
    ¬ ∃ summary, fullAudit samplePlatform samplePort sampleBinding
      (afterRequests samplePlatform (sampleWorld ticking) (sampleRequests.take 3)).store = .ok summary := by
  have forward : Monotone (sampleWorld ticking).clock := by
    intro first second before
    change (100 : ℤ) + first ≤ 100 + second
    omega
  have services : ∀ request ∈ sampleRequests.take 3, request.service.Bound sampleBinding samplePort :=
    fun request member => sampleRequests_bound request (List.mem_of_mem_take member)
  have reached : (afterRequests samplePlatform (sampleWorld ticking) (sampleRequests.take 3)).store.Reachable
      samplePlatform (sampleWorld ticking) (Service.Bound sampleBinding samplePort) := afterRequests_reachable services
  have ended : afterRequests samplePlatform (sampleWorld ticking) (sampleRequests.take 3) =
      ⟨reviewedLedger ticking, 4, 3⟩ := sessionAt_reviewed
  have written : sampleReview ticking ∈
      (afterRequests samplePlatform (sampleWorld ticking) (sampleRequests.take 3)).store.reviews := by
    rw [ended]
    exact List.mem_singleton.mpr rfl
  have apart : ¬ (sampleReview ticking).material.expiresAt = (sampleReview ticking).material.createdAt + reviewWindow := by
    decide
  refine ⟨forward, services, written, ?_, ?_, ?_⟩
  · intro passed
    exact apart ((reached.review_passes forward rfl written).mp passed)
  · intro accepted
    exact apart ((reached.audit_passes forward rfl).mp accepted _ written)
  · intro accepted
    exact apart ((reached.audit_passes forward rfl).mp accepted _ written)

/-- At every moment of a run the ledger keeps all its earlier rows, its events form the numbered chain of
the audit, and its tables show what its events say. -/
theorem ledger_history (requests : List Request) (position later : ℕ) :
    let ledger := (sessionAt host world requests position).store
    ledger.Prefix (sessionAt host world requests (position + later)).store ∧
      (∃ tail, ledger.events.foldlM (auditEvent host) ⟨1, none⟩ = .ok tail) ∧
      ∀ kind ≠ .confirm, ledger.events.filterMap (EventRow.view kind) = ledger.shown kind := by
  have reached : (sessionAt host world requests position).store.Reachable host world fun _ => True :=
    afterRequests_reachable fun _ _ => trivial
  exact ⟨(sessionAt_grown host world requests (Nat.le_add_right _ _)).tables, ⟨_, reached.chained⟩,
    reached.inventory.owned⟩

end FinanceCore.LifecycleV2

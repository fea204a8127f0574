import FinanceCore.LifecycleV2.Inventory

namespace FinanceCore.LifecycleV2

open Exceptions Operations Tables

variable {host : Platform} {world : World} {admitted : Service → Prop} {port : EvidencePort}
  {basis : CurrentValues × Option FactRow} {ledger : Ledger} {service : Service} {row : ProposalRow}

variable {sourceId : String} {recordId : Option String}

/-- The owned rows of a kind have exactly one event each. -/
theorem Ledger.Inventory.only_event {commitments : List Commitment}
    (inventory : ledger.Inventory commitments)
    {ρ : Type} {kind : EventKind} {rows : List ρ} {shown : ρ → String × EventPayload}
    (owned : kind ≠ .confirm)
    (rowsShown : ledger.shown kind = rows.map shown) (keyed : Keyed (Prod.fst ∘ shown) rows)
    {row : ρ} (member : row ∈ rows) :
    ∃ event, onlyRow (ledger.eventsOf kind (shown row).1) = some event ∧
      event.payload = (shown row).2 := by
  obtain ⟨event, only, viewed⟩ := only_entry ((inventory.owned kind owned).trans rowsShown) keyed member
  have asked : ledger.eventsOf kind (shown row).1 = [event] := by
    rw [← only]
    apply List.filter_congr
    intro other _
    unfold EventRow.view
    by_cases same : other.kind = kind
    · simp [same]
    · simp [same]
  refine ⟨event, by rw [asked, onlyRow], ?_⟩
  unfold EventRow.view at viewed
  split_ifs at viewed
  rw [Option.some_inj] at viewed
  rw [← viewed]

section Sources

variable (steady : ∀ service, admitted service → service.answers = port.steady)
  (reached : ledger.Reachable host world admitted)
include reached

variable {row : SourceRow}

namespace Ledger.Reachable

theorem capture_event (member : row ∈ ledger.sources) :
    ∃ event, onlyRow (ledger.eventsOf .capture row.sourceId) = some event ∧
      event.payload = .capture row.generation row.evidence := by
  exact reached.inventory.only_event (by decide : EventKind.capture ≠ .confirm) rfl reached.inventory.sourceIds member

theorem propose_event {row : ProposalRow} (member : row ∈ ledger.proposals) :
    ∃ event, onlyRow (ledger.eventsOf .propose row.proposalId) = some event ∧
      event.payload = .propose row.material := by
  exact reached.inventory.only_event (by decide : EventKind.propose ≠ .confirm) rfl reached.inventory.proposalIds member

theorem review_event {row : ReviewRow} (member : row ∈ ledger.reviews) :
    ∃ event, onlyRow (ledger.eventsOf .review row.reviewId) = some event ∧
      event.payload = .review row.material := by
  exact reached.inventory.only_event (by decide : EventKind.review ≠ .confirm) rfl reached.inventory.reviewIds member

theorem source?_eq (member : row ∈ ledger.sources) : ledger.source? row.sourceId = some row := by
  exact reached.inventory.sourceIds.find?_eq member

theorem proposal?_eq {row : ProposalRow} (member : row ∈ ledger.proposals) :
    ledger.proposal? row.proposalId = some row := by
  exact reached.inventory.proposalIds.find?_eq member

theorem review?_eq {row : ReviewRow} (member : row ∈ ledger.reviews) : ledger.review? row.reviewId = some row := by
  exact reached.inventory.reviewIds.find?_eq member

theorem delivery?_eq {row : DeliveryRow} (member : row ∈ ledger.deliveries) :
    ledger.delivery? row.reviewId = some row := by
  exact reached.inventory.deliveryIds.find?_eq member

/-- The versions of the proposals of a source have no gap, so a version names one proposal. -/
theorem proposalAt?_eq {row : ProposalRow} (member : row ∈ ledger.proposals) :
    ledger.proposalAt? row.sourceId row.version = some row := by
  apply find?_eq_of_unique member (by simp)
  intro other inside same
  simp only [decide_eq_true_eq, Nat.cast_inj] at same
  apply (reached.inventory.proposalVersions row.sourceId).injective
  · simpa [same.1] using inside
  · simpa using member
  · exact same.2

theorem proposalAt?_zero (sourceId : String) : ledger.proposalAt? sourceId 0 = none := by
  rw [Ledger.proposalAt?, List.find?_eq_none]
  intro row member asked
  simp only [decide_eq_true_eq, Nat.cast_eq_zero] at asked
  have inside : row ∈ ledger.proposals.filter fun row => row.sourceId = sourceId := by
    simpa [asked.1] using member
  have bounds := (reached.inventory.proposalVersions sourceId).bounds inside
  omega

theorem factAt?_eq {row : FactRow} (member : row ∈ ledger.facts) :
    ledger.factAt? row.recordId row.version = some row := by
  apply find?_eq_of_unique member (by simp)
  intro other inside same
  simp only [decide_eq_true_eq, Nat.cast_inj] at same
  exact reached.inventory.linked.unique inside member same.1 same.2

end Ledger.Reachable

include steady

/-- A source is verified by every verifier of its actor. -/
theorem Ledger.Reachable.source_verified (member : row ∈ ledger.sources) {verifier : Verifier}
    (owns : verifier.Owns row) : verifier.source host port.steady ledger row.sourceId true = .ok row := by
  obtain ⟨before, service, opId, origin, captures⟩ := reached.source_origin member
  have answered := captures.answered
  rw [steady service origin.allowed] at answered
  obtain ⟨event, only, payload⟩ := reached.capture_event member
  have named := service.binding.admitted service.binding.generation (by simp)
  have long : 1 ≤ service.binding.generation.length := by
    rw [Nat.one_le_iff_ne_zero]
    simpa [String.length_eq_zero_iff] using named.1
  simp only [Verifier.source, bind_ok, expect_ok, require_ok, Verifier.actor]
  refine ⟨row, reached.source?_eq member, (), captures.native, row.evidence, answered, (), owns, (), ?_, event, only,
    some row.generation, ?_, rfl⟩
  · exact ⟨captures.sealed, rfl, rfl, rfl, rfl, rfl, rfl, rfl, rfl, captures.original⟩
  · rw [payload]
    simp only [captureGeneration, bind_ok, require_ok, pure_ok]
    rw [← captures.generation] at long named
    exact ⟨(), captures.sealed, (), ⟨long, named.2, trivial, trivial⟩, trivial⟩

end Sources

variable {answers : EvidenceAnswers} {initial projection : Projection} {replyId correctionReason : Option String}

/-- A reply as a request quotes it. -/
structure Service.Replies (platform : Platform) (service : Service) (port : EvidencePort)
    (initial : Projection)
    (recordId : Option String) (replyEvidenceId : String) (correctionReason : Option String)
    (projection : Projection) (reply : VerifiedSource) : Prop where
  edited : initial.interactionKind = .edit
  answered : port.source replyEvidenceId = some reply
  actor : reply.principalId = service.binding.principalId ∧ reply.clientId = service.binding.clientId
  checked : reply.evidenceId = replyEvidenceId ∧ 0 < reply.sourceTimestamp ∧ reply.timezone = singapore ∧
    platform.sha256Hex reply.rawInput = reply.originalSha256
  localDate : ∃ localDate, platform.localDate reply.sourceTimestamp = some localDate ∧
    projection = { initial with
      replyText := reply.rawInput
      interpretationContext := { initial.interpretationContext with
        anchorTimestamp := reply.sourceTimestamp
        localDate := localDate } }
  reason : requireReason reply recordId correctionReason = .ok ()

variable (done : service.replied host port.steady initial recordId replyId correctionReason = .ok projection)

include done in
theorem replied_cases :
    (initial.interactionKind = .initial ∧ replyId = none ∧ projection = initial) ∨
      ∃ identity reply, replyId = some identity ∧
        service.Replies host port initial recordId identity correctionReason projection reply := by
  unfold Service.replied at done
  cases kind : initial.interactionKind with
  | initial =>
    left
    cases replyId with
    | none =>
      simp only [kind, pure_ok] at done
      exact ⟨rfl, rfl, done.symm⟩
    | some identity => simp [kind] at done
  | edit =>
    right
    cases replyId with
    | none => simp [kind] at done
    | some identity =>
      simp only [kind, bind_ok, expect_ok, require_ok, pure_ok, Verifier.actor, EvidencePort.steady_apply] at done
      obtain ⟨reply, answered, _, actor, _, checked, localDate, dated, _, reason, rfl⟩ := done
      exact ⟨identity, reply, rfl, kind, answered, actor, checked, ⟨localDate, dated, by rw [kind]⟩, reason⟩

/-- What the basis of a request says about the rows that it starts from. -/
theorem basis_cases {expectedVersion : ℤ}
    (done : service.basis host answers ledger sourceId expectedVersion recordId = .ok basis) :
    (∃ identity fact, recordId = some identity ∧ ledger.latestFact? identity = some fact ∧
      (fact.version : ℤ) = expectedVersion ∧ fact.sourceId = sourceId ∧ basis = (some fact.values, some fact)) ∨
    (recordId = none ∧ (((ledger.latestProposal? sourceId).map ProposalRow.version).getD 0 : ℤ) = expectedVersion ∧
      basis = ((ledger.latestProposal? sourceId).map ProposalRow.values, none)) := by
  cases recordId with
  | some identity =>
    left
    simp only [Service.basis, bind_ok, expect_ok, require_ok, pure_ok] at done
    obtain ⟨_, _, fact, latest, _, ⟨version, source⟩, rfl⟩ := done
    exact ⟨identity, fact, rfl, latest, version, source, rfl⟩
  | none =>
    right
    simp only [Service.basis, bind_ok, require_ok, pure_ok] at done
    obtain ⟨_, version, _, _, _, _, rfl⟩ := done
    exact ⟨rfl, version, rfl⟩

/-- The request of a proposal, with what it was built from. -/
structure Service.Requests (platform : Platform) (service : Service) (port : EvidencePort)
    (ledger : Ledger)
    (row : ProposalRow) (source : SourceRow) (basis : CurrentValues × Option FactRow)
    (localDate : String) : Prop where
  verified : service.verifier.source platform port.steady ledger row.sourceId row.recordId.isSome = .ok source
  based : service.basis platform port.steady ledger row.sourceId row.expectedVersion row.recordId = .ok basis
  dated : platform.localDate source.createdAt = some localDate
  replied : service.replied platform port.steady
    ⟨interactionKind row.expectedVersion row.recordId, source.rawInput, "", basis.1,
      ⟨source.createdAt, localDate, singapore, "SGD"⟩⟩ row.recordId row.expected.replyEvidenceId
    row.expected.correctionReason = .ok row.expected.projection
  expected : row.expected = ⟨service.binding, row.sourceId, source.sourceSha256, row.expectedVersion,
    row.expected.projection, row.recordId, row.expected.replyEvidenceId,
    (ledger.latestProposal? row.sourceId).map ProposalRow.proposalId, row.expected.currentReviewId,
    row.expected.correctionReason, basis.2.map FactRow.factSha256, basis.2.map FactRow.economicEventId⟩
  answered : port.provider row.observationId row.expected = some row.observation
  principal : row.observation.principalId = service.binding.principalId
  observed : row.observation.evidenceId = row.observationId ∧ row.observation.sourceId = row.sourceId ∧
    row.observation.requestSha256 = digest platform row.expected.toJson ∧
    row.observation.replyText = row.expected.projection.replyText
  values : platform.validateResponse row.observation.rawResponse row.expected.projection = some row.values

theorem Service.Proposes.requests (proposes : service.Proposes host ledger row)
    (steady : service.answers = port.steady) :
    ∃ source basis localDate, service.Requests host port ledger row source basis localDate := by
  have observed := proposes.observed
  simp only [Service.observe, Service.expected, steady, EvidencePort.steady_part, EvidencePort.steady_apply, bind_ok,
    pure_ok, expect_ok, require_ok, Verifier.actor, Observed.mk.injEq] at observed
  obtain ⟨expected, ⟨source, verified, basis, based, localDate, dated, projection, replied, built⟩, observation,
    answered, _, actor, _, bound, _, text, payload, valid, values, checked, sameExpected, sameObservation, sameValues⟩ :=
    observed
  subst sameExpected sameObservation sameValues
  have paid := money_eq_ok checked
  subst paid
  have projected : row.expected.projection = projection := by rw [← built]
  have built' := built.symm
  rw [← projected] at built' replied
  refine ⟨source, basis, localDate, verified, based, dated, replied, ?_, answered, actor.1, ?_, valid⟩
  · rw [built']
  · exact ⟨bound.1, bound.2.1, bound.2.2, text⟩

include done in
theorem replied_projection :
    projection.sourceText = initial.sourceText ∧ projection.currentValues = initial.currentValues ∧
      projection.interpretationContext.timezone = initial.interpretationContext.timezone := by
  rcases replied_cases done with ⟨_, _, rfl⟩ | ⟨identity, reply, _, replies⟩
  · exact ⟨rfl, rfl, rfl⟩
  · obtain ⟨localDate, _, rfl⟩ := replies.localDate
    exact ⟨rfl, rfl, rfl⟩

/-- The verifier finds the time at which the request was read. -/
theorem anchor_verified {source : SourceRow} {localDate : String}
    (requests : service.Requests host port ledger row source basis localDate) :
    ∃ anchor, anchorTimestamp host port.steady row.expected source = .ok anchor ∧
      row.expected.projection.interpretationContext.anchorTimestamp = anchor ∧
      host.localDate anchor = some row.expected.projection.interpretationContext.localDate := by
  have binding : row.expected.binding = service.binding := by rw [requests.expected]
  unfold anchorTimestamp
  rcases replied_cases requests.replied with ⟨_, absent, same⟩ | ⟨identity, reply, given, replies⟩
  · rw [absent, same]
    exact ⟨source.createdAt, rfl, rfl, requests.dated⟩
  · obtain ⟨replyDate, dated, same⟩ := replies.localDate
    obtain ⟨named, positive, zone, original⟩ := replies.checked
    refine ⟨reply.sourceTimestamp, ?_, by rw [same], by rw [same]; exact dated⟩
    simp only [given, EvidencePort.steady_apply, bind_ok, expect_ok, require_ok, pure_ok]
    refine ⟨reply, replies.answered, (), ⟨named, ?_, ?_, ?_, positive, zone, original⟩, rfl⟩
    · rw [same]
    · rw [binding]
      exact replies.actor.1
    · rw [binding]
      exact replies.actor.2

theorem mem_of_latestProposal? (latest : ledger.latestProposal? sourceId = some row) :
    row ∈ ledger.proposals ∧ row.sourceId = sourceId := by
  have inside := List.argmax_mem latest
  simpa using inside

theorem mem_of_latestFact? {recordId : String} {row : FactRow}
    (latest : ledger.latestFact? recordId = some row) :
    row ∈ ledger.facts ∧ row.recordId = recordId :=
  mem_recordFacts.mp (List.argmax_mem latest)

section Proposals

variable {ledger before : Ledger} {source : SourceRow} {localDate : String}
  (reached : ledger.Reachable host world admitted) (earlier : before.Prefix ledger)
  (requests : service.Requests host port before row source basis localDate)
include reached earlier requests

/-- The values before a proposal are still found under its predecessor. -/
theorem Service.Requests.priorValues : row.expected.projection.currentValues = ledger.priorValues row := by
  rw [(replied_projection requests.replied).2.1]
  unfold Ledger.priorValues
  rcases basis_cases requests.based with ⟨identity, fact, named, latest, version, _, rfl⟩ | ⟨absent, version, rfl⟩
  · obtain ⟨inside, record⟩ := mem_of_latestFact? latest
    have found := reached.factAt?_eq (earlier.facts.subset inside)
    rw [record, version] at found
    rw [named]
    simp only
    rw [found]
    rfl
  · rw [absent]
    cases latest : before.latestProposal? row.sourceId with
    | none =>
      rw [latest] at version
      have zero : row.expectedVersion = 0 := version.symm
      rw [if_pos zero]
      rfl
    | some prior =>
      obtain ⟨inside, same⟩ := mem_of_latestProposal? latest
      have found := reached.proposalAt?_eq (earlier.proposals.subset inside)
      rw [latest] at version
      rw [Option.map_some, Option.getD_some] at version
      have positive : row.expectedVersion ≠ 0 := by
        intro zero
        rw [zero] at version
        rw [version, reached.proposalAt?_zero] at found
        cases found
      rw [if_neg positive]
      rw [same, version] at found
      rw [found]

/-- A correction still names its fact, and it has a reason. -/
theorem Service.Requests.correction : requireCorrectionContext ledger row = .ok () := by
  have expected := requests.expected
  have named : row.expected.recordId = row.recordId := by rw [expected]
  unfold requireCorrectionContext
  rcases basis_cases requests.based with ⟨identity, fact, given, latest, version, _, rfl⟩ | ⟨absent, _, _⟩
  · obtain ⟨inside, record⟩ := mem_of_latestFact? latest
    have found := reached.factAt?_eq (earlier.facts.subset inside)
    rw [record, version] at found
    rw [named, given]
    simp only [bind_ok, expect_ok, require_ok]
    refine ⟨fact, found, (), ?_, ?_⟩
    · constructor
      · rw [expected]
        rfl
      · rw [expected]
        rfl
    · rcases replied_cases requests.replied with ⟨kind, _, _⟩ | ⟨_, reply, _, replies⟩
      · simp [interactionKind, given] at kind
      · have reason := replies.reason
        rw [given] at reason
        intro missing
        rw [missing] at reason
        simp [requireReason] at reason
  · rw [named, absent]
    rfl

/-- The proposal before a proposal is still the one that its request names. -/
theorem Service.Requests.predecessor (version : row.version = before.nextProposalVersion row.sourceId) :
    row.expected.currentProposalId =
      (ledger.proposalAt? row.sourceId (row.version - 1)).map ProposalRow.proposalId := by
  have named : row.expected.currentProposalId =
      (before.latestProposal? row.sourceId).map ProposalRow.proposalId := by rw [requests.expected]
  rw [named, version, Ledger.nextProposalVersion, Nat.cast_add, Nat.cast_one, add_sub_cancel_right]
  cases latest : before.latestProposal? row.sourceId with
  | none =>
    change none = (ledger.proposalAt? row.sourceId 0).map ProposalRow.proposalId
    rw [reached.proposalAt?_zero]
    rfl
  | some prior =>
    obtain ⟨inside, same⟩ := mem_of_latestProposal? latest
    have found := reached.proposalAt?_eq (earlier.proposals.subset inside)
    rw [same] at found
    change some prior.proposalId = (ledger.proposalAt? row.sourceId prior.version).map ProposalRow.proposalId
    rw [found]
    rfl

end Proposals

section Verified

variable (steady : ∀ service, admitted service → service.answers = port.steady)
  (reached : ledger.Reachable host world admitted)
include steady reached

/-- The source of a proposal has the actor that the proposal is bound to. -/
theorem Ledger.Reachable.proposal_source (member : row ∈ ledger.proposals) :
    ∃ source ∈ ledger.sources, source.sourceId = row.sourceId ∧
      source.principalId = row.expected.binding.principalId ∧
      source.clientId = row.expected.binding.clientId := by
  obtain ⟨before, service, opId, origin, proposes⟩ := reached.proposal_origin member
  obtain ⟨source, basis, localDate, requests⟩ := proposes.requests (steady service origin.allowed)
  obtain ⟨inside, named, owns⟩ := source_row requests.verified
  have binding : row.expected.binding = service.binding := by rw [requests.expected]
  refine ⟨source, origin.earlier.sources.subset inside, named, ?_, ?_⟩
  · rw [binding]
    exact owns.1
  · rw [binding]
    exact owns.2

/-- A proposal is verified by every verifier of its actor. -/
theorem Ledger.Reachable.proposal_verified (member : row ∈ ledger.proposals) {verifier : Verifier}
    {source : SourceRow} (known : source ∈ ledger.sources) (same : source.sourceId = row.sourceId)
    (owns : verifier.Owns source) : verifyProposal host verifier port.steady ledger row = .ok row.expected := by
  obtain ⟨before, service, opId, origin, proposes⟩ := reached.proposal_origin member
  obtain ⟨original, basis, localDate, requests⟩ := proposes.requests (steady service origin.allowed)
  obtain ⟨inside, named, _⟩ := source_row requests.verified
  have earlier := origin.earlier
  have identical : original = source :=
    reached.inventory.sourceIds.injective (earlier.sources.subset inside) known (named.trans same.symm)
  subst identical
  have expected := requests.expected
  obtain ⟨anchor, anchored, moment, dated⟩ := anchor_verified requests
  obtain ⟨text, _, zone⟩ := replied_projection requests.replied
  obtain ⟨evidence, owner, request, reply⟩ := requests.observed
  obtain ⟨event, only, payload⟩ := reached.propose_event member
  have verified := reached.source_verified steady known owns
  rw [same] at verified
  simp only [verifyProposal, bind_ok, expect_ok, require_ok, pure_ok, EvidencePort.steady_part,
    EvidencePort.steady_apply]
  refine ⟨original, verified, (), ⟨?_, ?_, ?_, ?_, text⟩, anchor, anchored, (), ⟨moment, zone⟩, _, dated, (), rfl,
    row.observation, requests.answered, (), ⟨rfl, request, ?_, evidence, ?_, reply⟩, (),
    requests.priorValues reached earlier, (), requests.correction reached earlier, (), requests.values,
    event, only, (), payload, (), requests.predecessor reached earlier proposes.version, (), proposes.sealed.symm, trivial⟩
  · rw [expected]
    exact named.symm
  · rw [expected]
  · rw [expected]
  · rw [expected]
  · exact owner.trans same.symm
  · rw [expected]
    exact requests.principal

end Verified

end FinanceCore.LifecycleV2

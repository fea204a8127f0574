import FinanceCore.LifecycleV2.VerifiedRecords

namespace FinanceCore.LifecycleV2

open Exceptions Operations List Option

variable {host : Platform} {world : World} {requests : List Request} {reviewId actionId opId : String}
  {service : Service} {fact : FactRow} {other : Service}

/-- Every service of a run asks one port whose answers do not change. -/
def Steady (port : EvidencePort) (requests : List Request) : Prop :=
  ∀ request ∈ requests, request.service.answers = port.steady

/-- The request at a position is a confirmation that commits a fact. -/
structure CommitsAt (platform : Platform) (world : World) (requests : List Request) (position : ℕ)
    (service : Service)
    (reviewId actionEvidenceId operationId : String) (fact : FactRow) : Prop where
  called : requests[position]? = some ⟨service, .confirm reviewId actionEvidenceId operationId⟩
  returned : perform platform world ⟨service, .confirm reviewId actionEvidenceId operationId⟩
    (sessionAt platform world requests position) =
      .ok (.receipt fact.receipt) (sessionAt platform world requests (position + 1))
  added : (sessionAt platform world requests (position + 1)).store.facts =
    (sessionAt platform world requests position).store.facts ++ [fact]

/-- The ledgers of a run with a steady port. -/
theorem sessionAt_reachable {port : EvidencePort} (steady : Steady port requests) (position : ℕ) :
    (sessionAt host world requests position).store.Reachable host world
      fun service => service.answers = port.steady := by
  apply afterRequests_reachable
  intro request member
  exact steady request (mem_of_mem_take member)

/-- Rows of a run stay in its later ledgers. -/
theorem sessionAt_grown (host : Platform) (world : World) (requests : List Request)
    {earlier later : ℕ} (before : earlier ≤ later) :
    (sessionAt host world requests earlier).store.Grown host world (fun _ => True)
      (sessionAt host world requests later).store := by
  induction later, before using Nat.le_induction with
  | base => exact .refl
  | succ later _ ih =>
    apply ih.trans
    cases here : requests[later]? with
    | none =>
      rw [sessionAt, sessionAt, take_add_one, here, toList_none, append_nil]
      exact .refl
    | some request =>
      rw [sessionAt_succ host world here]
      rcases next_cases (fun _ _ _ _ => perform_raises) (sessionAt host world requests later) request with
        same | ⟨outcome, done⟩
      · rw [same]
        exact .refl
      · exact (perform_extends done).grown trivial

/-- A commitment of a run, with the decision that it left. -/
theorem CommitsAt.commitment {position : ℕ}
    (commits : CommitsAt host world requests position service reviewId actionId opId fact) :
    ∃ review accepted decision,
      service.Confirms host world (sessionAt host world requests position) reviewId actionId opId
        review accepted fact decision ∧ (sessionAt host world requests (position + 1)).store =
        (sessionAt host world requests position).store.record host opId
          (.committed fact decision (world.clock (sessionAt host world requests position).readings)) := by
  have returned := commits.returned
  have added := commits.added
  rw [perform, transaction_returns] at returned
  obtain ⟨receipt, confirmed, _⟩ := map_returns.mp returned
  rcases confirm_cases confirmed with ⟨_, _, _, same⟩ | ⟨_, review, accepted, committed, decision, confirms, grown, _⟩
  · rw [same] at added
    simp at added
  · rw [grown, Ledger.record, Entry.facts] at added
    have same : committed = fact := by simpa using added
    subst same
    exact ⟨review, accepted, decision, confirms, grown⟩

section Apart

variable {first second : ℕ} {otherReview otherAction otherOperation : String} {another : FactRow}
  (commits : CommitsAt host world requests first service reviewId actionId opId fact)
  (again : CommitsAt host world requests second other otherReview otherAction otherOperation another)
include commits again

/-- Two commitments differ in review, action and operation. -/
theorem CommitsAt.apart (before : first < second) :
    reviewId ≠ otherReview ∧ actionId ≠ otherAction ∧ opId ≠ otherOperation := by
  obtain ⟨_, _, decision, confirms, grown⟩ := commits.commitment
  obtain ⟨_, _, later, confirmsAgain, _⟩ := again.commitment
  have tables := (sessionAt_grown host world requests before).tables
  rw [grown] at tables
  have held : decision ∈ (sessionAt host world requests second).store.decisions :=
    tables.decisions.subset (mem_append_right _ (by simp))
  obtain ⟨action, review, operation, _⟩ := confirmsAgain.commits.freshDecision decision held
  rw [confirms.commits.matches.review, confirms.review, confirmsAgain.commits.matches.review,
    confirmsAgain.review] at review
  rw [confirms.action, confirmsAgain.action] at action
  rw [confirms.operation, confirmsAgain.operation] at operation
  exact ⟨review, action, operation⟩

/-- Two commitments of a run share neither review, nor action, nor operation. -/
theorem CommitsAt.unique (shared : reviewId = otherReview ∨ actionId = otherAction ∨ opId = otherOperation) :
    first = second := by
  rcases Nat.lt_trichotomy first second with before | same | after
  · have apart := commits.apart again before
    tauto
  · exact same
  · have apart := again.apart commits after
    grind

end Apart

section Replay

variable {position later : ℕ}

/-- What every later ledger still holds of a commitment. -/
structure Retained (ledger : Ledger) (service : Service)
    (reviewId actionEvidenceId operationId : String)
    (fact : FactRow) (review : ReviewRow) (decision : DecisionRow) (source : SourceRow) : Prop where
  decided : ledger.decisions.find? (fun row => row.operationId = operationId) = some decision
  action : decision.actionEvidenceId = actionEvidenceId ∧ decision.reviewId = reviewId
  reviewed : ledger.review? reviewId = some review
  binding : review.material.binding = service.binding
  committed : ledger.factAt? decision.recordId decision.version = some fact
  record : decision.recordId = fact.recordId
  sourced : source ∈ ledger.sources ∧ service.verifier.Owns source
  named : ∀ version ∈ ledger.recordFacts fact.recordId, version.sourceId = source.sourceId

variable (commits : CommitsAt host world requests position service reviewId actionId opId fact)

include commits in
/-- A commitment stays in every later ledger. -/
theorem CommitsAt.retained (after : position < later) :
    ∃ review decision source, Retained (sessionAt host world requests later).store service reviewId
      actionId opId fact review decision source := by
  obtain ⟨review, accepted, decision, confirms, grown⟩ := commits.commitment
  have tables := (sessionAt_grown host world requests after).tables
  rw [grown] at tables
  have before := (sessionAt_grown host world requests after.le).tables
  have reached : (sessionAt host world requests later).store.Reachable host world fun _ => True :=
    sessionAt_grown host world requests (Nat.zero_le later)
  have decisionHeld : decision ∈ (sessionAt host world requests later).store.decisions :=
    tables.decisions.subset (mem_append_right _ (by simp [Entry.decisions]))
  have factHeld : fact ∈ (sessionAt host world requests later).store.facts :=
    tables.facts.subset (mem_append_right _ (by simp [Entry.facts]))
  have reviewHeld := before.reviews.subset (mem_of_find?_eq_some confirms.commits.found)
  have reviewed : review.reviewId = reviewId := (Tables.find?_key confirms.commits.found).2.trans confirms.review
  have matching := confirms.commits.matches
  have accepts := confirms.commits.accepts
  simp only [Service.accept, bind_ok, require_ok, expect_ok, pure_ok] at accepts
  obtain ⟨_, ⟨binding, _, _⟩, proposal, _, source, verified, _, _, _, _, action, _, _, _, _, _, rfl⟩ := accepts
  obtain ⟨build, built, isFact⟩ := confirms.commits.next
  have sourced := (nextFact_fields built fact.commitSeq).2.1
  rw [isFact] at sourced
  refine ⟨review, decision, source, ?_, ⟨confirms.action, matching.review.trans confirms.review⟩, ?_, binding, ?_,
    matching.record, ⟨before.sources.subset (source_row verified).1, (source_row verified).2.2⟩, ?_⟩
  · rw [← confirms.operation]
    exact reached.inventory.operations.find?_eq decisionHeld
  · rw [← reviewed]
    exact reached.review?_eq reviewHeld
  · rw [matching.record, matching.version]
    exact reached.factAt?_eq factHeld
  · intro version member
    obtain ⟨held, record⟩ := mem_recordFacts.mp member
    rw [(reached.inventory.linked.economic version held fact factHeld record).1]
    exact sourced

variable {review : ReviewRow} {decision : DecisionRow} {source : SourceRow} {otherReview otherAction : String}
  {ledger : Ledger}

/-- A confirmation under a committed operation is answered from its decision, and it writes nothing. -/
theorem confirm_replay {ledger : Session Ledger}
    (retained : Retained ledger.store service reviewId actionId opId fact review decision source)
    {outcome : Outcome} {after : Session Ledger} :
    perform host world ⟨other, .confirm otherReview otherAction opId⟩ ledger = .ok outcome after ↔
      ∃ receipt, other.replayCommit host ledger.store decision otherReview otherAction = .ok receipt ∧
        .receipt receipt = outcome ∧ ledger = after := by
  rw [perform, transaction_returns]
  change (Outcome.receipt <$> other.confirm host world otherReview otherAction opId) ledger = _ ↔ _
  rw [map_returns]
  constructor
  · rintro ⟨receipt, confirmed, same⟩
    simp only [Service.confirm, bind_returns, reading_returns, pure_ok, retained.decided] at confirmed
    obtain ⟨_, _, ⟨rfl, rfl⟩, replayed⟩ := confirmed
    rw [reading_returns] at replayed
    exact ⟨receipt, replayed.1, same, replayed.2⟩
  · rintro ⟨receipt, replayed, same, rfl⟩
    refine ⟨receipt, ?_, same⟩
    simp only [Service.confirm, bind_returns, reading_returns, pure_ok, retained.decided]
    refine ⟨_, _, ⟨rfl, rfl⟩, ?_⟩
    rw [reading_returns]
    exact ⟨replayed, rfl⟩

/-- A replay that returns gives the receipt of the commitment, for its own review, action and binding. -/
theorem Retained.receipt (retained : Retained ledger service reviewId actionId opId fact review decision source)
    {receipt : CommitReceipt}
    (done : other.replayCommit host ledger decision otherReview otherAction = .ok receipt) :
    receipt = fact.receipt ∧ otherReview = reviewId ∧ otherAction = actionId ∧
      other.binding = service.binding := by
  simp only [Service.replayCommit, bind_ok, expect_ok, require_ok, pure_ok] at done
  obtain ⟨_, ⟨action, reviewed⟩, original, found, _, binding, committed, held, _, _, rfl⟩ := done
  have sameReview : otherReview = reviewId := reviewed.symm.trans retained.action.2
  rw [sameReview, retained.reviewed, some_inj] at found
  rw [retained.committed, some_inj] at held
  subst found held
  exact ⟨rfl, sameReview, action.symm.trans retained.action.1, binding.symm.trans retained.binding⟩

/-- A retained commitment is answered from the ledger. -/
theorem Retained.replays {port : EvidencePort}
    (reached : ledger.Reachable host world fun service => service.answers = port.steady)
    (retained : Retained ledger service reviewId actionId opId fact review decision source)
    (binding : other.binding = service.binding) (answers : other.answers = port.steady) :
    other.replayCommit host ledger decision reviewId actionId = .ok fact.receipt := by
  have owns : other.verifier.Owns source := by
    have owned := retained.sourced.2
    simpa [Service.verifier, binding] using owned
  have verified := reached.record_verified (fun _ same => same) retained.sourced.1 owns retained.named
  rw [← retained.record] at verified
  simp only [Service.replayCommit, bind_ok, expect_ok, require_ok, pure_ok, answers, EvidencePort.steady_part]
  refine ⟨(), retained.action, review, retained.reviewed, (), retained.binding.trans binding.symm, fact,
    retained.committed, _, verified, rfl⟩

include commits in
/-- A replay for another review, another action or another binding raises. -/
theorem CommitsAt.refuses (after : position < later)
    (different : otherReview ≠ reviewId ∨ otherAction ≠ actionId ∨ other.binding ≠ service.binding) :
    ∃ failure final, perform host world ⟨other, .confirm otherReview otherAction opId⟩
      (sessionAt host world requests later) = .error failure final := by
  obtain ⟨review, decision, source, retained⟩ := commits.retained after
  cases ended : perform host world ⟨other, .confirm otherReview otherAction opId⟩
      (sessionAt host world requests later) with
  | error failure final => exact ⟨failure, final, rfl⟩
  | ok outcome final =>
    obtain ⟨receipt, replayed, _, _⟩ := (confirm_replay retained).mp ended
    obtain ⟨_, sameReview, sameAction, sameBinding⟩ := retained.receipt replayed
    rcases different with review | action | binding
    · exact absurd sameReview review
    · exact absurd sameAction action
    · exact absurd sameBinding binding

end Replay

/-- Confirmation is exactly once. Two commitments share neither review, action nor operation; a confirmation under a
committed operation writes nothing, returns the receipt of the commitment to a service of its binding that asks the
same port for its own review and action, at any later time, and otherwise returns nothing else; a confirmation that
raises changes nothing. -/
theorem confirm_exactly_once (platform : Platform) (world : World) (requests : List Request) :
    (∀ first second service other reviewId actionEvidenceId operationId otherReview otherAction otherOperation fact another,
      CommitsAt platform world requests first service reviewId actionEvidenceId operationId fact →
      CommitsAt platform world requests second other otherReview otherAction otherOperation another →
      reviewId = otherReview ∨ actionEvidenceId = otherAction ∨ operationId = otherOperation → first = second) ∧
    (∀ position later service reviewId actionEvidenceId operationId fact,
      CommitsAt platform world requests position service reviewId actionEvidenceId operationId fact → position < later →
      (∀ (port : EvidencePort) (other : Service), Steady port requests → other.binding = service.binding →
        other.answers = port.steady →
        perform platform world ⟨other, .confirm reviewId actionEvidenceId operationId⟩
            (sessionAt platform world requests later) =
          .ok (.receipt fact.receipt) (sessionAt platform world requests later)) ∧
      (∀ (other : Service) otherReview otherAction,
        otherReview ≠ reviewId ∨ otherAction ≠ actionEvidenceId ∨ other.binding ≠ service.binding →
        ∃ failure after, perform platform world ⟨other, .confirm otherReview otherAction operationId⟩
          (sessionAt platform world requests later) = .error failure after) ∧
      (∀ (other : Service) otherReview otherAction outcome after,
        perform platform world ⟨other, .confirm otherReview otherAction operationId⟩
            (sessionAt platform world requests later) = .ok outcome after →
          outcome = .receipt fact.receipt ∧ after = sessionAt platform world requests later)) ∧
    (∀ service reviewId actionEvidenceId operationId session failure after,
      perform platform world ⟨service, .confirm reviewId actionEvidenceId operationId⟩ session = .error failure after →
        after.store = session.store) := by
  refine ⟨?_, ?_, ?_⟩
  · intro first second service other reviewId actionEvidenceId operationId otherReview otherAction otherOperation fact
      another commits again shared
    exact commits.unique again shared
  · intro position later service reviewId actionEvidenceId operationId fact commits after
    obtain ⟨review, decision, source, retained⟩ := commits.retained after
    refine ⟨?_, ?_, ?_⟩
    · intro port other steady binding answers
      apply (confirm_replay retained).mpr
      exact ⟨fact.receipt, retained.replays (sessionAt_reachable steady later) binding answers, rfl, rfl⟩
    · intro other otherReview otherAction different
      exact commits.refuses after different
    · intro other otherReview otherAction outcome final done
      obtain ⟨receipt, replayed, rfl, same⟩ := (confirm_replay retained).mp done
      rw [(retained.receipt replayed).1]
      exact ⟨rfl, same.symm⟩
  · intro service reviewId actionEvidenceId operationId session failure after raised
    exact perform_raises raised

section Sample

def sampleBinding : RuntimeBinding := ⟨"i", "g", "p", "c", by decide⟩

def otherBinding : RuntimeBinding := ⟨"i", "h", "p", "c", by decide⟩

def sampleValues : ExpenseValues := ⟨some "5.00", some "SGD", none, none, none, none⟩

/-- A platform with a short digest. -/
def samplePlatform : Platform where
  sha256Hex := fun text => String.ofList (text.toList.take 2)
  localDate := fun _ => some "2026-01-01"
  validateResponse := fun _ _ => some sampleValues

def sampleEvidence : VerifiedSource :=
  ⟨"e", "p", "c", "key", "coffee", samplePlatform.sha256Hex "coffee", 100, singapore⟩

/-- A port that answers every query with what it asks for. -/
def samplePort : EvidencePort where
  source := fun identity => some { sampleEvidence with evidenceId := identity }
  provider := fun identity expected =>
    some ⟨identity, expected.sourceId, "p", "raw", digest samplePlatform expected.toJson, expected.projection.replyText⟩
  delivery := fun identity display => some ⟨identity, display.reviewId, display.reviewSha256, "p", "c"⟩
  action := fun identity action =>
    some ⟨identity, action.reviewId, action.reviewSha256, action.deliveryEvidenceId, "p", "c", "confirm"⟩

def sampleService : Service := ⟨sampleBinding, samplePort.steady⟩

section

variable (clock : ℕ → ℤ)

def sampleWorld : World := ⟨clock, fun _ => "1"⟩

def sampleSource : SourceRow :=
  ⟨"source-1", "key", "e", "p", "c", "coffee", samplePlatform.sha256Hex "coffee",
    digest samplePlatform sampleEvidence.toJson, "g", 100⟩

def sampleExpected : ExpectedInvocation :=
  ⟨sampleBinding, "source-1", sampleSource.sourceSha256, 0,
    ⟨.initial, "coffee", "", none, ⟨100, "2026-01-01", singapore, "SGD"⟩⟩, none, none, none, none, none, none, none⟩

def sampleObserved : Observed :=
  ⟨sampleExpected, ⟨"o", "source-1", "p", "raw", digest samplePlatform sampleExpected.toJson, ""⟩, sampleValues⟩

def sampleProposal : ProposalRow :=
  proposalRow samplePlatform "proposal-1" "source-1" 1 "o" 0 none sampleObserved (clock 0)

def sampleReview : ReviewRow :=
  reviewRow samplePlatform (sampleService.reviewMaterial "review-1" (sampleProposal clock) (clock 1) (clock 2)) (clock 3)

def sampleDelivery : DeliveryRow :=
  ⟨"review-1", "d", ⟨"d", "review-1", (sampleReview clock).reviewSha256, "p", "c"⟩⟩

def capturedLedger : Ledger := Ledger.empty.record samplePlatform "1" (.captured sampleSource)

def proposedLedger : Ledger :=
  capturedLedger.record samplePlatform "2" (.proposed (sampleProposal clock))

def reviewedLedger : Ledger :=
  (proposedLedger clock).record samplePlatform "prepare-review-1" (.reviewed (sampleReview clock))

def deliveredLedger : Ledger :=
  (reviewedLedger clock).record samplePlatform "delivery-d" (.delivered (sampleDelivery clock))

end

variable (clock : ℕ → ℤ)

/-- The short digest of an event shows its number. -/
theorem digest_eventBody {seq : ℕ} {digit : Char} (printed : Json.renderInteger seq = [digit])
    (opId entityId : String) (payload : EventPayload) (previous : Option String) :
    digest samplePlatform (eventBody seq opId entityId payload previous) = String.ofList ['[', digit] := by
  simp [digest, canonical, samplePlatform, eventBody, Json.dumps, Json.sortKeys, Json.sortItems, Json.render, printed]

/-- An event by its number, its operation and its digest. -/
def EventRow.mark (event : EventRow) : ℕ × String × String := (event.seq, event.operationId, event.eventSha256)

section Marks

variable (ledger : Ledger) (entry : Entry) (seq : ℕ) (digit : Char) {opId : String}
  (next : (ledger.eventFor samplePlatform opId entry).seq = seq) (printed : Json.renderInteger seq = [digit])
include next printed

theorem eventFor_sealed : (ledger.eventFor samplePlatform opId entry).eventSha256 = String.ofList ['[', digit] := by
  rw [← digest_eventBody printed opId entry.entityId entry.payload
    ((ledger.events.argmax EventRow.seq).map EventRow.eventSha256), ← next]
  rfl

theorem marks_record : (ledger.record samplePlatform opId entry).events.map EventRow.mark =
    ledger.events.map EventRow.mark ++ [(seq, opId, String.ofList ['[', digit])] := by
  rw [Ledger.record, map_append, map_singleton, EventRow.mark, next, eventFor_sealed ledger entry seq digit next printed]
  rfl

theorem fresh_marks (apart : ∀ mark ∈ ledger.events.map EventRow.mark,
      mark.1 ≠ seq ∧ mark.2.1 ≠ opId ∧ mark.2.2 ≠ String.ofList ['[', digit]) (other : EventRow)
    (member : other ∈ ledger.events) : other.seq ≠ (ledger.eventFor samplePlatform opId entry).seq ∧
      other.operationId ≠ opId ∧ other.eventSha256 ≠ (ledger.eventFor samplePlatform opId entry).eventSha256 := by
  rw [next, eventFor_sealed ledger entry seq digit next printed]
  exact apart other.mark (mem_map_of_mem member)

end Marks

theorem sample_capture :
    perform samplePlatform (sampleWorld clock) ⟨sampleService, .capture "e" "1"⟩ opening =
      .ok (.source ⟨"source-1", digest samplePlatform sampleEvidence.toJson⟩) ⟨capturedLedger, 0, 1⟩ := rfl

theorem captured_marks : capturedLedger.events.map EventRow.mark = [(1, "1", "[1")] := by
  rw [capturedLedger, marks_record _ _ 1 '1' rfl (by decide)]
  rfl

theorem sample_source {ledger : Ledger} {event : EventRow} (found : ledger.source? "source-1" = some sampleSource)
    (only : onlyRow (ledger.eventsOf .capture "source-1") = some event)
    (payload : event.payload = .capture "g" sampleEvidence) :
    sampleService.verifier.source samplePlatform samplePort.steady ledger "source-1" false = .ok sampleSource := by
  simp only [Verifier.source, bind_ok, expect_ok, require_ok, Verifier.actor]
  refine ⟨sampleSource, found, (), by decide, sampleEvidence, rfl, (), ⟨rfl, rfl⟩, (),
    ⟨rfl, rfl, rfl, rfl, rfl, rfl, rfl, rfl, rfl, rfl⟩, event, only, some "g", ?_, ?_⟩
  · rw [payload]
    simp only [captureGeneration, bind_ok, require_ok, pure_ok]
    exact ⟨(), rfl, (), ⟨by decide, by decide, rfl, rfl⟩, trivial⟩
  · rw [if_neg (by decide), bind_ok]
    exact ⟨(), rfl, rfl⟩

theorem sampleValues_money : money sampleValues = .ok sampleValues := by decide +kernel

theorem sample_observe :
    sampleService.observe samplePlatform capturedLedger "source-1" "o" 0 none none none = .ok sampleObserved := by
  simp only [Service.observe, Service.expected, Service.basis, bind_ok, expect_ok, require_ok, pure_ok,
    Verifier.actor]
  refine ⟨sampleExpected, ?_, sampleObserved.observation, rfl, (), ⟨rfl, rfl⟩, (), ⟨rfl, rfl, rfl⟩, (), rfl, sampleValues,
    rfl, sampleValues, sampleValues_money, rfl⟩
  refine ⟨sampleSource, sample_source rfl rfl rfl, (none, none), ?_, "2026-01-01", rfl, _, rfl, rfl⟩
  exact ⟨(), rfl, (), rfl, (), by simp [capturedLedger, Ledger.record, Ledger.empty, Entry.facts], rfl⟩

theorem sample_propose (storable : -(2 ^ 63) ≤ clock 0 ∧ clock 0 < 2 ^ 63) :
    perform samplePlatform (sampleWorld clock) ⟨sampleService, .propose "source-1" "o" 0 "2" none⟩ ⟨capturedLedger, 0, 1⟩ =
      .ok (.proposal ⟨"proposal-1", "source-1", 1, (sampleProposal clock).proposalSha256⟩)
        ⟨proposedLedger clock, 1, 2⟩ := by
  rw [perform, transaction_returns, Service.body, map_returns]
  refine ⟨_, ?_, rfl⟩
  simp only [Service.proposeWithin, bind_returns, reading_returns, pure_ok]
  refine ⟨none, _, ⟨rfl, rfl⟩, ?_⟩
  simp only [bind_returns, reading_returns, freshId_returns, now_returns, writing_returns, event_returns, pure_returns,
    pure_ok, Ledger.insertProposal, requireStorable, bind_ok, require_ok, insertEvent_ok]
  refine ⟨sampleObserved, _, ⟨sample_observe, rfl⟩, 1, _, ⟨rfl, rfl⟩, "proposal-1", _, ⟨rfl, rfl⟩, clock 0, _, ⟨rfl, rfl⟩,
    (), _, ⟨_, ⟨(), storable, (), by simp [capturedLedger, Ledger.record, Ledger.empty, Entry.proposals], rfl⟩, rfl⟩,
    2, _, ⟨rfl, _, ⟨by decide, ?_, rfl⟩, rfl⟩, rfl, rfl⟩
  apply fresh_marks capturedLedger (.proposed (sampleProposal clock)) 2 '2' rfl (by decide)
  rw [captured_marks]
  decide

theorem proposed_marks : (proposedLedger clock).events.map EventRow.mark = [(1, "1", "[1"), (2, "2", "[2")] := by
  rw [proposedLedger, marks_record _ _ 2 '2' rfl (by decide), captured_marks]
  rfl

/-- The services of the sample. -/
def IsSample (service : Service) : Prop := service = sampleService

theorem sample_steady (service : Service) (sample : IsSample service) : service.answers = samplePort.steady := by
  rw [sample]
  rfl

variable (storable : -(2 ^ 63) ≤ clock 0 ∧ clock 0 < 2 ^ 63)
include storable

theorem proposed_reachable : (proposedLedger clock).Reachable samplePlatform (sampleWorld clock) IsSample := by
  have captured : Ledger.empty.Grown samplePlatform (sampleWorld clock) IsSample capturedLedger :=
    (perform_extends (sample_capture clock)).grown rfl
  exact captured.trans ((perform_extends (sample_propose clock storable)).grown rfl)

theorem sample_reviewable :
    sampleService.reviewable samplePlatform (proposedLedger clock) "proposal-1" 1 = .ok (sampleProposal clock) := by
  simp only [Service.reviewable, bind_ok, expect_ok, require_ok, pure_ok]
  refine ⟨sampleProposal clock, rfl, sampleExpected, ?_, _, sample_source rfl rfl rfl, (), rfl, rfl⟩
  have sourced : sampleSource ∈ (proposedLedger clock).sources := mem_singleton.mpr rfl
  exact (proposed_reachable clock storable).proposal_verified sample_steady (mem_singleton.mpr rfl) sourced rfl
    ⟨rfl, rfl⟩

omit storable

theorem sample_review (storable : ∀ reading < 4, -(2 ^ 63) ≤ clock reading ∧ clock reading < 2 ^ 63) :
    perform samplePlatform (sampleWorld clock) ⟨sampleService, .prepareReview "proposal-1" 1⟩
        ⟨proposedLedger clock, 1, 2⟩ =
      .ok (.review (reviewDto (reviewedLedger clock) (sampleReview clock))) ⟨reviewedLedger clock, 4, 3⟩ := by
  rw [perform, transaction_returns, Service.body, map_returns]
  refine ⟨_, ?_, rfl⟩
  simp only [Service.reviewWithin, bind_returns, reading_returns, pure_ok]
  refine ⟨sampleProposal clock, _, ⟨sample_reviewable clock (storable 0 (by decide)), rfl⟩, none, _, ⟨rfl, rfl⟩, ?_⟩
  simp only [bind_returns, reading_returns, freshId_returns, now_returns, writing_returns, event_returns, pure_returns,
    Ledger.insertReview, requireStorable, bind_ok, require_ok, insertEvent_ok, pure_ok]
  refine ⟨(), _, ⟨rfl, rfl⟩, "review-1", _, ⟨rfl, rfl⟩, clock 1, _, ⟨rfl, rfl⟩, clock 2, _, ⟨rfl, rfl⟩, clock 3, _,
    ⟨rfl, rfl⟩, (), _, ⟨_, ⟨(), storable 3 (by decide), (), forall_mem_nil _, rfl⟩, rfl⟩,
    3, _, ⟨rfl, _, ⟨by decide, ?_, rfl⟩, rfl⟩, rfl, rfl⟩
  apply fresh_marks (proposedLedger clock) (.reviewed (sampleReview clock)) 3 '3' rfl (by decide)
  rw [proposed_marks]
  decide

theorem reviewed_marks : (reviewedLedger clock).events.map EventRow.mark =
    [(1, "1", "[1"), (2, "2", "[2"), (3, "prepare-review-1", "[3")] := by
  rw [reviewedLedger, marks_record _ _ 3 '3' rfl (by decide), proposed_marks]
  rfl

theorem sample_deliver :
    perform samplePlatform (sampleWorld clock) ⟨sampleService, .recordDelivery "review-1" "d"⟩
        ⟨reviewedLedger clock, 4, 3⟩ =
      .ok (.review (reviewDto (deliveredLedger clock) (sampleReview clock))) ⟨deliveredLedger clock, 4, 3⟩ := by
  rw [perform, transaction_returns, Service.body, map_returns]
  refine ⟨_, ?_, rfl⟩
  simp only [Service.recordDelivery, bind_returns, raising_returns, reading_returns, expect_ok, require_ok,
    Verifier.actor, pure_ok]
  refine ⟨sampleReview clock, _, ⟨rfl, rfl⟩, (sampleDelivery clock).material, _, ⟨rfl, rfl⟩, (), _, ⟨⟨rfl, rfl⟩, rfl⟩, (), _,
    ⟨⟨rfl, rfl, rfl⟩, rfl⟩, none, _, ⟨rfl, rfl⟩, ?_⟩
  simp only [bind_returns, writing_returns, event_returns, reading_returns, Ledger.insertDelivery, bind_ok,
    require_ok, insertEvent_ok, pure_ok]
  refine ⟨(), _, ⟨_, ⟨(), forall_mem_nil _, rfl⟩, rfl⟩, 4, _, ⟨rfl, _, ⟨by decide, ?_, rfl⟩, rfl⟩, rfl, rfl⟩
  apply fresh_marks (reviewedLedger clock) (.delivered (sampleDelivery clock)) 4 '4' rfl (by decide)
  rw [reviewed_marks]
  decide

theorem delivered_marks : (deliveredLedger clock).events.map EventRow.mark =
    [(1, "1", "[1"), (2, "2", "[2"), (3, "prepare-review-1", "[3"), (4, "delivery-d", "[4")] := by
  rw [deliveredLedger, marks_record _ _ 4 '4' rfl (by decide), reviewed_marks]
  rfl

/-- A clock that stands still. -/
def frozen : ℕ → ℤ := fun _ => 100

theorem frozen_storable (reading : ℕ) : -(2 ^ 63) ≤ frozen reading ∧ frozen reading < 2 ^ 63 := by
  simp only [frozen]
  decide

def sampleFact : FactRow :=
  ⟨"record-1", 1, "key", "source-1", "review-1", sampleValues, none,
    digest samplePlatform (factMaterial "record-1" 1 "key" "source-1" sampleValues none), 5⟩

def sampleDecision : DecisionRow :=
  ⟨"a", "review-1", "5", "record-1", 1,
    ⟨"a", "review-1", (sampleReview frozen).reviewSha256, "d", "p", "c", "confirm"⟩⟩

def confirmedLedger : Ledger :=
  (deliveredLedger frozen).record samplePlatform "5" (.committed sampleFact sampleDecision 100)

theorem delivered_reachable : (deliveredLedger frozen).Reachable samplePlatform (sampleWorld frozen) IsSample := by
  have reviewed : (proposedLedger frozen).Grown samplePlatform (sampleWorld frozen) IsSample (reviewedLedger frozen) :=
    (perform_extends (sample_review frozen fun reading _ => frozen_storable reading)).grown rfl
  have delivered : (reviewedLedger frozen).Grown samplePlatform (sampleWorld frozen) IsSample (deliveredLedger frozen) :=
    (perform_extends (sample_deliver frozen)).grown rfl
  exact (proposed_reachable frozen (frozen_storable 0)).trans (reviewed.trans delivered)

theorem sample_verifyReview : verifyReview samplePlatform sampleService.verifier samplePort.steady (deliveredLedger frozen)
    (sampleReview frozen) = .ok (sampleExpected, some (sampleDelivery frozen)) := by
  have reviewed : sampleReview frozen ∈ (deliveredLedger frozen).reviews := mem_singleton.mpr rfl
  have proposed : sampleProposal frozen ∈ (deliveredLedger frozen).proposals := mem_singleton.mpr rfl
  have sourced : sampleSource ∈ (deliveredLedger frozen).sources := mem_singleton.mpr rfl
  apply delivered_reachable.review_verified sample_steady reviewed proposed rfl sourced rfl ⟨rfl, rfl⟩
  refine ⟨rfl, by decide, ?_⟩
  intro delivery found
  have same : sampleDelivery frozen = delivery := some.inj found
  subst same
  exact ⟨rfl, rfl, rfl⟩

theorem sample_accept : sampleService.accept samplePlatform (deliveredLedger frozen) (sampleReview frozen) "a" 100 =
    .ok ⟨sampleSource, sampleDecision.material⟩ := by
  simp only [Service.accept, bind_ok, expect_ok, require_ok, pure_ok, Verifier.actor]
  exact ⟨(), ⟨rfl, rfl, by decide, by decide⟩, sampleProposal frozen, rfl, sampleSource, sample_source rfl rfl rfl, (), rfl,
    sampleDelivery frozen, rfl, sampleDecision.material, rfl, (), ⟨rfl, rfl⟩, (), ⟨rfl, rfl, rfl, rfl, rfl⟩, rfl⟩

theorem sample_nextFact : nextFact samplePlatform (deliveredLedger frozen) (sampleReview frozen) sampleSource "record-1" =
    .ok fun seq => { sampleFact with commitSeq := seq } := by
  simp only [nextFact, bind_ok, require_ok, pure_ok]
  exact ⟨(), rfl, (), fun _ => forall_mem_nil _, sampleValues, sampleValues_money, rfl⟩

theorem sample_confirm :
    perform samplePlatform (sampleWorld frozen) ⟨sampleService, .confirm "review-1" "a" "5"⟩
        ⟨deliveredLedger frozen, 4, 3⟩ = .ok (.receipt sampleFact.receipt) ⟨confirmedLedger, 5, 4⟩ := by
  rw [perform, transaction_returns, Service.body, map_returns]
  refine ⟨_, ?_, rfl⟩
  simp only [Service.confirm, bind_returns, reading_returns, pure_ok]
  refine ⟨none, _, ⟨rfl, rfl⟩, ?_⟩
  simp only [bind_returns, reading_returns, now_returns, writing_returns, event_returns, pure_returns, expect_ok,
    Ledger.insertFact, Ledger.insertDecision, bind_ok, require_ok, insertEvent_ok, pure_ok]
  refine ⟨sampleReview frozen, _, ⟨rfl, rfl⟩, _, _, ⟨sample_verifyReview, rfl⟩, 100, _, ⟨rfl, rfl⟩, _, _,
    ⟨sample_accept, rfl⟩, "record-1", _, rfl, _, _, ⟨sample_nextFact, rfl⟩, 5, _, ⟨rfl, _, ⟨by decide, ?_, rfl⟩, rfl⟩, (),
    _, ⟨_, ⟨(), ⟨rfl, fun more => absurd more (by decide)⟩, (), forall_mem_nil _, (), by decide, rfl⟩, rfl⟩, (), _,
    ⟨_, ⟨(), forall_mem_nil _, rfl⟩, rfl⟩, rfl, rfl⟩
  apply fresh_marks (deliveredLedger frozen) (.committed sampleFact sampleDecision 100) 5 '5' rfl (by decide)
  rw [delivered_marks]
  decide

/-- A capture that is proposed, reviewed, delivered and confirmed. -/
def sampleRequests : List Request :=
  [⟨sampleService, .capture "e" "1"⟩, ⟨sampleService, .propose "source-1" "o" 0 "2" none⟩,
    ⟨sampleService, .prepareReview "proposal-1" 1⟩, ⟨sampleService, .recordDelivery "review-1" "d"⟩,
    ⟨sampleService, .confirm "review-1" "a" "5"⟩]

theorem sessionAt_delivered :
    sessionAt samplePlatform (sampleWorld frozen) sampleRequests 4 = ⟨deliveredLedger frozen, 4, 3⟩ := by
  rw [sessionAt_succ _ _ rfl, sessionAt_succ _ _ rfl, sessionAt_succ _ _ rfl, sessionAt_succ _ _ rfl]
  change next _ (next _ (next _ (next _ opening _) _) _) _ = _
  rw [next_of_ok (sample_capture frozen), next_of_ok (sample_propose frozen (frozen_storable 0)),
    next_of_ok (sample_review frozen fun reading _ => frozen_storable reading), next_of_ok (sample_deliver frozen)]

theorem sessionAt_confirmed :
    sessionAt samplePlatform (sampleWorld frozen) sampleRequests 5 = ⟨confirmedLedger, 5, 4⟩ := by
  rw [sessionAt_succ _ _ rfl, sessionAt_delivered]
  exact next_of_ok sample_confirm

theorem sample_commits : CommitsAt samplePlatform (sampleWorld frozen) sampleRequests 4 sampleService "review-1" "a" "5"
    sampleFact where
  called := rfl
  returned := by
    rw [sessionAt_delivered, sessionAt_confirmed]
    exact sample_confirm
  added := by
    rw [sessionAt_delivered, sessionAt_confirmed]
    rfl

theorem sampleRequests_steady : Steady samplePort sampleRequests := by
  intro request member
  simp only [sampleRequests, mem_cons, not_mem_nil, or_false] at member
  rcases member with rfl | rfl | rfl | rfl | rfl <;> rfl

/-- The sample commits its fact, and its confirmation can be repeated. -/
theorem confirm_exactly_once_sample :
    Steady samplePort sampleRequests ∧
    CommitsAt samplePlatform (sampleWorld frozen) sampleRequests 4 sampleService "review-1" "a" "5" sampleFact ∧
    perform samplePlatform (sampleWorld frozen) ⟨sampleService, .confirm "review-1" "a" "5"⟩
        (sessionAt samplePlatform (sampleWorld frozen) sampleRequests 5) =
      .ok (.receipt sampleFact.receipt) (sessionAt samplePlatform (sampleWorld frozen) sampleRequests 5) :=
  ⟨sampleRequests_steady, sample_commits,
    ((confirm_exactly_once samplePlatform (sampleWorld frozen) sampleRequests).2.1 4 5 sampleService "review-1" "a" "5"
      sampleFact sample_commits (by decide)).1 samplePort sampleService sampleRequests_steady rfl rfl⟩

/-- A service of another generation repeats the committed confirmation of the sample and is refused. -/
theorem confirm_refused_for_other_generation :
    CommitsAt samplePlatform (sampleWorld frozen) sampleRequests 4 sampleService "review-1" "a" "5" sampleFact ∧
    ∃ failure after, perform samplePlatform (sampleWorld frozen)
        ⟨⟨otherBinding, samplePort.steady⟩, .confirm "review-1" "a" "5"⟩
        (sessionAt samplePlatform (sampleWorld frozen) sampleRequests 5) = .error failure after :=
  ⟨sample_commits, sample_commits.refuses (by decide) (.inr (.inr (by decide)))⟩

end Sample

end FinanceCore.LifecycleV2

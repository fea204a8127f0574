import FinanceCore.LifecycleV2.StoredTables

namespace FinanceCore.LifecycleV2.Stored

open Exceptions Json Sorting Tables List

variable {codec : Codec} {tables : LedgerTables} {events : List EventRow} {event : EventRow}

/-- The events count from a number on, each with its hash over the hash before it. -/
def Chained (codec : Codec) : ℤ → Option String → List EventRow → Prop
  | _, _, [] => True
  | seq, previous, row :: rest =>
    row.seq = seq ∧ row.previousSha256 = previous ∧ (∃ payload, codec.loads row.payloadJson = .ok payload ∧
        codec.digest (eventBody row payload previous) = .ok row.eventSha256) ∧
      Chained codec (seq + 1) (some row.eventSha256) rest

/-- An audited list of events is a chain. -/
theorem chained_of_audit {tail final : ChainTail} (done : events.foldlM (auditEvent codec) tail = .ok final) :
    Chained codec tail.expectedSeq tail.previous events := by
  induction events generalizing tail with
  | nil => trivial
  | cons row rest ih =>
    rw [foldlM_cons, bind_ok] at done
    obtain ⟨next, checked, later⟩ := done
    simp only [auditEvent, bind_ok, require_ok, pure_ok] at checked
    obtain ⟨payload, loaded, sha, digested, _, ⟨seq, previous, same⟩, rfl⟩ := checked
    rw [← same] at digested
    exact ⟨seq, previous, ⟨payload, loaded, digested⟩, ih later⟩

theorem onlyRow_eq_some {α : Type} {rows : List α} {row : α} : onlyRow rows = some row ↔ rows = [row] := by
  unfold onlyRow
  split <;> simp_all

theorem mem_of_only {α : Type} {rows : List α} {holds : α → Prop} [DecidablePred holds] {row : α}
    (only : (rows.filter fun other => holds other) = [row]) : row ∈ rows ∧ holds row := by
  have member : row ∈ rows.filter fun other => holds other := by rw [only]; exact mem_singleton_self row
  simpa using member

section Material

variable (codec : Codec)

section

variable (event : EventRow)

/-- A capture event retains its source, as it is or with its generation. -/
def Captures (row : SourceRow) : Prop :=
  event.entityId = row.sourceId ∧ codec.digest row.evidence.toJson = .ok row.sourceSha256 ∧ ∃ payload,
    codec.loads event.payloadJson = .ok payload ∧
      (canonicalText payload = canonicalText row.evidence.toJson ∨ payload.field "generation" = .text row.generation ∧
          canonicalText (payload.field "source") = canonicalText row.evidence.toJson)

/-- A propose event retains its proposal. -/
def Proposes (row : ProposalRow) : Prop :=
  event.entityId = row.proposalId ∧ ∃ payload expected, codec.loads event.payloadJson = .ok payload ∧
    proposalMaterial codec row = .ok expected ∧ agrees codec.floatNumber payload expected = true ∧
    codec.digest payload = .ok row.proposalSha256

/-- A review event retains its review. -/
def Reviews (row : ReviewRow) : Prop :=
  event.entityId = row.reviewId ∧ event.payloadJson = row.materialJson

/-- A delivery event retains its delivery. -/
def Delivers (row : DeliveryRow) : Prop :=
  event.entityId = row.reviewId ∧ event.payloadJson = row.materialJson ∧ ∃ payload,
    codec.loads event.payloadJson = .ok payload ∧ payload.field "review_id" = .text row.reviewId ∧
    payload.field "evidence_id" = .text row.evidenceId

end

/-- A confirm event retains its fact and its decision. -/
structure Commits (event : EventRow) (fact : FactRow) (decision : DecisionRow) : Prop where
  seq : event.seq = fact.commitSeq
  operation : event.operationId = decision.operationId
  record : event.entityId = fact.recordId ∧ decision.recordId = fact.recordId
  version : decision.version = fact.version
  review : fact.reviewId = some decision.reviewId
  retained : ∃ payload, codec.loads event.payloadJson = .ok payload ∧
    payload.field "version" = .integer fact.version ∧ payload.field "fact_sha256" = .text fact.factSha256 ∧
    payload.field "review_id" = .text decision.reviewId ∧
    canonicalText (payload.field "action") = .ok decision.materialJson ∧
    (payload.field "action").field "evidence_id" = .text decision.actionEvidenceId ∧
    (payload.field "action").field "review_id" = .text decision.reviewId

/-- An import event retains its fact. -/
structure Imports (event : EventRow) (fact : FactRow) : Prop where
  seq : event.seq = fact.commitSeq
  record : event.entityId = fact.recordId
  review : fact.reviewId = none
  retained : ∃ payload, codec.loads event.payloadJson = .ok payload ∧
    agrees codec.floatNumber (payload.field "version") (.integer fact.version) = true ∧
    payload.field "fact_sha256" = .text fact.factSha256

end Material

section Inventories

theorem integer?_eq_some {value : Value} {number : ℤ} : value.integer? = some number ↔ value = .integer number := by
  cases value <;> simp [Value.integer?]

variable {fact : FactRow}

/-- A confirm event that is accepted commits its fact and decision. -/
theorem exactConfirm_commits {decision : DecisionRow}
    (done : exactConfirmInventory codec tables event = .ok (fact, decision)) :
    fact ∈ tables.facts ∧ decision ∈ tables.decisions ∧ Commits codec event fact decision := by
  simp only [exactConfirmInventory, bind_ok, expect_ok, require_ok, pure_ok, onlyRow_eq_some,
    integer?_eq_some, requireDict, Prod.mk.injEq] at done
  obtain ⟨payload, loaded, _, _, _, _, version, number, _, _, _, _, found, onlyFact, decided, onlyDecision, _, checked,
    material, written, _, same, rfl, rfl⟩ := done
  obtain ⟨_, entity, counted, sha, review, record, versions, reviewed, evidence, action⟩ := checked
  have factMember := mem_of_only onlyFact
  have decisionMember := mem_of_only onlyDecision
  rw [← reviewed] at review action
  rw [counted] at number
  rw [same] at written
  exact ⟨factMember.1, decisionMember.1, factMember.2.symm, decisionMember.2.symm, ⟨entity, record⟩, versions,
    reviewed.symm, payload, loaded, number, sha, review, written, evidence, action⟩

/-- An import event that is accepted imports its fact. -/
theorem exactImport_imports (done : exactImportInventory codec tables event = .ok fact) :
    fact ∈ tables.facts ∧ Imports codec event fact := by
  simp only [exactImportInventory, bind_ok, expect_ok, require_ok, pure_ok, onlyRow_eq_some,
    requireDict] at done
  obtain ⟨payload, loaded, found, only, _, _, _, ⟨version, sha, entity, review⟩, _, _, rfl⟩ := done
  have member := mem_of_only only
  exact ⟨member.1, member.2.symm, entity, review, payload, loaded, version, sha⟩

/-- A capture event that is accepted captures a native source. -/
theorem requireSource_captures (done : requireSource codec tables event = .ok ()) :
    ∃ row ∈ tables.nativeSources, Captures codec event row := by
  simp only [requireSource, captureGeneration, bind_ok, expect_ok, require_ok] at done
  obtain ⟨row, found, _, native, payload, loaded, text, written, _, _, sha, digested, _, same, source, shown, rest⟩ := done
  obtain ⟨member, named⟩ := find?_key found
  rw [← same] at digested
  refine ⟨row, mem_filter.mpr ⟨member, by simpa using native⟩, named.symm, digested, payload, loaded, ?_⟩
  split_ifs at rest with plain
  · left
    rw [written, shown, plain]
  · right
    simp only [bind_ok, require_ok] at rest
    obtain ⟨_, ⟨_, _, _, generation, _⟩, retained, kept, equal⟩ := rest
    rw [kept, shown, equal]
    exact ⟨generation, rfl⟩

/-- A propose event that is accepted proposes its row. -/
theorem requireProposal_proposes (done : requireProposal codec tables event = .ok ()) :
    ∃ row ∈ tables.proposals, Proposes codec event row := by
  simp only [requireProposal, bind_ok, expect_ok, require_ok] at done
  obtain ⟨payload, loaded, row, found, expected, built, sha, digested, equal, same⟩ := done
  obtain ⟨member, named⟩ := find?_key found
  rw [same] at digested
  exact ⟨row, member, named.symm, payload, expected, loaded, built, equal, digested⟩

/-- A review event that is accepted reviews its row. -/
theorem requireReview_reviews (done : requireReview tables event = .ok ()) :
    ∃ row ∈ tables.reviews, Reviews event row := by
  simp only [requireReview, bind_ok, expect_ok, require_ok] at done
  obtain ⟨row, found, same⟩ := done
  obtain ⟨member, named⟩ := find?_key found
  exact ⟨row, member, named.symm, same⟩

/-- A delivery event that is accepted delivers its row. -/
theorem requireDelivery_delivers (done : requireDelivery codec tables event = .ok ()) :
    ∃ row ∈ tables.deliveries, Delivers codec event row := by
  simp only [requireDelivery, bind_ok, expect_ok, require_ok] at done
  obtain ⟨payload, loaded, row, found, _, same, _, _, review, evidence⟩ := done
  obtain ⟨member, named⟩ := find?_key found
  rw [← named] at review
  exact ⟨row, member, named.symm, same, payload, loaded, review, evidence⟩

end Inventories

section Counting

/-- The kinds whose events own one row. -/
def ownedKinds : List String := ["capture", "propose", "review", "delivery"]

/-- The entities that the events name, for the kinds that own a row. -/
def ownedEntities (events : List EventRow) : List (String × String) :=
  (events.filter fun event => event.kind ∈ ownedKinds).map EventRow.owned

variable {seen final : List (String × String)}

theorem countEntity_eq_ok {check : Except AuditFailure Unit} :
    countEntity seen event check = .ok final ↔ event.owned ∉ seen ∧ check = .ok () ∧
      event.owned :: seen = final := by
  simp only [countEntity, bind_ok, require_ok, pure_ok]
  constructor
  · rintro ⟨_, fresh, _, checked, same⟩
    exact ⟨fresh, checked, same⟩
  · rintro ⟨fresh, checked, same⟩
    exact ⟨(), fresh, (), checked, same⟩

/-- What the count of one event has checked. -/
structure Checked (codec : Codec) (tables : LedgerTables) (event : EventRow) : Prop where
  capture : event.kind = "capture" → ∃ row ∈ tables.nativeSources, Captures codec event row
  propose : event.kind = "propose" → ∃ row ∈ tables.proposals, Proposes codec event row
  review : event.kind = "review" → ∃ row ∈ tables.reviews, Reviews event row
  delivery : event.kind = "delivery" → ∃ row ∈ tables.deliveries, Delivers codec event row
  confirm : event.kind = "confirm" → ∃ fact ∈ tables.facts, ∃ decision ∈ tables.decisions, Commits codec event fact decision
  imported : event.kind = "import" → ∃ fact ∈ tables.facts, Imports codec event fact

/-- An event that is counted is checked, and owns its row alone. -/
theorem countOwned_checked (done : countOwned codec tables seen event = .ok final) :
    Checked codec tables event ∧ (event.kind ∈ ownedKinds → event.owned ∉ seen ∧ final = event.owned :: seen) ∧
      (event.kind ∉ ownedKinds → final = seen) := by
  unfold countOwned at done
  split_ifs at done with confirm imported archive capture propose review delivery
  · simp only [bind_ok, pure_ok] at done
    obtain ⟨⟨fact, decision⟩, exact_, rfl⟩ := done
    obtain ⟨factMember, decisionMember, commits⟩ := exactConfirm_commits exact_
    refine ⟨?_, by simp [confirm, ownedKinds], fun _ => rfl⟩
    constructor <;> simp [confirm]
    exact ⟨fact, factMember, decision, decisionMember, commits⟩
  · simp only [bind_ok, pure_ok] at done
    obtain ⟨fact, exact_, rfl⟩ := done
    obtain ⟨factMember, imports⟩ := exactImport_imports exact_
    refine ⟨?_, by simp [imported, ownedKinds], fun _ => rfl⟩
    constructor <;> simp [imported]
    exact ⟨fact, factMember, imports⟩
  · simp only [bind_ok, pure_ok] at done
    obtain ⟨_, _, rfl⟩ := done
    refine ⟨?_, by simp [archive, ownedKinds], fun _ => rfl⟩
    constructor <;> simp [archive]
  all_goals
    rw [countEntity_eq_ok] at done
    obtain ⟨fresh, checked, rfl⟩ := done
    refine ⟨?_, fun _ => ⟨fresh, rfl⟩, by simp [*, ownedKinds]⟩
  · constructor <;> simp [capture, requireSource_captures checked]
  · constructor <;> simp [propose, requireProposal_proposes checked]
  · constructor <;> simp [review, requireReview_reviews checked]
  · constructor <;> simp [delivery, requireDelivery_delivers checked]

/-- The count of all events has checked each of them and has met each entity once. -/
theorem counted_checked (done : events.foldlM (countOwned codec tables) seen = .ok final)
    (distinct : seen.Nodup) :
    (∀ event ∈ events, Checked codec tables event) ∧ final = (ownedEntities events).reverse ++ seen ∧ final.Nodup := by
  induction events generalizing seen with
  | nil =>
    rw [foldlM_nil, pure_ok] at done
    subst done
    exact ⟨forall_mem_nil _, rfl, distinct⟩
  | cons event rest ih =>
    rw [foldlM_cons, bind_ok] at done
    obtain ⟨next, counted, later⟩ := done
    obtain ⟨checked, owned, other⟩ := countOwned_checked counted
    by_cases kind : event.kind ∈ ownedKinds
    · obtain ⟨fresh, rfl⟩ := owned kind
      obtain ⟨others, same, nodup⟩ := ih later (nodup_cons.mpr ⟨fresh, distinct⟩)
      refine ⟨forall_mem_cons.mpr ⟨checked, others⟩, ?_, nodup⟩
      rw [same, ownedEntities, ownedEntities, filter_cons_of_pos (by simpa using kind)]
      simp
    · rw [other kind] at later
      obtain ⟨others, same, nodup⟩ := ih later distinct
      refine ⟨forall_mem_cons.mpr ⟨checked, others⟩, ?_, nodup⟩
      rw [same, ownedEntities, ownedEntities, filter_cons_of_neg (by simpa using kind)]

/-- Rows with an event each, and events with a row each, correspond. -/
theorem owned_pairs {ρ : Type} {kind : String} (owned : kind ∈ ownedKinds) {rows : List ρ}
    {key : ρ → String} {related : EventRow → ρ → Prop} (keyed : Keyed key rows)
    (named : ∀ event row, related event row → event.entityId = key row)
    (checked : ∀ event ∈ events, event.kind = kind → ∃ row ∈ rows, related event row)
    (distinct : (ownedEntities events).Nodup) (covers : (rows.map key).toFinset =
      (((ownedEntities events).filter fun entity => entity.1 = kind).map Prod.snd).toFinset) :
    OneToOne related (events.filter fun event => event.kind = kind) rows := by
  have tags : Keyed EventRow.entityId (events.filter fun event => event.kind = kind) := by
    have inside : (events.filter fun event => event.kind = kind).Sublist
        (events.filter fun event => event.kind ∈ ownedKinds) := by
      apply monotone_filter_right
      intro event same
      rw [decide_eq_true_iff] at same
      simpa [same] using owned
    have entities : Keyed EventRow.owned (events.filter fun event => event.kind = kind) :=
      distinct.sublist (inside.map _)
    apply List.Nodup.map_on _ entities.of_map
    intro first member second other same
    rw [mem_filter, decide_eq_true_iff] at member other
    apply entities.injective (mem_filter.mpr ⟨member.1, by simpa using member.2⟩)
      (mem_filter.mpr ⟨other.1, by simpa using other.2⟩)
    rw [EventRow.owned, EventRow.owned, member.2, other.2, same]
  apply oneToOne_of_keys tags keyed named
  · intro event member
    rw [mem_filter, decide_eq_true_iff] at member
    exact checked event member.1 member.2
  · intro row member
    have listed : key row ∈ (rows.map key).toFinset := mem_toFinset.mpr (mem_map_of_mem member)
    rw [covers, mem_toFinset, mem_map] at listed
    obtain ⟨entity, inside, same⟩ := listed
    rw [mem_filter, decide_eq_true_iff] at inside
    obtain ⟨event, known, rfl⟩ := mem_map.mp inside.1
    exact ⟨event, mem_filter.mpr ⟨(mem_filter.mp known).1, decide_eq_true inside.2⟩, same⟩

end Counting

/-- A counted version was committed by one of the events. -/
theorem committed_of_counted {seen final : List ℤ}
    (done : events.foldlM (countCommit codec tables) seen = .ok final) {version : ℤ}
    (member : version ∈ final) :
    version ∈ seen ∨ ∃ event ∈ events, committedVersion codec tables event = .ok version := by
  induction events generalizing seen with
  | nil =>
    rw [foldlM_nil, pure_ok] at done
    left
    rw [done]
    exact member
  | cons event rest ih =>
    rw [foldlM_cons, bind_ok] at done
    obtain ⟨next, counted, later⟩ := done
    simp only [countCommit, bind_ok, require_ok, pure_ok] at counted
    obtain ⟨found, committed, _, _, rfl⟩ := counted
    rcases ih later with old | ⟨other, inside, same⟩
    · rw [mem_cons] at old
      rcases old with rfl | older
      · right
        exact ⟨event, mem_cons_self, committed⟩
      · left
        exact older
    · right
      exact ⟨other, mem_cons_of_mem event inside, same⟩

/-- Every version of an audited record has the event that committed or imported it. -/
theorem fact_event (schema : tables.Schema) {fact : FactRow} (member : fact ∈ tables.facts)
    (done : auditRecordInventory codec tables fact.recordId = .ok ()) :
    (∃ event ∈ tables.events, event.kind = "confirm" ∧ ∃ decision ∈ tables.decisions, Commits codec event fact decision) ∨
      ∃ event ∈ tables.events, event.kind = "import" ∧ Imports codec event fact := by
  simp only [auditRecordInventory, bind_ok, require_ok] at done
  obtain ⟨seen, counted, _, versions, _⟩ := done
  have listed : fact.version ∈
      ((tables.facts.filter fun row => row.recordId = fact.recordId).map FactRow.version).toFinset := by
    rw [mem_toFinset]
    exact mem_map_of_mem (mem_filter.mpr ⟨member, by simp⟩)
  rw [versions, mem_toFinset] at listed
  rcases committed_of_counted counted listed with none | ⟨event, inside, committed⟩
  · cases none
  rw [mem_filter, decide_eq_true_iff] at inside
  obtain ⟨known, entity, kind⟩ := inside
  unfold committedVersion at committed
  split_ifs at committed with confirmed
  · left
    simp only [bind_ok, pure_ok] at committed
    obtain ⟨⟨found, decision⟩, exact_, version⟩ := committed
    obtain ⟨factMember, decisionMember, commits⟩ := exactConfirm_commits exact_
    have same : found = fact := by
      apply schema.versions.injective factMember member
      exact Prod.ext (commits.record.1.symm.trans entity) version
    rw [same] at commits
    exact ⟨event, known, confirmed, decision, decisionMember, commits⟩
  · right
    simp only [bind_ok, pure_ok] at committed
    obtain ⟨found, exact_, version⟩ := committed
    obtain ⟨factMember, imports⟩ := exactImport_imports exact_
    have same : found = fact := by
      apply schema.versions.injective factMember member
      exact Prod.ext (imports.record.symm.trans entity) version
    rw [same] at imports
    exact ⟨event, known, kind.resolve_left confirmed, imports⟩

/-- Every decision of an audited record has its confirm event. -/
theorem decision_event {decision : DecisionRow} (member : decision ∈ tables.decisions)
    (done : auditRecordInventory codec tables decision.recordId = .ok ()) :
    ∃ event ∈ tables.events, event.kind = "confirm" ∧ ∃ fact ∈ tables.facts, Commits codec event fact decision := by
  simp only [auditRecordInventory, bind_ok, require_ok, forM_ok] at done
  obtain ⟨seen, _, _, _, decisions⟩ := done
  have checked := decisions decision (mem_filter.mpr ⟨member, by simp⟩)
  simp only [requireDecisionEvent, bind_ok, expect_ok, require_ok, onlyRow_eq_some] at checked
  obtain ⟨event, only, ⟨fact, found⟩, exact_, same, _⟩ := checked
  have inside := mem_of_only only
  obtain ⟨factMember, _, commits⟩ := exactConfirm_commits exact_
  have identical : found = decision := same
  rw [identical] at commits
  exact ⟨event, inside.1, inside.2.1, fact, factMember, commits⟩

/-- The versions that a review committed, and the imported ones. -/
def LedgerTables.nativeFacts (tables : LedgerTables) : List FactRow :=
  tables.facts.filter fun row => row.reviewId.isSome

def LedgerTables.importedFacts (tables : LedgerTables) : List FactRow :=
  tables.facts.filter fun row => row.reviewId.isNone

def LedgerTables.eventsOf (tables : LedgerTables) (kind : String) : List EventRow :=
  tables.events.filter fun event => event.kind = kind

/-- The events are numbered and chained, and they correspond to the rows of every table with their material. -/
structure Sound (codec : Codec) (tables : LedgerTables) : Prop where
  numbered : (sortOn EventRow.seq tables.events).map EventRow.seq =
    (List.range tables.events.length).map fun index : ℕ => (index : ℤ) + 1
  chained : Chained codec 1 none (sortOn EventRow.seq tables.events)
  captures : OneToOne (Captures codec) (tables.eventsOf "capture") tables.nativeSources
  proposes : OneToOne (Proposes codec) (tables.eventsOf "propose") tables.proposals
  reviews : OneToOne Reviews (tables.eventsOf "review") tables.reviews
  delivers : OneToOne (Delivers codec) (tables.eventsOf "delivery") tables.deliveries
  decides : OneToOne (fun event decision => ∃ fact ∈ tables.facts, Commits codec event fact decision)
    (tables.eventsOf "confirm") tables.decisions
  commits : OneToOne (fun event fact => ∃ decision ∈ tables.decisions, Commits codec event fact decision)
    (tables.eventsOf "confirm") tables.nativeFacts
  imports : OneToOne (Imports codec) (tables.eventsOf "import") tables.importedFacts

/-- A chain counts on from its first number. -/
theorem Chained.numbers {seq : ℤ} {previous : Option String}
    (chained : Chained codec seq previous events) :
    events.map EventRow.seq = (List.range events.length).map fun index : ℕ => (index : ℤ) + seq := by
  induction events generalizing seq previous with
  | nil => rfl
  | cons row rest ih =>
    obtain ⟨number, _, _, later⟩ := chained
    rw [map_cons, ih later, length_cons, range_succ_eq_map, map_cons, number, map_map]
    simp only [Nat.cast_zero, zero_add, List.cons.injEq, true_and]
    apply map_congr_left
    simp only [Function.comp_apply, Nat.succ_eq_add_one, Nat.cast_add, Nat.cast_one]
    omega

theorem ownedEntities_perm {first second : List EventRow} (perm : first.Perm second) :
    (ownedEntities first).Perm (ownedEntities second) := (perm.filter _).map _

/-- The audit accepts only sound tables. -/
theorem sound_of_audit (schema : tables.Schema) {summary : AuditSummary}
    (accepted : auditConnection codec tables = .ok summary) : Sound codec tables := by
  simp only [auditConnection, auditOwnedInventory, bind_ok, forM_ok] at accepted
  obtain ⟨tail, chain, _, ⟨seen, counted, _, captureKeys, _, proposeKeys, _, reviewKeys, _, deliveryKeys, records⟩, _⟩ :=
    accepted
  have chained := chained_of_audit chain
  have perm := perm_sortOn EventRow.seq tables.events
  obtain ⟨checkedSorted, final, nodup⟩ := counted_checked counted nodup_nil
  have entities := ownedEntities_perm perm
  have checked : ∀ event ∈ tables.events, Checked codec tables event := by
    intro event member
    exact checkedSorted event (mem_sortOn.mpr member)
  have distinct : (ownedEntities tables.events).Nodup := by
    rw [final, append_nil, nodup_reverse] at nodup
    exact entities.nodup_iff.mp nodup
  have covers : ∀ kind : String, ((seen.filter fun entity => entity.1 = kind).map Prod.snd).toFinset =
      (((ownedEntities tables.events).filter fun entity => entity.1 = kind).map Prod.snd).toFinset := by
    intro kind
    rw [final, append_nil]
    apply toFinset_eq_of_perm
    exact (((reverse_perm _).trans entities).filter _).map _
  simp only [requireOwnedKeys, require_ok, covers] at captureKeys proposeKeys reviewKeys deliveryKeys
  have recordOf : ∀ fact ∈ tables.facts, auditRecordInventory codec tables fact.recordId = .ok () := by
    intro fact member
    apply records
    rw [mem_dedup, mem_append]
    exact .inl (mem_map_of_mem member)
  have decisionOf : ∀ decision ∈ tables.decisions, auditRecordInventory codec tables decision.recordId = .ok () := by
    intro decision member
    apply records
    rw [mem_dedup, mem_append]
    exact .inr (mem_map_of_mem member)
  constructor
  · have numbers := chained.numbers
    rw [perm.length_eq] at numbers
    exact numbers
  · exact chained
  · exact owned_pairs (by decide) (schema.sources.filter _) (fun _ _ related => related.1)
      (fun event member kind => (checked event member).capture kind) distinct captureKeys
  · exact owned_pairs (by decide) schema.proposals (fun _ _ related => related.1)
      (fun event member kind => (checked event member).propose kind) distinct proposeKeys
  · exact owned_pairs (by decide) schema.reviews (fun _ _ related => related.1)
      (fun event member kind => (checked event member).review kind) distinct reviewKeys
  · exact owned_pairs (by decide) schema.deliveries (fun _ _ related => related.1)
      (fun event member kind => (checked event member).delivery kind) distinct deliveryKeys
  · apply oneToOne_of_keys (schema.operations.filter _) schema.decisions
    · rintro event decision ⟨fact, _, commits⟩
      exact commits.operation
    · intro event member
      rw [mem_filter, decide_eq_true_iff] at member
      obtain ⟨fact, held, decision, decided, commits⟩ := (checked event member.1).confirm member.2
      exact ⟨decision, decided, fact, held, commits⟩
    · intro decision member
      obtain ⟨event, known, kind, fact, _, commits⟩ := decision_event member (decisionOf decision member)
      exact ⟨event, mem_filter.mpr ⟨known, decide_eq_true kind⟩, commits.operation⟩
  · apply oneToOne_of_keys (schema.seqs.filter _) (schema.commits.filter _)
    · rintro event fact ⟨decision, _, commits⟩
      exact commits.seq
    · intro event member
      rw [mem_filter, decide_eq_true_iff] at member
      obtain ⟨fact, held, decision, decided, commits⟩ := (checked event member.1).confirm member.2
      refine ⟨fact, mem_filter.mpr ⟨held, ?_⟩, decision, decided, commits⟩
      rw [commits.review]
      rfl
    · intro fact member
      obtain ⟨held, native⟩ := mem_filter.mp member
      rcases fact_event schema held (recordOf fact held) with ⟨event, known, kind, _, _, commits⟩ | ⟨_, _, _, imports⟩
      · exact ⟨event, mem_filter.mpr ⟨known, decide_eq_true kind⟩, commits.seq⟩
      · rw [imports.review] at native
        cases native
  · apply oneToOne_of_keys (schema.seqs.filter _) (schema.commits.filter _)
    · intro event fact imports
      exact imports.seq
    · intro event member
      rw [mem_filter, decide_eq_true_iff] at member
      obtain ⟨fact, held, imports⟩ := (checked event member.1).imported member.2
      refine ⟨fact, mem_filter.mpr ⟨held, ?_⟩, imports⟩
      rw [imports.review]
      rfl
    · intro fact member
      obtain ⟨held, imported⟩ := mem_filter.mp member
      rcases fact_event schema held (recordOf fact held) with ⟨_, _, _, _, _, commits⟩ | ⟨event, known, kind, imports⟩
      · rw [commits.review] at imported
        cases imported
      · exact ⟨event, mem_filter.mpr ⟨known, decide_eq_true kind⟩, imports.seq⟩

/-- A row of one of the tables. -/
inductive TableRow where
  | source (row : SourceRow)
  | proposal (row : ProposalRow)
  | review (row : ReviewRow)
  | delivery (row : DeliveryRow)
  | fact (row : FactRow)
  | decision (row : DecisionRow)
  | event (row : EventRow)

/-- The kinds of events that correspond to rows. -/
def pairedKinds : List String := ["capture", "propose", "review", "delivery", "confirm", "import"]

/-- The rows that take part in the correspondences. -/
def LedgerTables.Pairs (tables : LedgerTables) : TableRow → Prop
  | .source row => row ∈ tables.nativeSources
  | .proposal row => row ∈ tables.proposals
  | .review row => row ∈ tables.reviews
  | .delivery row => row ∈ tables.deliveries
  | .fact row => row ∈ tables.facts
  | .decision row => row ∈ tables.decisions
  | .event row => row ∈ tables.events ∧ row.kind ∈ pairedKinds

/-- The tables without one row. -/
def LedgerTables.without (tables : LedgerTables) : TableRow → LedgerTables
  | .source row => { tables with sources := tables.sources.filter fun other => other ≠ row }
  | .proposal row => { tables with proposals := tables.proposals.filter fun other => other ≠ row }
  | .review row => { tables with reviews := tables.reviews.filter fun other => other ≠ row }
  | .delivery row => { tables with deliveries := tables.deliveries.filter fun other => other ≠ row }
  | .fact row => { tables with facts := tables.facts.filter fun other => other ≠ row }
  | .decision row => { tables with decisions := tables.decisions.filter fun other => other ≠ row }
  | .event row => { tables with events := tables.events.filter fun other => other ≠ row }

theorem LedgerTables.Schema.without (schema : tables.Schema)
    (row : TableRow) : (tables.without row).Schema := by
  obtain ⟨sources, proposals, reviews, deliveries, versions, commits, decisions, seqs, operations⟩ := schema
  cases row <;> constructor <;> first | assumption | (apply Keyed.filter; assumption)

theorem eventsOf_without (event : EventRow) (kind : String) :
    (tables.without (.event event)).eventsOf kind = (tables.eventsOf kind).filter fun other => other ≠ event :=
  filter_comm _ _ _

/-- Events without one of theirs do not correspond to the rows that all of them correspond to. -/
theorem event_missed {ρ : Type} {related : EventRow → ρ → Prop} {rows : List ρ}
    (member : event ∈ tables.events) {kind : String} (same : event.kind = kind)
    (whole : OneToOne related (tables.eventsOf kind) rows)
    (fewer : OneToOne related ((tables.without (.event event)).eventsOf kind) rows) : False := by
  rw [eventsOf_without] at fewer
  exact whole.symm.not_without (mem_filter.mpr ⟨member, decide_eq_true same⟩) fewer.symm

/-- Sound tables are not sound without one of the rows that correspond to an event, or without such an event. -/
theorem Sound.not_without (sound : Sound codec tables) {row : TableRow} (pairs : tables.Pairs row) :
    ¬ Sound codec (tables.without row) := by
  intro fewer
  cases row with
  | source row =>
    have native : (tables.without (.source row)).nativeSources = tables.nativeSources.filter fun other => other ≠ row :=
      filter_comm _ _ _
    have captures := fewer.captures
    rw [native] at captures
    exact sound.captures.not_without pairs captures
  | proposal row => exact sound.proposes.not_without pairs fewer.proposes
  | review row => exact sound.reviews.not_without pairs fewer.reviews
  | delivery row => exact sound.delivers.not_without pairs fewer.delivers
  | decision row => exact sound.decides.not_without pairs fewer.decides
  | fact row =>
    cases review : row.reviewId with
    | some reviewId =>
      have native : (tables.without (.fact row)).nativeFacts = tables.nativeFacts.filter fun other => other ≠ row :=
        filter_comm _ _ _
      have commits := fewer.commits
      rw [native] at commits
      exact sound.commits.not_without (mem_filter.mpr ⟨pairs, by rw [review]; rfl⟩) commits
    | none =>
      have imported : (tables.without (.fact row)).importedFacts =
          tables.importedFacts.filter fun other => other ≠ row := filter_comm _ _ _
      have imports := fewer.imports
      rw [imported] at imports
      exact sound.imports.not_without (mem_filter.mpr ⟨pairs, by rw [review]; rfl⟩) imports
  | event row =>
    obtain ⟨member, kind⟩ := pairs
    simp only [pairedKinds, mem_cons, not_mem_nil, or_false] at kind
    rcases kind with kind | kind | kind | kind | kind | kind
    · exact event_missed member kind sound.captures fewer.captures
    · exact event_missed member kind sound.proposes fewer.proposes
    · exact event_missed member kind sound.reviews fewer.reviews
    · exact event_missed member kind sound.delivers fewer.delivers
    · exact event_missed member kind sound.decides fewer.decides
    · exact event_missed member kind sound.imports fewer.imports

/-- Whatever the tables hold, an accepted audit means that the events are numbered, chained and in one-to-one
correspondence with the rows of every table, with equal material, and the audit of the tables without one of the rows
of these correspondences raises. -/
theorem audit_soundness (codec : Codec) (tables : LedgerTables) (schema : tables.Schema)
    (summary : AuditSummary) (accepted : auditConnection codec tables = .ok summary) :
    Sound codec tables ∧ ∀ row, tables.Pairs row →
      ∃ failure, auditConnection codec (tables.without row) = .error failure := by
  have sound := sound_of_audit schema accepted
  refine ⟨sound, ?_⟩
  intro row pairs
  cases audited : auditConnection codec (tables.without row) with
  | error failure => exact ⟨failure, rfl⟩
  | ok other => exact absurd (sound_of_audit (schema.without row) audited) (sound.not_without pairs)

/-- A checksum that stands for the digest. -/
def sampleSha256 (text : String) : String :=
  let step (sum : ℕ) (byte : UInt8) := (257 * sum + byte.toNat) % 1000003
  String.ofList (Text.natDigits (text.toByteArray.data.toList.foldl step 1))

def sampleCodec : Codec := ⟨sampleSha256, fun _ => none, fun _ => none⟩

def sampleValues : Value := .object [("amount", .text "5.00"), ("currency", .text "SGD")]

def sampleSource : SourceRow := ⟨"s", "key", "e", "p", "c", "coffee", "o", "467970", "g", 100⟩

def sampleObservation : Value := .object [("raw_response", .text "5.00 SGD")]

def sampleReviewed : Value := .object [("proposal_id", .text "proposal"), ("values", sampleValues)]

def sampleDelivered : Value := .object [("evidence_id", .text "d"), ("review_id", .text "review")]

def sampleAction : Value := .object [("evidence_id", .text "a"), ("review_id", .text "review")]

/-- A ledger with an imported record and a confirmed one. -/
def sampleTables : LedgerTables where
  sources := [sampleSource, ⟨"ls_1", "legacy:1", "x", "p", "c", "tea", "o", "", "g", 50⟩]
  proposals := [⟨"proposal", "s", 1, "o", 0, none, canonical sampleValues,
    canonical (.object [("observation", sampleObservation)]), "279948", 101⟩]
  reviews := [⟨"review", "proposal", 0, none, canonical sampleValues, canonical sampleReviewed, "150671", 102⟩]
  deliveries := [⟨"review", "d", canonical sampleDelivered⟩]
  facts := [⟨"lr_1", 1, "economic", "ls_1", none, canonical sampleValues, none, "507840", 2⟩,
    ⟨"record", 1, "economic", "s", some "review", canonical sampleValues, none, "331436", 7⟩]
  decisions := [⟨"a", "review", "confirm-1", "record", 1, canonical sampleAction⟩]
  events := [
    ⟨1, "legacy_archive-1", "legacy_archive", "export",
      canonical (.object [("export_id", .text "export"), ("export_sha256", .text "x")]), none, "465108"⟩,
    ⟨2, "import-1", "import", "lr_1", canonical (.object [("fact_sha256", .text "507840"), ("version", .integer 1)]),
      some "465108", "553305"⟩,
    ⟨3, "capture-1", "capture", "s", canonical sampleSource.evidence.toJson, some "553305", "240078"⟩,
    ⟨4, "propose-1", "propose", "proposal",
      canonical (.array [.text "s", .integer 1, sampleObservation, sampleValues, .integer 0, .null]), some "240078",
      "407195"⟩,
    ⟨5, "review-1", "review", "review", canonical sampleReviewed, some "407195", "539906"⟩,
    ⟨6, "delivery-1", "delivery", "review", canonical sampleDelivered, some "539906", "976117"⟩,
    ⟨7, "confirm-1", "confirm", "record", canonical (.object [("review_id", .text "review"), ("action", sampleAction),
      ("fact_sha256", .text "331436"), ("version", .integer 1), ("accepted_at", .integer 103)]), some "976117",
      "379606"⟩]
  imports := [⟨"export", "x"⟩]

theorem sampleTables_schema : sampleTables.Schema := by
  constructor <;> simp [Keyed, sampleTables, sampleSource]

theorem sampleTables_accepted : auditConnection sampleCodec sampleTables = .ok ⟨7, 2, some "379606"⟩ := by
  decide +kernel

/-- A ledger with an event of every kind is accepted, and not without any of the rows that correspond to an event. -/
theorem audit_soundness_sample :
    sampleTables.Schema ∧ auditConnection sampleCodec sampleTables = .ok ⟨7, 2, some "379606"⟩ ∧
    (∀ kind ∈ pairedKinds, kind ∈ sampleTables.events.map EventRow.kind) ∧
      Sound sampleCodec sampleTables ∧
    ∀ row, sampleTables.Pairs row →
      ∃ failure, auditConnection sampleCodec (sampleTables.without row) = .error failure := by
  have sound := audit_soundness sampleCodec sampleTables sampleTables_schema _ sampleTables_accepted
  exact ⟨sampleTables_schema, sampleTables_accepted, by decide, sound.1, sound.2⟩

end FinanceCore.LifecycleV2.Stored

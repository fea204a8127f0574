import FinanceCore.LifecycleV2.Facts

namespace FinanceCore.LifecycleV2

open Operations List

/-- A ledger grows by the audited changes of admitted services. -/
inductive Ledger.Grown (platform : Platform) (world : World) (admitted : Service → Prop) (ledger : Ledger) :
    Ledger → Prop
  | refl : Grown platform world admitted ledger ledger
  | step {middle : Ledger} {service : Service} {operationId : String} {entry : Entry}
      (before : Grown platform world admitted ledger middle) (allowed : admitted service)
      (opens : middle.Opens platform operationId entry)
      (records : service.Records platform world middle operationId entry) :
      Grown platform world admitted ledger (middle.record platform operationId entry)

variable {host : Platform} {world : World} {admitted : Service → Prop}

variable {first second before ledger : Ledger} {service : Service}

theorem Ledger.Grown.trans {third : Ledger} (earlier : first.Grown host world admitted second)
    (later : second.Grown host world admitted third) : first.Grown host world admitted third := by
  induction later with
  | refl => exact earlier
  | step _ allowed opens records ih => exact .step ih allowed opens records

theorem Service.Extends.grown (allowed : admitted service)
    (extended : service.Extends host world first second) :
    first.Grown host world admitted second := by
  induction extended with
  | refl => exact .refl
  | step _ opens records ih => exact .step ih allowed opens records

/-- The ledgers that admitted services can reach. -/
def Ledger.Reachable (platform : Platform) (world : World) (admitted : Service → Prop)
    (ledger : Ledger) : Prop :=
  Ledger.empty.Grown platform world admitted ledger

/-- A run of admitted services reaches its ledger. -/
theorem afterRequests_reachable {requests : List Request}
    (services : ∀ request ∈ requests, admitted request.service) :
    (afterRequests host world requests).store.Reachable host world admitted := by
  apply run_keeps (fun _ _ _ _ => perform_raises) opening requests Ledger.Grown.refl
  intro request member session outcome after done reached
  exact reached.trans ((perform_extends done).grown (services request member))

/-- No row leaves a ledger. -/
structure Ledger.Prefix (before after : Ledger) : Prop where
  sources : before.sources <+: after.sources
  proposals : before.proposals <+: after.proposals
  reviews : before.reviews <+: after.reviews
  deliveries : before.deliveries <+: after.deliveries
  facts : before.facts <+: after.facts
  decisions : before.decisions <+: after.decisions
  events : before.events <+: after.events

theorem Ledger.Grown.tables {after : Ledger} (grown : before.Grown host world admitted after) :
    before.Prefix after := by
  induction grown with
  | refl =>
    constructor <;> exact prefix_rfl
  | step _ _ _ _ ih =>
    constructor
    · exact ih.sources.trans (prefix_append _ _)
    · exact ih.proposals.trans (prefix_append _ _)
    · exact ih.reviews.trans (prefix_append _ _)
    · exact ih.deliveries.trans (prefix_append _ _)
    · exact ih.facts.trans (prefix_append _ _)
    · exact ih.decisions.trans (prefix_append _ _)
    · exact ih.events.trans (prefix_append _ _)

/-- The change that a row of a table comes from. -/
structure Origin (platform : Platform) (world : World) (admitted : Service → Prop)
    (ledger before : Ledger) (service : Service) (operationId : String) (entry : Entry) : Prop where
  reached : before.Reachable platform world admitted
  allowed : admitted service
  opens : before.Opens platform operationId entry
  records : service.Records platform world before operationId entry
  later : (before.record platform operationId entry).Grown platform world admitted ledger

/-- The ledger before a change is part of every later one. -/
theorem Origin.earlier {opId : String} {entry : Entry}
    (origin : Origin host world admitted ledger before service opId entry) : before.Prefix ledger := by
  have first : before.Grown host world admitted (before.record host opId entry) :=
    .step .refl origin.allowed origin.opens origin.records
  exact (first.trans origin.later).tables

/-- Every row of a table was added by some change. -/
theorem Ledger.Reachable.origin {ρ : Type} (reached : ledger.Reachable host world admitted)
    (rows : Ledger → List ρ) (added : Entry → List ρ) (start : rows Ledger.empty = [])
    (grows : ∀ ledger opId entry, rows (ledger.record host opId entry) = rows ledger ++ added entry)
    {row : ρ} (member : row ∈ rows ledger) :
    ∃ before service opId entry, Origin host world admitted ledger before service opId entry ∧
      row ∈ added entry := by
  induction reached with
  | refl =>
    rw [start] at member
    cases member
  | @step middle service opId entry before allowed opens records ih =>
    rw [grows, mem_append] at member
    rcases member with old | new
    · obtain ⟨earlier, writer, operation, change, origin, inside⟩ := ih old
      refine ⟨earlier, writer, operation, change, ?_, inside⟩
      exact ⟨origin.reached, origin.allowed, origin.opens, origin.records, .step origin.later allowed opens records⟩
    · exact ⟨middle, service, opId, entry, ⟨before, allowed, opens, records, .refl⟩, new⟩

section Origins

variable {ledger : Ledger} (reached : ledger.Reachable host world admitted)
include reached

namespace Ledger.Reachable

theorem source_origin {row : SourceRow} (member : row ∈ ledger.sources) :
    ∃ before service opId, Origin host world admitted ledger before service opId (.captured row) ∧
      service.Captures host before row := by
  obtain ⟨before, service, opId, entry, origin, inside⟩ :=
    reached.origin Ledger.sources Entry.sources rfl (fun _ _ _ => rfl) member
  cases origin.records with
  | captured captures =>
    rw [Entry.sources, mem_singleton] at inside
    subst inside
    exact ⟨before, service, opId, origin, captures⟩
  | _ => cases inside

theorem proposal_origin {row : ProposalRow} (member : row ∈ ledger.proposals) :
    ∃ before service opId, Origin host world admitted ledger before service opId (.proposed row) ∧
      service.Proposes host before row := by
  obtain ⟨before, service, opId, entry, origin, inside⟩ :=
    reached.origin Ledger.proposals Entry.proposals rfl (fun _ _ _ => rfl) member
  cases origin.records with
  | proposed proposes =>
    rw [Entry.proposals, mem_singleton] at inside
    subst inside
    exact ⟨before, service, opId, origin, proposes⟩
  | _ => cases inside

theorem review_origin {row : ReviewRow} (member : row ∈ ledger.reviews) :
    ∃ before service opId proposal reading, Origin host world admitted ledger before service opId (.reviewed row) ∧
      service.Reviews host world before proposal reading row := by
  obtain ⟨before, service, opId, entry, origin, inside⟩ :=
    reached.origin Ledger.reviews Entry.reviews rfl (fun _ _ _ => rfl) member
  cases origin.records with
  | reviewed reviews =>
    rw [Entry.reviews, mem_singleton] at inside
    subst inside
    exact ⟨before, service, opId, _, _, origin, reviews⟩
  | _ => cases inside

theorem delivery_origin {row : DeliveryRow} (member : row ∈ ledger.deliveries) :
    ∃ before service opId review, Origin host world admitted ledger before service opId (.delivered row) ∧
      service.Delivers before review row := by
  obtain ⟨before, service, opId, entry, origin, inside⟩ :=
    reached.origin Ledger.deliveries Entry.deliveries rfl (fun _ _ _ => rfl) member
  cases origin.records with
  | delivered delivers =>
    rw [Entry.deliveries, mem_singleton] at inside
    subst inside
    exact ⟨before, service, opId, _, origin, delivers⟩
  | _ => cases inside

/-- Every fact was committed together with a decision. -/
theorem fact_origin {fact : FactRow} (member : fact ∈ ledger.facts) :
    ∃ before service opId review accepted acceptedAt decision,
      Origin host world admitted ledger before service opId (.committed fact decision acceptedAt) ∧
      service.Commits host before review accepted acceptedAt fact decision ∧
      decision.operationId = opId ∧
      fact.commitSeq = (before.eventFor host opId (.committed fact decision acceptedAt)).seq := by
  obtain ⟨before, service, opId, entry, origin, inside⟩ :=
    reached.origin Ledger.facts Entry.facts rfl (fun _ _ _ => rfl) member
  cases origin.records with
  | committed commits operation seq =>
    rw [Entry.facts, mem_singleton] at inside
    subst inside
    exact ⟨before, service, opId, _, _, _, _, origin, commits, operation, seq⟩
  | _ => cases inside

end Ledger.Reachable

end Origins

end FinanceCore.LifecycleV2

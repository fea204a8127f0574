import FinanceCore.GuidedEdit.Sessions

namespace FinanceCore.GuidedEdit

open List

/-- The events that a session may have written: a start, updates that are settled one after the other, an end. The
indices are the update that is still open, the current proposal, the status and the last claimed message. -/
inductive Trail : List SessionEvent → Option PendingUpdate → ProposalState → SessionStatus → ℤ → Prop
  | started {event : SessionEvent} {state : ProposalState} (claimed : ℤ) (kind : event.eventType = .started)
      (after : event.after = some state) : Trail [event] none state .active claimed
  | requested {events : List SessionEvent} {state : ProposalState} {claimed : ℤ} {event : SessionEvent}
      {pending : PendingUpdate} (trail : Trail events none state .active claimed)
      (kind : event.eventType = .updateRequested) (message : event.messageId = some pending.messageId)
      (newer : claimed < pending.messageId) :
      Trail (events ++ [event]) (some pending) state .active pending.messageId
  | applied {events : List SessionEvent} {state next : ProposalState} {claimed : ℤ} {event : SessionEvent}
      {pending : PendingUpdate} (trail : Trail events (some pending) state .active claimed)
      (kind : event.eventType = .updateApplied) (message : event.messageId = some pending.messageId)
      (after : event.after = some next) : Trail (events ++ [event]) none next .active claimed
  | refused {events : List SessionEvent} {state : ProposalState} {claimed : ℤ} {event : SessionEvent}
      {pending : PendingUpdate} (trail : Trail events (some pending) state .active claimed)
      (kind : event.eventType = .updateRefused) (message : event.messageId = some pending.messageId) :
      Trail (events ++ [event]) none state .active claimed
  | closed {events : List SessionEvent} {state : ProposalState} {claimed raised : ℤ} {event : SessionEvent}
      {status : SessionStatus} (trail : Trail events none state .active claimed) (ended : status ≠ .active)
      (kind : event.eventType = closingEvent status) (later : claimed ≤ raised) :
      Trail (events ++ [event]) none state status raised

variable {events : List SessionEvent} {pending : Option PendingUpdate} {state : ProposalState}
  {status : SessionStatus} {claimed : ℤ}

/-- An update is open only while the session is active. -/
theorem Trail.active_of_pending {update : PendingUpdate}
    (trail : Trail events (some update) state status claimed) :
    status = .active := by
  cases trail
  rfl

variable (trail : Trail events pending state status claimed)

include trail in
theorem Trail.none_of_closed (ended : status ≠ .active) : pending = none := by
  cases trail with
  | started | applied | refused | closed => rfl
  | requested => exact absurd rfl ended

theorem closingEvent_ne (status : SessionStatus) :
    closingEvent status ≠ .updateRequested ∧ closingEvent status ≠ .updateApplied ∧
      closingEvent status ≠ .updateRefused := by
  cases status <;> decide

variable {event : SessionEvent}

include trail in
/-- Every requested message is claimed. -/
theorem Trail.request_le (member : event ∈ events) (kind : event.eventType = .updateRequested) :
    ∃ message, event.messageId = some message ∧ message ≤ claimed := by
  induction trail with
  | started claimed other after =>
    rw [mem_singleton.mp member, other] at kind
    cases kind
  | requested trail other message newer ih =>
    rcases mem_append.mp member with earlier | last
    · obtain ⟨requested, named, bound⟩ := ih earlier
      exact ⟨requested, named, by omega⟩
    · rw [mem_singleton.mp last]
      exact ⟨_, message, le_rfl⟩
  | applied trail other message after ih =>
    rcases mem_append.mp member with earlier | last
    · exact ih earlier
    · rw [mem_singleton.mp last, other] at kind
      cases kind
  | refused trail other message ih =>
    rcases mem_append.mp member with earlier | last
    · exact ih earlier
    · rw [mem_singleton.mp last, other] at kind
      cases kind
  | closed trail ended other later ih =>
    rcases mem_append.mp member with earlier | last
    · obtain ⟨requested, named, bound⟩ := ih earlier
      exact ⟨requested, named, by omega⟩
    · rw [mem_singleton.mp last] at kind
      exact absurd (other.symm.trans kind) (closingEvent_ne _).1

/-- An event that settles the update of the given message. -/
def SessionEvent.settles (event : SessionEvent) (message : Option ℤ) : Bool :=
  (event.eventType = .updateApplied || event.eventType = .updateRefused) && event.messageId = message

/-- A place in a list that grew by one value is the new place or an old one. -/
theorem concat_eq_split {α : Type} {values before after : List α} {last value : α}
    (same : values ++ [last] = before ++ value :: after) :
    (after = [] ∧ value = last) ∨ ∃ front, after = front ++ [last] ∧
      values = before ++ value :: front := by
  rcases eq_nil_or_concat after with rfl | ⟨front, final, rfl⟩
  · obtain ⟨_, ends⟩ := append_inj' same rfl
    exact .inl ⟨rfl, (singleton_inj.mp ends).symm⟩
  · have regrouped : values ++ [last] = (before ++ value :: front) ++ [final] := by
      rw [same]
      simp
    obtain ⟨starts, ends⟩ := append_inj' regrouped rfl
    exact .inr ⟨front, by rw [singleton_inj.mp ends, concat_eq_append], starts⟩

theorem SessionEvent.settles_of_update {named : Option ℤ}
    (kind : event.eventType = .updateApplied ∨ event.eventType = .updateRefused)
    (message : event.messageId = named)
    (asked : Option ℤ) : event.settles asked = decide (named = asked) := by
  unfold SessionEvent.settles
  rw [message]
  rcases kind with kind | kind <;> simp [kind]

theorem SessionEvent.not_settles (applied : event.eventType ≠ .updateApplied)
    (refused : event.eventType ≠ .updateRefused) (asked : Option ℤ) : event.settles asked = false := by
  simp [SessionEvent.settles, applied, refused]

include trail in
/-- A request that is not open any more was settled exactly once, and an open request was not settled. -/
theorem Trail.settlements {before after : List SessionEvent} {request : SessionEvent}
    (place : events = before ++ request :: after) (kind : request.eventType = .updateRequested) :
    after.countP (·.settles request.messageId) =
      if pending.any fun update => some update.messageId = request.messageId then 0 else 1 := by
  have settling {front : List SessionEvent} {event : SessionEvent} {update : PendingUpdate}
      (type : event.eventType = .updateApplied ∨ event.eventType = .updateRefused)
      (message : event.messageId = some update.messageId)
      (unsettled : front.countP (·.settles request.messageId) =
        if some update.messageId = request.messageId then 0 else 1) :
      (front ++ [event]).countP (·.settles request.messageId) = 1 := by
    rw [countP_append, countP_singleton, unsettled, SessionEvent.settles_of_update type message]
    by_cases same : some update.messageId = request.messageId <;> simp [same]
  induction trail generalizing after with
  | @started event state claimed other started =>
    have grown : [] ++ [event] = before ++ request :: after := place
    rcases concat_eq_split grown with ⟨_, rfl⟩ | ⟨front, _, absent⟩
    · rw [other] at kind
      cases kind
    · cases before <;> cases absent
  | requested trail other message newer ih =>
    rcases concat_eq_split place with ⟨rfl, rfl⟩ | ⟨front, rfl, earlier⟩
    · simp [message]
    · obtain ⟨requested, named, bound⟩ := trail.request_le (by rw [earlier]; simp) kind
      rw [countP_append, countP_singleton, ih earlier,
        SessionEvent.not_settles (by rw [other]; decide) (by rw [other]; decide), named]
      simp
      omega
  | applied trail other message after ih =>
    rcases concat_eq_split place with ⟨rfl, rfl⟩ | ⟨front, rfl, earlier⟩
    · rw [other] at kind
      cases kind
    · exact settling (.inl other) message (by simpa using ih earlier)
  | refused trail other message ih =>
    rcases concat_eq_split place with ⟨rfl, rfl⟩ | ⟨front, rfl, earlier⟩
    · rw [other] at kind
      cases kind
    · exact settling (.inr other) message (by simpa using ih earlier)
  | @closed older state claimed raised event status trail ended other later ih =>
    obtain ⟨unrequested, unapplied, unrefused⟩ := closingEvent_ne status
    rcases concat_eq_split place with ⟨rfl, rfl⟩ | ⟨front, rfl, earlier⟩
    · exact absurd (other.symm.trans kind) unrequested
    · rw [countP_append, countP_singleton, ih earlier,
        SessionEvent.not_settles (by rw [other]; exact unapplied) (by rw [other]; exact unrefused)]
      simp

def appliedUpdates (events : List SessionEvent) : List SessionEvent :=
  events.filter fun event => event.eventType = .updateApplied

/-- The proposal is what the last applied update left, or the proposal of the start when no update was applied. -/
def CurrentOf (events : List SessionEvent) (state : ProposalState) : Prop :=
  (∀ event, (appliedUpdates events).getLast? = some event → event.after = some state) ∧ (appliedUpdates events = [] →
    ∃ first, events.head? = some first ∧ first.eventType = .started ∧ first.after = some state)

theorem CurrentOf.concat (current : CurrentOf events state)
    (other : event.eventType ≠ .updateApplied) :
    CurrentOf (events ++ [event]) state := by
  have same : appliedUpdates (events ++ [event]) = appliedUpdates events := by
    simp [appliedUpdates, other]
  unfold CurrentOf
  rw [same]
  refine ⟨current.1, fun none => ?_⟩
  obtain ⟨first, head, rest⟩ := current.2 none
  refine ⟨first, ?_, rest⟩
  rw [List.head?_append, head]
  rfl

include trail in
theorem Trail.current : CurrentOf events state := by
  induction trail with
  | started claimed kind after =>
    refine ⟨?_, fun _ => ⟨_, rfl, kind, after⟩⟩
    simp [appliedUpdates, kind]
  | requested trail kind message newer ih => exact ih.concat (by rw [kind]; decide)
  | @applied older state next claimed event pending trail kind message after ih =>
    have last : appliedUpdates (older ++ [event]) = appliedUpdates older ++ [event] := by
      simp [appliedUpdates, kind]
    unfold CurrentOf
    rw [last, List.getLast?_concat]
    refine ⟨?_, by simp⟩
    intro found same
    rw [← Option.some.inj same]
    exact after
  | refused trail kind message ih => exact ih.concat (by rw [kind]; decide)
  | closed trail ended kind later ih => exact ih.concat (by rw [kind]; exact (closingEvent_ne _).2.1)

end FinanceCore.GuidedEdit

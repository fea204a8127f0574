import FinanceCore.GuidedEdit.Invariant

namespace FinanceCore.GuidedEdit

open Exceptions Transactions List

variable {tables after : Tables} {sessionId : ℕ}

section Updates

variable {session : Session} {details : EventDetails}

section

variable (sound : Sound tables)
include sound

variable {refusalCode : String} {messageId : ℤ} {authority route : Except GuidedEditError Unit}
  {snapshot : Snapshot}

variable (found : tables.sessions.get? sessionId = some session)

include found in
/-- The settlement of a pending update is a step of its trail. -/
theorem settlePending_moves {core : Option ProposalState}
    (run : settlePending tables sessionId session core refusalCode = .ok after) :
    Moves tables after ∧ session.status = .active ∧ after.sessions =
      tables.sessions.set sessionId { session with current := core.getD session.current, pending := none } := by
  obtain ⟨update, pending, run⟩ := bind_ok.mp run
  have trail := sound.trail found
  rw [expect_ok.mp pending] at trail
  have active := trail.active_of_pending
  rw [active] at trail
  rw [← pure_ok.mp run]
  cases core with
  | some state =>
    have advanced := advanced_append_update found (fun row => { row with current := state, pending := none }) rfl
      { update.details .updateApplied with before := some session.current, after := some state }
    refine ⟨advanced.moves sound active ?_ le_rfl (fun asked => nomatch asked), active, advanced.sessions⟩
    rw [active]
    exact .applied trail rfl rfl rfl
  | none =>
    have advanced := advanced_append_update found
      (fun row => { row with current := session.current, pending := none }) rfl
      { update.details .updateRefused with before := some session.current, refusalCode := some refusalCode }
    refine ⟨advanced.moves sound active ?_ le_rfl (fun asked => nomatch asked), active, advanced.sessions⟩
    rw [active]
    exact .refused trail rfl rfl

include found in
/-- A session without a pending update ends. -/
theorem close_moves (active : session.status = .active) (idle : session.pending = none)
    (status : SessionStatus)
    (ended : status ≠ .active) (kind : details.eventType = closingEvent status)
    (change : Session → Session) (context : (change session).context = session.context)
    (statusOf : (change session).status = status)
    (current : (change session).current = session.current)
    (pending : (change session).pending = none)
    (claimed : session.lastClaimedMessageId ≤ (change session).lastClaimedMessageId) :
    Moves tables (updateSession (appendEvent tables sessionId details) sessionId change) := by
  have advanced := advanced_append_update found change context details
  have trail := sound.trail found
  rw [idle, active] at trail
  refine advanced.moves sound active ?_ claimed ?_
  · rw [pending, current, statusOf]
    exact .closed trail ended kind claimed
  · intro asked
    exact absurd (kind.symm.trans asked) (closingEvent_ne status).1

variable {now : ℤ} {core : Except GuidedEditError (Option ProposalState)}

theorem completeSession_moves {actorId : String} {context : ChatContext}
    {proposal : Except GuidedEditError CurrentProposal}
    (run : completeSession tables sessionId actorId context messageId now authority route proposal = .ok after) :
    Moves tables after := by
  simp only [completeSession, bind_ok, expect_ok] at run
  obtain ⟨_, _, current, present, _, _, run⟩ := run
  split_ifs at run with repeated
  · rw [← Except.ok.inj run]
    exact .refl sound
  · simp only [bind_ok, require_ok] at run
    obtain ⟨_, _, _, ready, _, _, _, newer, _, _, _, _, _, _, run⟩ := run
    rw [← pure_ok.mp run]
    obtain ⟨active, idle⟩ := ready
    exact close_moves sound present active idle .completed (by decide) rfl _ rfl rfl rfl idle newer.le

theorem requestUpdate_moves {operationKey fieldName fieldValue : String}
    (run : requestUpdate tables sessionId messageId operationKey fieldName fieldValue now authority route =
      .ok after) : Moves tables after := by
  simp only [requestUpdate, bind_ok, require_ok, expect_ok] at run
  obtain ⟨_, _, _, _, current, present, _, live, _, _, _, _, _, free, _, newer, _, _, run⟩ := run
  have found := present
  have active := live
  have idle := free
  have later := newer
  have trail := sound.trail found
  rw [idle, active] at trail
  let pending : PendingUpdate :=
    ⟨messageId, operationKey, fieldName, String.ofList (Json.renderString true fieldValue)⟩
  have advanced := advanced_update_append found
    (fun row => { row with pending := some pending, lastClaimedMessageId := messageId }) rfl
    { pending.details .updateRequested with before := some current.current }
  rw [← pure_ok.mp run]
  refine advanced.moves sound active ?_ later.le ?_
  · rw [active]
    exact .requested trail rfl rfl later
  · intro _ message named
    rw [← Option.some.inj named]
    exact later

theorem recordUpdateApplied_moves {state : ProposalState}
    (run : recordUpdateApplied tables snapshot state core = .ok after) : Moves tables after := by
  obtain ⟨current, present, run⟩ := bind_ok.mp run
  split_ifs at run with matching
  · obtain ⟨_, _, run⟩ := bind_ok.mp run
    obtain ⟨_, _, run⟩ := bind_ok.mp run
    exact (settlePending_moves sound (expect_ok.mp present) run).1
  · simp only [bind_ok] at run
    obtain ⟨_, _, _, _, _, _, run⟩ := run
    rw [← pure_ok.mp run]
    exact .refl sound

theorem recordUpdateRefused_moves (run : recordUpdateRefused tables snapshot refusalCode core = .ok after) :
    Moves tables after := by
  obtain ⟨current, present, run⟩ := bind_ok.mp run
  split_ifs at run with matching
  · obtain ⟨_, _, run⟩ := bind_ok.mp run
    exact (settlePending_moves sound (expect_ok.mp present) run).1
  · obtain ⟨_, _, run⟩ := bind_ok.mp run
    split at run
    · rw [← pure_ok.mp run]
      exact .refl sound
    · obtain ⟨_, _, run⟩ := bind_ok.mp run
      obtain ⟨_, _, run⟩ := bind_ok.mp run
      rw [← pure_ok.mp run]
      exact .refl sound

include found in
/-- The active session of a chat ends, with its expired update settled before, and no other session changes. -/
theorem retireActive_moves (active : session.status = .active)
    (run : retireActive tables sessionId session now core = .ok after) :
    Moves tables after ∧ ∃ row, row.status ≠ .active ∧ ∀ query,
      after.sessions.get? query = if query = sessionId then some row else tables.sessions.get? query := by
  have ended : (if session.expiresAt ≤ now then SessionStatus.abandoned else .superseded) ≠ .active := by
    split_ifs <;> decide
  have closing {settled : Tables} {row : Session} (ready : Sound settled)
      (present : settled.sessions.get? sessionId = some row) (live : row.status = .active) (idle : row.pending = none)
      (status : SessionStatus) (finished : status ≠ .active) :
      let final := updateSession (appendEvent settled sessionId { eventType := closingEvent status }) sessionId
        fun row => { row with status }
      Moves settled final ∧ ∃ row, row.status ≠ .active ∧ ∀ query,
        final.sessions.get? query = if query = sessionId then some row else settled.sessions.get? query := by
    have advanced := advanced_append_update present (fun row => { row with status }) rfl
      { eventType := closingEvent status }
    exact ⟨close_moves ready present live idle status finished rfl _ rfl rfl rfl idle le_rfl, _, finished,
      advanced.get?⟩
  cases pending : session.pending with
  | none =>
    rw [retireActive, pending] at run
    rw [← pure_ok.mp run]
    exact closing sound found active pending _ ended
  | some update =>
    rw [retireActive, pending] at run
    simp only [bind_ok] at run
    obtain ⟨_, _, _, _, settled, settling, run⟩ := run
    obtain ⟨moved, _, rows⟩ := settlePending_moves sound found settling
    have present := congrArg (Dict.get? · sessionId) rows
    simp only [Dict.get?_set, if_pos] at present
    rw [← pure_ok.mp run]
    obtain ⟨closed, row, gone, frame⟩ := closing moved.sound present active rfl _ ended
    refine ⟨moved.trans closed, row, gone, fun query => ?_⟩
    rw [frame, rows, Dict.get?_set]
    split_ifs <;> rfl

end

end Updates

section Begin

variable {reference : Reference} {initialMessageId : ℤ} {context : ChatContext}

theorem insertSession_moves (sound : Sound tables) (vacant : Vacant tables reference.context)
    (run : insertSession tables reference initialMessageId = .ok (sessionId, after)) : Moves tables after := by
  obtain ⟨_, _, run⟩ := bind_ok.mp run
  obtain ⟨_, stored⟩ := Prod.mk.inj (pure_ok.mp run)
  have fresh := get?_nextSessionId tables
  have first (row : Session) :
      nextSequence { tables with sessions := tables.sessions.set (nextSessionId tables) row } (nextSessionId tables) =
        1 := by
    change ((tables.eventsOf (nextSessionId tables)).map SessionEvent.sequenceNumber).foldr max 0 + 1 = 1
    rw [sound.eventsOf_fresh fresh]
    rfl
  rw [← stored]
  unfold appendEvent
  rw [first]
  exact Opened.moves ⟨fresh, rfl, rfl⟩ sound rfl rfl rfl rfl vacant (le_max_right _ _)

theorem find?_active {active : ℕ × Session} (found : (tables.sessions.entries.find? fun entry =>
      entry.2.context = context ∧ entry.2.status = .active) = some active) :
    tables.sessions.get? active.1 = some active.2 ∧ active.2.context = context ∧
      active.2.status = .active := by
  have member := mem_of_find?_eq_some found
  have holds := find?_some found
  exact ⟨Dict.get?_of_mem_entries member, of_decide_eq_true holds⟩

theorem vacant_of_find? (missing : (tables.sessions.entries.find? fun entry =>
      entry.2.context = context ∧ entry.2.status = .active) = none) : Vacant tables context := by
  intro sessionId session found same active
  exact find?_eq_none.mp missing _ (Dict.mem_entries_of_get? found) (decide_eq_true ⟨same, active⟩)

/-- A start replays the session of its reference, or retires the active session of the chat and opens a new one. -/
theorem beginSession_moves (sound : Sound tables) {now : ℤ}
    {core : Except GuidedEditError (Option ProposalState)}
    (run : beginSession tables reference initialMessageId now core = .ok (sessionId, after)) :
    Moves tables after := by
  obtain ⟨_, _, run⟩ := bind_ok.mp run
  split at run
  · obtain ⟨_, _, run⟩ := bind_ok.mp run
    rw [← (Prod.mk.inj (pure_ok.mp run)).2]
    exact .refl sound
  · split at run
    · rename_i active found
      obtain ⟨retired, retiring, run⟩ := bind_ok.mp run
      obtain ⟨present, same, live⟩ := find?_active found
      obtain ⟨moved, row, ended, frame⟩ := retireActive_moves sound present live retiring
      refine moved.trans (insertSession_moves moved.sound ?_ run)
      intro query session listed context liveStill
      rw [frame] at listed
      split_ifs at listed with retiredOne
      · rw [← Option.some.inj listed] at liveStill
        exact ended liveStill
      · exact retiredOne (sound.single listed present (context.trans same.symm) liveStill live)
    · rename_i missing
      exact insertSession_moves sound (vacant_of_find? missing) run

end Begin

theorem sound_empty : Sound Tables.empty where
  numbered found := nomatch found
  trail found := nomatch found
  known _ member := nomatch member
  single found := nomatch found
  top found := nomatch found
  increasing _ := .nil

/-- Every transaction keeps the invariant and only advances the sessions. -/
theorem perform_moves {call : Call} {result : Option ℕ}
    (done : guidedSystem.perform tables call = .ok (result, after))
    (sound : Sound tables) : Moves tables after := by
  have second {run : Except GuidedEditError Tables} (ran : (none, ·) <$> run = .ok (result, after)) :
      run = .ok after := by
    obtain ⟨stored, finished, same⟩ := map_ok.mp ran
    rw [finished, (Prod.mk.inj same).2]
  cases call with
  | begin reference initialMessageId now core =>
    obtain ⟨⟨sessionId, stored⟩, begun, same⟩ := map_ok.mp done
    rw [← (Prod.mk.inj same).2]
    exact beginSession_moves sound begun
  | request sessionId messageId operationKey fieldName fieldValue now authority route =>
    exact requestUpdate_moves sound (second done)
  | applied snapshot state core => exact recordUpdateApplied_moves sound (second done)
  | refused snapshot refusalCode core => exact recordUpdateRefused_moves sound (second done)
  | complete sessionId actorId context messageId now authority route proposal =>
    exact completeSession_moves sound (second done)

/-- Whole runs keep the invariant and only advance the sessions. -/
theorem run_moves (sound : Sound tables) (calls : List Call) : Moves tables (guidedSystem.run tables calls) := by
  exact System.run_keeps (fun done before => before.trans (perform_moves done before.sound)) (.refl sound) calls

/-- The high water mark of a chat never falls. -/
theorem Later.highWater_le (later : Later tables after) (context : ChatContext) :
    highWater tables context ≤ highWater after context := by
  apply foldr_max_le
  · exact start_le_foldr_max 0 _
  · intro value member
    obtain ⟨session, listed, rfl⟩ := mem_map.mp member
    obtain ⟨stored, same⟩ := mem_filter.mp listed
    obtain ⟨⟨sessionId, _⟩, entry, rfl⟩ := mem_map.mp stored
    obtain ⟨row, present, kept, claimed, _⟩ := later sessionId _ (Dict.get?_of_mem_entries entry)
    have bound := le_highWater present
    rw [kept, of_decide_eq_true same] at bound
    exact claimed.trans bound

/-- Guided edits of a chat: one active session, messages claimed in increasing order across the sessions, gapless
events, every update settled at most once and before its session ends, and a current proposal that the applied
updates explain. -/
theorem guided_edit_sessions (calls later : List Call) (context : ChatContext) :
    let tables := guidedSystem.run Tables.empty calls
    let after := guidedSystem.run tables later
    (∀ first second session other, tables.sessions.get? first = some session →
      tables.sessions.get? second = some other → session.context = context → other.context = context →
      session.status = .active → other.status = .active → first = second) ∧
    highWater tables context ≤ highWater after context ∧
    (∀ first second session other, tables.sessions.get? first = some session →
      after.sessions.get? second = some other → session.context = context → other.context = context →
      other.status = .active → session.lastClaimedMessageId ≤ other.lastClaimedMessageId) ∧
    (requests tables context).Pairwise (· < ·) ∧
    ∀ sessionId session, tables.sessions.get? sessionId = some session → session.context = context →
      let events := tables.eventsOf sessionId
      events.map SessionEvent.sequenceNumber = List.range' 1 events.length ∧
      (∀ before request rest, events = before ++ request :: rest → request.eventType = .updateRequested →
        rest.countP (·.settles request.messageId) ≤ 1 ∧
        (session.status ≠ .active → rest.countP (·.settles request.messageId) = 1)) ∧
      CurrentOf events session.current ∧
      ∃ row, after.sessions.get? sessionId = some row ∧ row.context = context ∧
        session.lastClaimedMessageId ≤ row.lastClaimedMessageId ∧
        (session.status ≠ .active → row = session) := by
  intro tables after
  have sound : Sound tables := (run_moves sound_empty calls).sound
  have moved : Moves tables after := run_moves sound later
  refine ⟨?_, ?_, ?_, sound.increasing context, ?_⟩
  · intro first second session other one two same same'
    exact sound.single one two (same.trans same'.symm)
  · exact moved.later.highWater_le context
  · intro first second session other one two same same' active
    obtain ⟨row, present, kept, claimed, _⟩ := moved.later first session one
    exact claimed.trans (moved.sound.top present two (kept.trans (same.trans same'.symm)) active)
  · intro sessionId session found same events
    have trail := sound.trail found
    refine ⟨sound.numbered found, ?_, trail.current, ?_⟩
    · intro before request rest place kind
      rw [trail.settlements place kind]
      refine ⟨by split_ifs <;> omega, fun ended => ?_⟩
      rw [trail.none_of_closed ended]
      rfl
    · obtain ⟨row, present, kept, rest⟩ := moved.later sessionId session found
      exact ⟨row, present, kept.trans same, rest⟩

end FinanceCore.GuidedEdit

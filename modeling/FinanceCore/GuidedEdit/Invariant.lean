import FinanceCore.GuidedEdit.Trail

namespace FinanceCore.GuidedEdit

open List Dict

variable {sessionId : ℕ} {tables after : Tables} {details : EventDetails} {session changed : Session}

section Rows

variable (tables : Tables)

@[simp] theorem events_updateSession (sessionId : ℕ) (change : Session → Session) :
    (updateSession tables sessionId change).events = tables.events := by
  unfold updateSession
  split <;> rfl

theorem updateSession_of_get? {tables : Tables}
    (found : tables.sessions.get? sessionId = some session) (change : Session → Session) :
    updateSession tables sessionId change =
      { tables with sessions := tables.sessions.set sessionId (change session) } := by
  unfold updateSession
  rw [found]

variable {α : Type} {values : List α}

theorem le_foldr_max [LinearOrder α] {value : α} (start : α) (member : value ∈ values) :
    value ≤ values.foldr max start := by
  induction values with
  | nil => cases member
  | cons head rest ih =>
    rcases mem_cons.mp member with rfl | later
    · exact le_max_left _ _
    · exact (ih later).trans (le_max_right _ _)

theorem start_le_foldr_max [LinearOrder α] (start : α) (values : List α) : start ≤ values.foldr max start := by
  induction values with
  | nil => exact le_rfl
  | cons head rest ih => exact ih.trans (le_max_right _ _)

theorem foldr_max_le [LinearOrder α] {start bound : α} (first : start ≤ bound)
    (each : ∀ value ∈ values, value ≤ bound) : values.foldr max start ≤ bound := by
  induction values with
  | nil => exact first
  | cons head rest ih =>
    exact max_le (each head (by simp)) (ih fun value member => each value (by simp [member]))

/-- The next number after a gapless numbering. -/
theorem foldr_max_range' (count : ℕ) : (List.range' 1 count).foldr max 0 = count := by
  apply le_antisymm
  · apply foldr_max_le (Nat.zero_le count)
    intro value member
    have bounds := mem_range'_1.mp member
    omega
  · cases count with
    | zero => exact Nat.zero_le _
    | succ count => exact le_foldr_max 0 (mem_range'_1.mpr (by omega))

/-- The message identities that the updates of a chat have claimed, in their order. -/
def requests (tables : Tables) (context : ChatContext) : List ℤ :=
  tables.events.filterMap fun event =>
    if event.eventType = .updateRequested ∧
        (tables.sessions.get? event.sessionId).map Session.context = some context then
      event.messageId
    else none

end Rows

/-- The invariant of the two tables. -/
structure Sound (tables : Tables) : Prop where
  numbered : ∀ {sessionId : ℕ} {session : Session}, tables.sessions.get? sessionId = some session →
    (tables.eventsOf sessionId).map SessionEvent.sequenceNumber =
      List.range' 1 (tables.eventsOf sessionId).length
  trail : ∀ {sessionId : ℕ} {session : Session}, tables.sessions.get? sessionId = some session →
    Trail (tables.eventsOf sessionId) session.pending session.current session.status session.lastClaimedMessageId
  known : ∀ event ∈ tables.events, (tables.sessions.get? event.sessionId).isSome
  single : ∀ {first second : ℕ} {session other : Session}, tables.sessions.get? first = some session →
    tables.sessions.get? second = some other → session.context = other.context → session.status = .active →
    other.status = .active → first = second
  top : ∀ {first second : ℕ} {session other : Session}, tables.sessions.get? first = some session →
    tables.sessions.get? second = some other → session.context = other.context → other.status = .active →
    session.lastClaimedMessageId ≤ other.lastClaimedMessageId
  increasing : ∀ context, (requests tables context).Pairwise (· < ·)

/-- One session writes one event and its row. -/
structure Advanced (tables : Tables) (sessionId : ℕ) (session changed : Session)
    (details : EventDetails) (after : Tables) : Prop where
  found : tables.sessions.get? sessionId = some session
  sessions : after.sessions = tables.sessions.set sessionId changed
  events : after.events = tables.events ++ [⟨details, sessionId, nextSequence tables sessionId⟩]
  context : changed.context = session.context

section

variable (advanced : Advanced tables sessionId session changed details after)
include advanced

theorem Advanced.eventsOf (query : ℕ) :
    after.eventsOf query = if query = sessionId then
      tables.eventsOf query ++ [⟨details, sessionId, nextSequence tables sessionId⟩] else tables.eventsOf query := by
  unfold Tables.eventsOf
  rw [advanced.events]
  split_ifs with same
  · simp [same]
  · simp [Ne.symm same]

theorem Advanced.get? (query : ℕ) :
    after.sessions.get? query = if query = sessionId then some changed else tables.sessions.get? query := by
  rw [advanced.sessions, get?_set]

/-- The chats of the sessions stay as they are. -/
theorem Advanced.contexts (query : ℕ) :
    (after.sessions.get? query).map Session.context = (tables.sessions.get? query).map Session.context := by
  rw [advanced.get?]
  split_ifs with same
  · rw [same, advanced.found, Option.map_some, Option.map_some, advanced.context]
  · rfl

theorem Advanced.requests (context : ChatContext) :
    requests after context = requests tables context ++
      if details.eventType = .updateRequested ∧ session.context = context then details.messageId.toList else [] := by
  unfold GuidedEdit.requests
  rw [advanced.events, filterMap_append]
  congr 1
  · apply filterMap_congr
    intro event member
    rw [advanced.contexts]
  · rw [filterMap_cons, advanced.contexts, advanced.found, Option.map_some]
    simp only [Option.some.injEq]
    split_ifs with asked
    · cases details.messageId <;> rfl
    · rfl

end

/-- Every claimed message of a chat is at most the last claimed message of its active session. -/
theorem Sound.request_le (sound : Sound tables) (found : tables.sessions.get? sessionId = some session)
    (active : session.status = .active) {message : ℤ} (member : message ∈ requests tables session.context) :
    message ≤ session.lastClaimedMessageId := by
  obtain ⟨event, listed, asked⟩ := mem_filterMap.mp member
  split_ifs at asked with requested
  obtain ⟨owner, present, same⟩ := Option.map_eq_some_iff.mp requested.2
  have own : event ∈ tables.eventsOf event.sessionId := mem_filter.mpr ⟨listed, by simp⟩
  obtain ⟨claimed, named, bound⟩ := (sound.trail present).request_le own requested.1
  obtain rfl := Option.some.inj (named.symm.trans asked)
  exact bound.trans (sound.top present found same active)

/-- Sessions are kept with their chat, claim no smaller message, and do not change once they have ended. -/
def Later (tables after : Tables) : Prop :=
  ∀ sessionId session, tables.sessions.get? sessionId = some session →
    ∃ row, after.sessions.get? sessionId = some row ∧ row.context = session.context ∧
      session.lastClaimedMessageId ≤ row.lastClaimedMessageId ∧ (session.status ≠ .active → row = session)

theorem Later.refl (tables : Tables) : Later tables tables :=
  fun _ session found => ⟨session, found, rfl, le_rfl, fun _ => rfl⟩

variable {first second third : Tables}

theorem Later.trans (one : Later first second) (two : Later second third) : Later first third := by
  intro sessionId session found
  obtain ⟨row, present, context, claimed, ended⟩ := one sessionId session found
  obtain ⟨last, final, context', claimed', ended'⟩ := two sessionId row present
  refine ⟨last, final, context'.trans context, claimed.trans claimed', ?_⟩
  intro closed
  have same := ended closed
  rw [← same] at closed
  exact (ended' closed).trans same

/-- A transaction that keeps the invariant and only advances the sessions. -/
structure Moves (tables after : Tables) : Prop where
  sound : Sound after
  later : Later tables after

theorem Moves.refl (sound : Sound tables) : Moves tables tables := ⟨sound, .refl tables⟩

theorem Moves.trans (one : Moves first second) (two : Moves second third) :
    Moves first third := ⟨two.sound, one.later.trans two.later⟩

section Steps

section Along

variable (advanced : Advanced tables sessionId session changed details after) (sound : Sound tables)
  (active : session.status = .active)
  (trail : Trail (tables.eventsOf sessionId ++ [⟨details, sessionId, nextSequence tables sessionId⟩])
    changed.pending changed.current changed.status changed.lastClaimedMessageId)
  (claimed : session.lastClaimedMessageId ≤ changed.lastClaimedMessageId)
  (newer : details.eventType = .updateRequested →
    ∀ message ∈ details.messageId, session.lastClaimedMessageId < message)

include advanced active claimed

theorem Advanced.later : Later tables after := by
  intro query row present
  by_cases same : query = sessionId
  · rw [same, advanced.found] at present
    obtain rfl := Option.some.inj present
    refine ⟨changed, ?_, advanced.context, claimed, fun ended => absurd active ended⟩
    rw [advanced.get?, if_pos same]
  · refine ⟨row, ?_, rfl, le_rfl, fun _ => rfl⟩
    rw [advanced.get?, if_neg same]
    exact present

include sound trail newer

/-- A session that advances along its trail keeps the invariant. -/
theorem Advanced.kept : Sound after := by
  have earlier {query : ℕ} {row : Session} (present : after.sessions.get? query = some row) :=
    get?_set_cases (advanced.sessions ▸ present)
  constructor
  · intro query row present
    rw [advanced.eventsOf]
    rcases earlier present with ⟨rfl, _⟩ | ⟨other, old⟩
    · have before := sound.numbered advanced.found
      rw [if_pos rfl, map_append, length_append, length_singleton, List.range'_concat]
      simp only [map_cons, map_nil, nextSequence, before, foldr_max_range']
      congr 2
      omega
    · rw [if_neg other]
      exact sound.numbered old
  · intro query row present
    rw [advanced.eventsOf]
    rcases earlier present with ⟨rfl, rfl⟩ | ⟨other, old⟩
    · rw [if_pos rfl]
      exact trail
    · rw [if_neg other]
      exact sound.trail old
  · intro event member
    rw [advanced.events] at member
    have kept {query : ℕ} (some : (tables.sessions.get? query).isSome) : (after.sessions.get? query).isSome := by
      rw [advanced.get?]
      split_ifs
      · rfl
      · exact some
    rcases mem_append.mp member with old | new
    · exact kept (sound.known event old)
    · rw [mem_singleton.mp new]
      apply kept
      rw [advanced.found]
      rfl
  · intro first second row other one two same activeOne activeTwo
    rcases earlier one with ⟨rfl, rfl⟩ | ⟨_, oldOne⟩
    · rcases earlier two with ⟨rfl, _⟩ | ⟨_, oldTwo⟩
      · rfl
      · exact sound.single advanced.found oldTwo (advanced.context.symm.trans same) active activeTwo
    · rcases earlier two with ⟨rfl, rfl⟩ | ⟨_, oldTwo⟩
      · exact sound.single oldOne advanced.found (same.trans advanced.context) activeOne active
      · exact sound.single oldOne oldTwo same activeOne activeTwo
  · intro first second row other one two same activeTwo
    rcases earlier one with ⟨rfl, rfl⟩ | ⟨_, oldOne⟩
    · rcases earlier two with ⟨_, rfl⟩ | ⟨apart, oldTwo⟩
      · exact le_rfl
      · exact absurd (sound.single oldTwo advanced.found (same.symm.trans advanced.context) activeTwo active) apart
    · rcases earlier two with ⟨rfl, rfl⟩ | ⟨_, oldTwo⟩
      · exact (sound.top oldOne advanced.found (same.trans advanced.context) active).trans claimed
      · exact sound.top oldOne oldTwo same activeTwo
  · intro context
    rw [advanced.requests]
    split_ifs with asked
    · rw [pairwise_append]
      refine ⟨sound.increasing context, ?_, ?_⟩
      · cases details.messageId <;> simp
      · intro old listed new member
        have bound := newer asked.1 new (Option.mem_toList.mp member)
        have below := sound.request_le advanced.found active (asked.2 ▸ listed)
        omega
    · rw [append_nil]
      exact sound.increasing context

/-- An advance along the trail of an active session. -/
theorem Advanced.moves : Moves tables after :=
  ⟨advanced.kept sound active trail claimed newer, advanced.later active claimed⟩

end Along

variable (found : tables.sessions.get? sessionId = some session) (change : Session → Session)
  (context : (change session).context = session.context)
include found change context

/-- An event and an update of its session are one advance. -/
theorem advanced_append_update (details : EventDetails) :
    Advanced tables sessionId session (change session) details
      (updateSession (appendEvent tables sessionId details) sessionId change) where
  found := found
  sessions := by
    have present : (appendEvent tables sessionId details).sessions.get? sessionId = some session := found
    rw [updateSession_of_get? present]
    rfl
  events := by
    rw [events_updateSession]
    rfl
  context := context

theorem advanced_update_append (details : EventDetails) :
    Advanced tables sessionId session (change session) details
      (appendEvent (updateSession tables sessionId change) sessionId details) := by
  rw [updateSession_of_get? found]
  exact ⟨found, rfl, rfl, context⟩

end Steps

/-- A new session takes an identity that no row and no event has. -/
theorem get?_nextSessionId (tables : Tables) : tables.sessions.get? (nextSessionId tables) = none := by
  rw [get?_eq_none]
  intro taken
  have bound := le_foldr_max 0 taken
  unfold nextSessionId at bound
  omega

theorem Sound.eventsOf_fresh (sound : Sound tables) (fresh : tables.sessions.get? sessionId = none) :
    tables.eventsOf sessionId = [] := by
  rw [Tables.eventsOf, filter_eq_nil_iff]
  intro event member named
  have known := sound.known event member
  rw [of_decide_eq_true named, fresh] at known
  cases known

/-- Every claimed message of a chat is at most its high water mark. -/
theorem le_highWater (found : tables.sessions.get? sessionId = some session) :
    session.lastClaimedMessageId ≤ highWater tables session.context := by
  apply le_foldr_max 0
  apply mem_map_of_mem
  rw [inContext, mem_filter]
  exact ⟨mem_map_of_mem (mem_entries_of_get? found), decide_eq_true rfl⟩

/-- No session of the chat is active. -/
def Vacant (tables : Tables) (context : ChatContext) : Prop :=
  ∀ sessionId session, tables.sessions.get? sessionId = some session → session.context = context →
    session.status ≠ .active

/-- A new session is stored with its first event. -/
structure Opened (tables : Tables) (sessionId : ℕ) (session : Session) (details : EventDetails)
    (after : Tables) :
    Prop where
  fresh : tables.sessions.get? sessionId = none
  sessions : after.sessions = tables.sessions.set sessionId session
  events : after.events = tables.events ++ [⟨details, sessionId, 1⟩]

section Open

variable {session : Session}

section

variable (opened : Opened tables sessionId session details after)
include opened

variable {query : ℕ}

theorem Opened.get?_of_ne (other : query ≠ sessionId) : after.sessions.get? query = tables.sessions.get? query := by
  rw [opened.sessions, get?_set, if_neg other]

theorem Opened.ne_of_isSome (present : (tables.sessions.get? query).isSome) : query ≠ sessionId := by
  rintro rfl
  rw [opened.fresh] at present
  cases present

theorem Opened.cases {row : Session} (present : after.sessions.get? query = some row) :
    (query = sessionId ∧ row = session) ∨ (query ≠ sessionId ∧ tables.sessions.get? query = some row) :=
  get?_set_cases (opened.sessions ▸ present)

theorem Opened.eventsOf_self (sound : Sound tables) : after.eventsOf sessionId = [⟨details, sessionId, 1⟩] := by
  have silent := sound.eventsOf_fresh opened.fresh
  unfold Tables.eventsOf at silent ⊢
  rw [opened.events, filter_append, silent]
  simp

theorem Opened.eventsOf_of_ne (other : query ≠ sessionId) : after.eventsOf query = tables.eventsOf query := by
  unfold Tables.eventsOf
  rw [opened.events]
  simp [Ne.symm other]

variable (sound : Sound tables) (kind : details.eventType = .started)
include sound kind

theorem Opened.requests (context : ChatContext) :
    GuidedEdit.requests after context = GuidedEdit.requests tables context := by
  unfold GuidedEdit.requests
  have last : (⟨details, sessionId, 1⟩ : SessionEvent).eventType ≠ .updateRequested := by
    rw [kind]
    decide
  rw [opened.events, filterMap_append, filterMap_cons, filterMap_nil, if_neg fun asked => last asked.1, append_nil]
  apply filterMap_congr
  intro event member
  rw [opened.get?_of_ne (opened.ne_of_isSome (sound.known event member))]

/-- A new session of a vacant chat that claims no less than the chat has claimed keeps the invariant. -/
theorem Opened.moves (start : details.after = some session.current) (idle : session.pending = none)
    (active : session.status = .active) (vacant : Vacant tables session.context)
    (claimed : highWater tables session.context ≤ session.lastClaimedMessageId) : Moves tables after := by
  refine ⟨⟨?_, ?_, ?_, ?_, ?_, ?_⟩, ?_⟩
  · intro query row present
    rcases opened.cases present with ⟨rfl, _⟩ | ⟨other, old⟩
    · rw [opened.eventsOf_self sound]
      rfl
    · rw [opened.eventsOf_of_ne other]
      exact sound.numbered old
  · intro query row present
    rcases opened.cases present with ⟨rfl, rfl⟩ | ⟨other, old⟩
    · rw [opened.eventsOf_self sound, idle, active]
      exact .started _ kind start
    · rw [opened.eventsOf_of_ne other]
      exact sound.trail old
  · intro event member
    rw [opened.events] at member
    rcases mem_append.mp member with old | new
    · have known := sound.known event old
      rw [opened.get?_of_ne (opened.ne_of_isSome known)]
      exact known
    · rw [mem_singleton.mp new, opened.sessions, get?_set, if_pos rfl]
      rfl
  · intro first second row other one two same activeOne activeTwo
    rcases opened.cases one with ⟨rfl, rfl⟩ | ⟨_, oldOne⟩
    · rcases opened.cases two with ⟨rfl, _⟩ | ⟨_, oldTwo⟩
      · rfl
      · exact absurd activeTwo (vacant second other oldTwo same.symm)
    · rcases opened.cases two with ⟨rfl, rfl⟩ | ⟨_, oldTwo⟩
      · exact absurd activeOne (vacant first row oldOne same)
      · exact sound.single oldOne oldTwo same activeOne activeTwo
  · intro first second row other one two same activeTwo
    rcases opened.cases two with ⟨rfl, rfl⟩ | ⟨_, oldTwo⟩
    · rcases opened.cases one with ⟨_, rfl⟩ | ⟨_, oldOne⟩
      · exact le_rfl
      · have bound := le_highWater oldOne
        rw [same] at bound
        exact bound.trans claimed
    · rcases opened.cases one with ⟨rfl, rfl⟩ | ⟨_, oldOne⟩
      · exact absurd activeTwo (vacant second other oldTwo same.symm)
      · exact sound.top oldOne oldTwo same activeTwo
  · intro context
    rw [opened.requests sound kind]
    exact sound.increasing context
  · intro query row present
    have apart := opened.ne_of_isSome (Option.isSome_of_eq_some present)
    exact ⟨row, (opened.get?_of_ne apart).trans present, rfl, le_rfl, fun _ => rfl⟩

end

end Open

end FinanceCore.GuidedEdit

import FinanceCore.Foundation.Json
import FinanceCore.Foundation.Transactions

namespace FinanceCore.GuidedEdit

open Exceptions Transactions

/-- A proposal as an edit sees it. -/
structure ProposalState where
  (parserOutputId version : ℤ)
  contentHash : String
deriving DecidableEq

/-- The chat that a session belongs to. -/
structure ChatContext where
  (accountId conversationId bindingId : String)
deriving DecidableEq

inductive SessionStatus where
  | active
  | completed
  | superseded
  | abandoned
deriving DecidableEq

/-- An update that was requested and not yet settled. -/
structure PendingUpdate where
  messageId : ℤ
  (operationKey fieldName fieldValueJson : String)
deriving DecidableEq

structure Session where
  sourceReferenceId : ℤ
  current : ProposalState
  authenticatedActorId : String
  context : ChatContext
  status : SessionStatus
  (expiresAt lastClaimedMessageId : ℤ)
  pending : Option PendingUpdate
  completedMessageId : Option ℤ

inductive EventType where
  | started
  | updateRequested
  | updateApplied
  | updateRefused
  | completed
  | superseded
  | abandoned
deriving DecidableEq

/-- What an event records besides its session and its number. -/
structure EventDetails where
  eventType : EventType
  messageId : Option ℤ := none
  operationKey : Option String := none
  fieldName : Option String := none
  fieldValueJson : Option String := none
  before : Option ProposalState := none
  after : Option ProposalState := none
  refusalCode : Option String := none

structure SessionEvent extends EventDetails where
  (sessionId sequenceNumber : ℕ)

/-- The two tables of guided editing; sessions and events are never deleted. -/
structure Tables where
  sessions : Dict ℕ Session
  events : List SessionEvent

def Tables.empty : Tables := ⟨Dict.empty, []⟩

inductive GuidedEditError where
  | invalidReference
  | sessionTerminal
  | pendingRecovery
  | pendingMissing
  | pendingConflict
  | notStorable
  | invalidUpdate
  | sessionExpired
  | staleMessage
  | messageReused
  | routeRequired
  | contextMismatch
  | notCompletable
  | proposalMissing
  | proposalTerminal
  | staleSession
  | unauthorized

section Rows

variable (tables : Tables)

section

variable (sessionId : ℕ)

/-- The events of one session in their order. -/
def Tables.eventsOf : List SessionEvent :=
  tables.events.filter fun event => event.sessionId = sessionId

def nextSequence : ℕ := ((tables.eventsOf sessionId).map SessionEvent.sequenceNumber).foldr max 0 + 1

def appendEvent (details : EventDetails) : Tables :=
  { tables with events := tables.events ++ [⟨details, sessionId, nextSequence tables sessionId⟩] }

/-- An update of the row with the given identity; no such row means no change. -/
def updateSession (change : Session → Session) : Tables :=
  match tables.sessions.get? sessionId with
  | none => tables
  | some session => { tables with sessions := tables.sessions.set sessionId (change session) }

end

/-- Rows are numbered from one in the order of their insertion. -/
def nextSessionId : ℕ := tables.sessions.keys.foldr max 0 + 1

def inContext (context : ChatContext) : List Session :=
  tables.sessions.values.filter fun session => session.context = context

/-- The largest message that any session of the chat has claimed. -/
def highWater (context : ChatContext) : ℤ :=
  ((inContext tables context).map Session.lastClaimedMessageId).foldr max 0

end Rows

/-- What an update event repeats of the pending update. -/
def PendingUpdate.details (pending : PendingUpdate) (eventType : EventType) : EventDetails where
  eventType
  messageId := some pending.messageId
  operationKey := some pending.operationKey
  fieldName := some pending.fieldName
  fieldValueJson := some pending.fieldValueJson

/-- The persisted result of the core, which is looked up for a pending update only. -/
def pendingCoreState (session : Session) (core : Except GuidedEditError (Option ProposalState)) :
    Except GuidedEditError (Option ProposalState) :=
  match session.pending with
  | none => .ok none
  | some _ => core

/-- A pending update ends with the persisted result of the core, or it is refused. -/
def settlePending (tables : Tables) (sessionId : ℕ) (session : Session)
    (core : Option ProposalState) (refusalCode : String) : Except GuidedEditError Tables := do
  let pending ← expect session.pending .pendingMissing
  let details : EventDetails :=
    match core with
    | some state => { pending.details .updateApplied with before := some session.current, after := some state }
    | none => { pending.details .updateRefused with before := some session.current, refusalCode := some refusalCode }
  return updateSession (appendEvent tables sessionId details) sessionId fun row =>
    { row with current := core.getD session.current, pending := none }

/-- A redeemed reference that asks for an edit. -/
structure Reference where
  id : ℤ
  isEdit : Bool
  proposal : ProposalState
  authenticatedActorId : String
  context : ChatContext
  expiresAt : ℤ

def closingEvent : SessionStatus → EventType
  | .completed => .completed
  | .superseded => .superseded
  | _ => .abandoned

/-- The active session of the chat ends before a new one starts; an expired pending update is settled first. -/
def retireActive (tables : Tables) (sessionId : ℕ) (session : Session) (now : ℤ)
    (core : Except GuidedEditError (Option ProposalState)) : Except GuidedEditError Tables := do
  let settled ←
    match session.pending with
    | none => .ok tables
    | some _ => do
      require (session.expiresAt ≤ now) .pendingRecovery
      let core ← pendingCoreState session core
      settlePending tables sessionId session core "CALLBACK_EXPIRED"
  let status := if session.expiresAt ≤ now then SessionStatus.abandoned else .superseded
  return updateSession (appendEvent settled sessionId { eventType := closingEvent status }) sessionId fun row =>
    { row with status }

def insertSession (tables : Tables) (reference : Reference) (initialMessageId : ℤ) :
    Except GuidedEditError (ℕ × Tables) := do
  let sessionId := nextSessionId tables
  let claimed := max initialMessageId (highWater tables reference.context)
  require (0 < claimed ∧ 0 < reference.expiresAt) .notStorable
  let session : Session :=
    { sourceReferenceId := reference.id
      current := reference.proposal
      authenticatedActorId := reference.authenticatedActorId
      context := reference.context
      status := .active
      expiresAt := reference.expiresAt
      lastClaimedMessageId := claimed
      pending := none
      completedMessageId := none }
  let inserted : Tables := { tables with sessions := tables.sessions.set sessionId session }
  return (sessionId, appendEvent inserted sessionId
    { eventType := .started, before := some reference.proposal, after := some reference.proposal })

def beginSession (tables : Tables) (reference : Reference) (initialMessageId now : ℤ)
    (core : Except GuidedEditError (Option ProposalState)) : Except GuidedEditError (ℕ × Tables) := do
  require reference.isEdit .invalidReference
  match tables.sessions.entries.find? fun entry => entry.2.sourceReferenceId = reference.id with
  | some existing => do
    require (existing.2.status = .active ∧ now < existing.2.expiresAt) .sessionTerminal
    return (existing.1, tables)
  | none =>
    match tables.sessions.entries.find? fun entry =>
        entry.2.context = reference.context ∧ entry.2.status = .active with
    | some active => do
      let retired ← retireActive tables active.1 active.2 now core
      insertSession retired reference initialMessageId
    | none => insertSession tables reference initialMessageId

def allowedFields : List String := ["amount", "currency", "transaction_date", "merchant", "description", "category"]

section

variable (tables : Tables)

def requestUpdate (sessionId : ℕ) (messageId : ℤ) (operationKey fieldName fieldValue : String)
    (now : ℤ) (authority route : Except GuidedEditError Unit) : Except GuidedEditError Tables := do
  require (fieldName ∈ allowedFields ∧ fieldValue ≠ "") .invalidUpdate
  authority
  let current ← expect (tables.sessions.get? sessionId) .sessionTerminal
  require (current.status = .active) .sessionTerminal
  route
  require (now < current.expiresAt) .sessionExpired
  require (current.pending = none) .pendingRecovery
  require (current.lastClaimedMessageId < messageId) .staleMessage
  require (∀ event ∈ tables.eventsOf sessionId, event.messageId ≠ some messageId) .messageReused
  let pending : PendingUpdate :=
    ⟨messageId, operationKey, fieldName, String.ofList (Json.renderString true fieldValue)⟩
  let claimed := updateSession tables sessionId fun row =>
    { row with pending := some pending, lastClaimedMessageId := messageId }
  return appendEvent claimed sessionId { pending.details .updateRequested with before := some current.current }

/-- What a caller remembers of a session when it settles an update. -/
structure Snapshot where
  sessionId : ℕ
  pending : Option PendingUpdate

/-- The settlement of the pending update that the caller remembers. -/
def findReplay (sessionId : ℕ) (pending : PendingUpdate)
    (eventType : EventType) : Option SessionEvent :=
  ((tables.eventsOf sessionId).find? fun event =>
    event.messageId = some pending.messageId ∧ event.eventType = eventType).filter fun event =>
      event.operationKey = some pending.operationKey ∧ event.fieldName = some pending.fieldName ∧
        event.fieldValueJson = some pending.fieldValueJson

def recordUpdateApplied (snapshot : Snapshot) (state : ProposalState)
    (core : Except GuidedEditError (Option ProposalState)) : Except GuidedEditError Tables := do
  let current ← expect (tables.sessions.get? snapshot.sessionId) .pendingMissing
  if current.pending = snapshot.pending then do
    let persisted ← pendingCoreState current core
    require (persisted = some state) .pendingRecovery
    settlePending tables snapshot.sessionId current persisted "CALLBACK_EXPIRED"
  else do
    let pending ← expect snapshot.pending .pendingMissing
    let replay ← expect (findReplay tables snapshot.sessionId pending .updateApplied) .pendingMissing
    require (replay.after = some state) .pendingMissing
    return tables

def recordUpdateRefused (snapshot : Snapshot) (refusalCode : String)
    (core : Except GuidedEditError (Option ProposalState)) : Except GuidedEditError Tables := do
  let current ← expect (tables.sessions.get? snapshot.sessionId) .pendingMissing
  if current.pending = snapshot.pending then do
    let persisted ← pendingCoreState current core
    settlePending tables snapshot.sessionId current persisted refusalCode
  else do
    let pending ← expect snapshot.pending .pendingMissing
    match findReplay tables snapshot.sessionId pending .updateApplied with
    | some _ => return tables
    | none => do
      let replay ← expect (findReplay tables snapshot.sessionId pending .updateRefused) .pendingConflict
      require (replay.refusalCode = some refusalCode) .pendingConflict
      return tables

/-- What the proposal tables say about the proposal of a session. -/
structure CurrentProposal where
  terminal : Bool
  version : ℤ
  contentHash : String

def completeSession (sessionId : ℕ) (actorId : String) (context : ChatContext) (messageId now : ℤ)
    (authority route : Except GuidedEditError Unit) (proposal : Except GuidedEditError CurrentProposal) :
    Except GuidedEditError Tables := do
  authority
  let current ← expect (tables.sessions.get? sessionId) .contextMismatch
  require (current.authenticatedActorId = actorId ∧ current.context = context) .contextMismatch
  if current.status = .completed ∧ current.completedMessageId = some messageId then .ok tables
  else do
    route
    require (current.status = .active ∧ current.pending = none) .notCompletable
    require (now < current.expiresAt) .sessionExpired
    require (current.lastClaimedMessageId < messageId) .staleMessage
    let proposal ← proposal
    require (¬ proposal.terminal) .proposalTerminal
    require (proposal.version = current.current.version ∧ proposal.contentHash = current.current.contentHash)
      .staleSession
    let completed := appendEvent tables sessionId
      { eventType := .completed
        messageId := some messageId
        before := some current.current
        after := some current.current }
    return updateSession completed sessionId fun row =>
      { row with
        status := .completed
        completedMessageId := some messageId
        lastClaimedMessageId := messageId }

end

/-- The transactions of guided editing, with the clock readings and the answers of other tables that they see. -/
inductive Call where
  | begin (reference : Reference) (initialMessageId now : ℤ) (core : Except GuidedEditError (Option ProposalState))
  | request (sessionId : ℕ) (messageId : ℤ) (operationKey fieldName fieldValue : String) (now : ℤ)
      (authority route : Except GuidedEditError Unit)
  | applied (snapshot : Snapshot) (state : ProposalState) (core : Except GuidedEditError (Option ProposalState))
  | refused (snapshot : Snapshot) (refusalCode : String) (core : Except GuidedEditError (Option ProposalState))
  | complete (sessionId : ℕ) (actorId : String) (context : ChatContext) (messageId now : ℤ)
      (authority route : Except GuidedEditError Unit) (proposal : Except GuidedEditError CurrentProposal)

/-- Guided editing as a system of serialised transactions; the answer is the session that was begun. -/
def guidedSystem : System Tables Call (Option ℕ) GuidedEditError where
  perform tables
    | .begin reference initialMessageId now core =>
      Prod.map some id <$> beginSession tables reference initialMessageId now core
    | .request sessionId messageId operationKey fieldName fieldValue now authority route =>
      (none, ·) <$> requestUpdate tables sessionId messageId operationKey fieldName fieldValue now authority route
    | .applied snapshot state core => (none, ·) <$> recordUpdateApplied tables snapshot state core
    | .refused snapshot refusalCode core => (none, ·) <$> recordUpdateRefused tables snapshot refusalCode core
    | .complete sessionId actorId context messageId now authority route proposal =>
      (none, ·) <$> completeSession tables sessionId actorId context messageId now authority route proposal

end FinanceCore.GuidedEdit

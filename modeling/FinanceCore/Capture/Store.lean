import FinanceCore.Foundation.Dict
import FinanceCore.Foundation.Text
import FinanceCore.Foundation.Transactions

namespace FinanceCore.Capture

open Exceptions Transactions Text

inductive JobStatus where
  | captured
  | processing
  | awaitingUser
  | needsAttention
  | resultReady
deriving DecidableEq

/-- The order in which a job advances. -/
def JobStatus.rank : JobStatus → ℕ
  | .captured => 0
  | .processing => 1
  | .awaitingUser => 2
  | .needsAttention => 3
  | .resultReady => 4

inductive AiStatus where
  | notStarted
  | inFlight
  | completed
  | outcomeUnknown

inductive ReplyStatus where
  | pending
  | outcomeUnknown
  | sent
deriving DecidableEq

inductive CaptureKind where
  | text
  | receiptImage
deriving DecidableEq

/-- A capture job: its status, its lease and the identities of its processing stages. -/
structure CaptureJob where
  intakePublicId : String
  captureKind : CaptureKind
  status : JobStatus := .captured
  aiStatus : AiStatus := .notStarted
  replyStatus : ReplyStatus := .pending
  leaseEpoch : ℕ := 0
  leaseOwner : Option String := none
  leaseExpiresAt : Option ℤ := none
  lastError : Option String := none
  ocrExtractionPublicId : Option String := none
  proposalPublicId : Option String := none
  proposalLinkPublicId : Option String := none
  aiAttemptPublicId : Option String := none
  ocrRetryCount : ℕ := 0
  ocrRetryNotBeforeMs : ℤ := 0

structure CaptureLease where
  (publicId owner : String)
  epoch : ℕ
  expiresAtMs : ℤ

inductive ResultKind where
  | posting
  | correction
deriving DecidableEq

/-- A verified financial result as a reply names it. -/
structure ResultIdentity where
  kind : ResultKind
  publicId : String
deriving DecidableEq

/-- A row of the reply outbox. -/
structure Reply where
  jobPublicId : String
  result : ResultIdentity
  status : ReplyStatus := .pending
  sendAttemptNonce : Option String := none
  sendAttemptCount : ℕ := 0

/-- The two tables that coordinate a capture, by the public identities of their rows. -/
structure Store where
  jobs : Dict String CaptureJob
  outbox : Dict String Reply

def Store.empty : Store := ⟨Dict.empty, Dict.empty⟩

inductive CaptureError where
  | leaseOwner
  | leaseDuration
  | leaseClock
  | intakePublicId
  | sourceConflict
  | notRunnable
  | retryDeferred
  | activeLease
  | leaseLost
  | notStorable
  | aiBindingChanged
  | aiIdentityChanged
  | jobVanished
  | notIntake
  | malformedIdentity
  | engineRequired
  | stageBindingChanged
  | stageIdentityTaken
  | attachmentChanged
  | backoffIndex
  | notReadyForReview
  | needsOtherAttention
  | reviewUnavailable
  | reviewBindingChanged
  | reviewExpiring
  | reviewStateChanged
  | notDurable
  | replyMissing
  | replyCollision
  | activeProcessing
  | planMissing
  | resultUnavailable
  | resultChanged
  | unsafeRetry
  | staleNonce
deriving DecidableEq

/-- What the invocation tables hold for the source of a job. -/
structure AiRecord where
  attemptPublicId : String
  (claimed answered : Bool)

def AiRecord.status (record : AiRecord) : AiStatus :=
  if record.answered then .completed else if record.claimed then .outcomeUnknown else .notStarted

def aiState : Option AiRecord → Option String × AiStatus
  | none => (none, .notStarted)
  | some record => (some record.attemptPublicId, record.status)

/-- A job is read with the invocation evidence of its source. -/
def getCaptureJob (store : Store) (ai : Option AiRecord) (publicId : String) :
    Except CaptureError (Option CaptureJob) :=
  match store.jobs.get? publicId, ai with
  | none, _ => .ok none
  | some job, none => .ok (some job)
  | some job, some record => do
    require (job.aiAttemptPublicId = none ∨ job.aiAttemptPublicId = some record.attemptPublicId) .aiBindingChanged
    return some { job with aiAttemptPublicId := some record.attemptPublicId, aiStatus := record.status }

/-- An update of the row with the given identity; no such row means no change. -/
def Store.updateJob (store : Store) (publicId : String)
    (change : CaptureJob → CaptureJob) : Store :=
  match store.jobs.get? publicId with
  | none => store
  | some job => { store with jobs := store.jobs.set publicId (change job) }

/-- Integers are stored in sixty-four bits. -/
def requireStorable (value : ℤ) : Except CaptureError Unit :=
  require (-(2 ^ 63) ≤ value ∧ value < 2 ^ 63) .notStorable

/-- No other job has the identity. -/
def identityFree (store : Store) (publicId : String) (column : CaptureJob → Option String)
    (identity : String) : Bool :=
  store.jobs.entries.all fun entry => entry.1 = publicId || column entry.2 ≠ some identity

section Captures

variable (sha256Hex : String → String)

def captureJobPublicId (intakePublicId : String) : String :=
  "fcj_" ++ ((sha256Hex ("finance-capture-job-v1\x00" ++ intakePublicId)).take 40).toString

/-- A source gets one job; a replay finds the same job again. -/
def ensureCaptureJob (store : Store) (intakePublicId : String) (captureKind : CaptureKind) :
    Except CaptureError Store := do
  require (intakePublicId ≠ "" ∧ intakePublicId.length ≤ 200) .intakePublicId
  let publicId := captureJobPublicId sha256Hex intakePublicId
  match store.jobs.entries.find? fun entry => entry.2.intakePublicId = intakePublicId with
  | some existing => do
    require (existing.1 = publicId ∧ existing.2.captureKind = captureKind) .sourceConflict
    return store
  | none => do
    require (store.jobs.get? publicId = none) .sourceConflict
    return { store with jobs := store.jobs.set publicId { intakePublicId, captureKind } }

def markControlRefusal (store : Store) (publicId refusalCode : String) : Store :=
  store.updateJob publicId fun job => { job with status := .needsAttention, lastError := some refusalCode }

/-- A new source and its job are committed together; a refused control text needs attention from the start. -/
def captureSource (store : Store) (intakePublicId : String) (captureKind : CaptureKind)
    (refusal : Option String) :
    Except CaptureError Store := do
  require (∀ entry ∈ store.jobs.entries, entry.2.intakePublicId ≠ intakePublicId) .sourceConflict
  let captured ← ensureCaptureJob sha256Hex store intakePublicId captureKind
  match refusal with
  | none => return captured
  | some code => return markControlRefusal captured (captureJobPublicId sha256Hex intakePublicId) code

end Captures

def validateLeaseInputs (owner : String) (durationMs : ℤ) : Except CaptureError Unit := do
  require (1 ≤ owner.length ∧ owner.length ≤ 128 ∧ owner.toList.all fun char => char.toNat < 128) .leaseOwner
  require (¬ owner.toList.any fun char => isSpace char || char.toNat < 33) .leaseOwner
  require (1000 ≤ durationMs ∧ durationMs ≤ 300000) .leaseDuration

def claimCaptureJob (store : Store) (publicId owner : String) (durationMs now : ℤ)
    (ai : Option AiRecord) :
    Except CaptureError (CaptureLease × Store) := do
  validateLeaseInputs owner durationMs
  require (0 ≤ now) .leaseClock
  let job ← getCaptureJob store ai publicId
  let job ← expect job .notRunnable
  require (job.status = .captured ∨ job.status = .processing) .notRunnable
  require (job.ocrRetryNotBeforeMs ≤ now) .retryDeferred
  require (∀ expiry ∈ job.leaseExpiresAt, expiry ≤ now) .activeLease
  let epoch := job.leaseEpoch + 1
  let expiresAt := now + durationMs
  requireStorable epoch
  requireStorable expiresAt
  return (⟨publicId, owner, epoch, expiresAt⟩, store.updateJob publicId fun job =>
    { job with
      status := .processing
      leaseEpoch := epoch
      leaseOwner := some owner
      leaseExpiresAt := some expiresAt
      ocrRetryNotBeforeMs := 0 })

/-- The row still carries the lease, and the lease has not expired. -/
def CaptureJob.Holds (job : CaptureJob) (lease : CaptureLease) (now : ℤ) : Prop :=
  job.leaseEpoch = lease.epoch ∧ job.leaseOwner = some lease.owner ∧ (∃ expiry ∈ job.leaseExpiresAt, now < expiry) ∧
    job.status = .processing

instance (job : CaptureJob) (lease : CaptureLease) (now : ℤ) : Decidable (job.Holds lease now) :=
  inferInstanceAs (Decidable (_ ∧ _))

/-- The fence that every save of a worker passes inside its own transaction. -/
def assertCaptureLease (store : Store) (lease : CaptureLease)
    (now : ℤ) : Except CaptureError Unit := do
  let job ← expect (store.jobs.get? lease.publicId) .leaseLost
  require (job.Holds lease now) .leaseLost

def renewCaptureJobLease (store : Store) (lease : CaptureLease) (durationMs now : ℤ) :
    Except CaptureError (CaptureLease × Store) := do
  validateLeaseInputs lease.owner durationMs
  assertCaptureLease store lease now
  let expiry := now + durationMs
  requireStorable expiry
  return ({ lease with expiresAtMs := expiry }, store.updateJob lease.publicId fun job =>
    { job with leaseExpiresAt := some expiry })

def ocrTimeoutMaxAttempts : ℕ := 3

def ocrTimeoutBackoffMs : List ℤ := [10000, 30000]

section

variable (store : Store)

section

variable (lease : CaptureLease)

/-- A worker opens its transaction under the fence and reads the job. -/
def beginChecked (now : ℤ) (ai : Option AiRecord) : Except CaptureError CaptureJob := do
  assertCaptureLease store lease now
  let job ← getCaptureJob store ai lease.publicId
  expect job .jobVanished

/-- The statuses that the processor finishes a job with. -/
inductive FinishStatus where
  | processing
  | needsAttention

def FinishStatus.status : FinishStatus → JobStatus
  | .processing => .processing
  | .needsAttention => .needsAttention

/-- The lease is released with the new status of the job. -/
def finish (now : ℤ) (ai : Option AiRecord) (status : FinishStatus)
    (lastError : Option String) : Except CaptureError Store := do
  let job ← beginChecked store lease now ai
  let (attempt, aiStatus) := aiState ai
  require (job.aiAttemptPublicId = none ∨ job.aiAttemptPublicId = attempt) .aiIdentityChanged
  require (∀ identity ∈ attempt, identityFree store lease.publicId CaptureJob.aiAttemptPublicId identity)
    .stageIdentityTaken
  return store.updateJob lease.publicId fun job =>
    { job with
      status := status.status
      aiStatus := aiStatus
      aiAttemptPublicId := attempt
      leaseOwner := none
      leaseExpiresAt := none
      lastError := lastError }

def markAttention (opened closed : ℤ) (ai : Option AiRecord)
    (reason : String) : Except CaptureError Store := do
  let _ ← beginChecked store lease opened ai
  finish store lease closed ai .needsAttention (some reason)

/-- A bounded recognition deadline releases the claim and defers the next one. -/
def deferOcrTimeout (opened closed now : ℤ) (ai : Option AiRecord) : Except CaptureError Store := do
  let job ← beginChecked store lease opened ai
  let count := job.ocrRetryCount + 1
  if ocrTimeoutMaxAttempts ≤ count then do
    let finished ← finish store lease closed ai .needsAttention (some "ocr_timeout_exhausted")
    return finished.updateJob lease.publicId fun job => { job with ocrRetryCount := count, ocrRetryNotBeforeMs := 0 }
  else do
    let finished ← finish store lease closed ai .processing (some "ocr_timeout_retry_pending")
    let backoff ← expect ocrTimeoutBackoffMs[count - 1]? .backoffIndex
    let notBefore := now + backoff
    requireStorable notBefore
    require (0 ≤ notBefore) .notStorable
    return finished.updateJob lease.publicId fun job =>
      { job with ocrRetryCount := count, ocrRetryNotBeforeMs := notBefore }

/-- The identities of the three receipt stages. -/
structure StageIds where
  (extraction proposal link : String)

/-- What follows the mark, when it is a lower-case hexadecimal text of the given length. -/
def hexSuffix (mark : String) (length : ℕ) (identity : String) : Option String :=
  let suffix := identity.toList.drop mark.length
  if mark.toList ++ suffix = identity.toList ∧ suffix.length = length ∧
      suffix.all fun char => ('0' ≤ char && char ≤ '9') || ('a' ≤ char && char ≤ 'f') then
    some (String.ofList suffix)
  else none

def stageIds (publicId intakePublicId : String) : Except CaptureError StageIds := do
  let suffix ← expect (hexSuffix "fcj_" 40 publicId) .malformedIdentity
  match hexSuffix "raw_intake_bridge_" 32 intakePublicId with
  | some bridge => return ⟨"rocr_bridge_" ++ bridge, "prop_bridge_" ++ bridge, "ropl_bridge_" ++ bridge⟩
  | none => return ⟨"rocr_d3_" ++ suffix, "prop_d3_" ++ suffix, "ropl_d3_" ++ suffix⟩

/-- What the processor finds outside the job table. -/
structure ProcessInputs where
  initialIntake : Bool
  proposal : Option String
  (engine attachmentHeld : Bool)

/-- A text binds its proposal and releases the lease. -/
def finishText (now : ℤ) (ai : Option AiRecord) (job : CaptureJob) :
    Option String → Except CaptureError Store
  | none => finish store lease now ai .needsAttention (some "missing_text_proposal")
  | some proposal => do
    require (job.proposalPublicId = none ∨ job.proposalPublicId = some proposal) .stageBindingChanged
    require (identityFree store lease.publicId CaptureJob.proposalPublicId proposal) .stageIdentityTaken
    let bound := store.updateJob lease.publicId fun job => { job with proposalPublicId := some proposal }
    finish bound lease now ai .processing none

/-- A receipt binds the identities of its stages and keeps the lease. -/
def bindStages (job : CaptureJob) (inputs : ProcessInputs) : Except CaptureError Store := do
  require inputs.engine .engineRequired
  let stages ← stageIds lease.publicId job.intakePublicId
  require (job.ocrExtractionPublicId = none ∨ job.ocrExtractionPublicId = some stages.extraction) .stageBindingChanged
  require (job.proposalPublicId = none ∨ job.proposalPublicId = some stages.proposal) .stageBindingChanged
  require (job.proposalLinkPublicId = none ∨ job.proposalLinkPublicId = some stages.link) .stageBindingChanged
  require (identityFree store lease.publicId CaptureJob.ocrExtractionPublicId stages.extraction) .stageIdentityTaken
  require (identityFree store lease.publicId CaptureJob.proposalPublicId stages.proposal) .stageIdentityTaken
  require (identityFree store lease.publicId CaptureJob.proposalLinkPublicId stages.link) .stageIdentityTaken
  require inputs.attachmentHeld .attachmentChanged
  return store.updateJob lease.publicId fun job =>
    { job with
      ocrExtractionPublicId := some stages.extraction
      proposalPublicId := some stages.proposal
      proposalLinkPublicId := some stages.link }

/-- The first transaction of the processor under a claimed lease. -/
def processClaimedCaptureJob (opened closed : ℤ) (ai : Option AiRecord)
    (inputs : ProcessInputs) : Except CaptureError Store := do
  let job ← beginChecked store lease opened ai
  require inputs.initialIntake .notIntake
  match job.captureKind with
  | .text => finishText store lease closed ai job inputs.proposal
  | .receiptImage => bindStages store lease job inputs

end

end

/-- What the review tables answer about the durable card of a job. -/
structure ReviewRow where
  bound : Except CaptureError Unit
  accepted : Option (Except CaptureError Unit)
  expiresAt : ℤ

def minReviewRemainingSeconds : ℤ := 60

/-- A job that a review may look at: the proposal is bound and nobody holds the lease. -/
def CaptureJob.Reviewable (job : CaptureJob) (proposal : String) : Prop :=
  job.proposalPublicId = some proposal ∧ job.leaseOwner = none ∧ job.leaseExpiresAt = none

instance (job : CaptureJob) (proposal : String) : Decidable (job.Reviewable proposal) :=
  inferInstanceAs (Decidable (_ ∧ _))

def promoteReviewStatus (store : Store) (publicId proposal : String) (ai : Option AiRecord)
    (source : Except CaptureError Unit) (review : Option ReviewRow)
    (now : ℤ) : Except CaptureError Store := do
  let job ← getCaptureJob store ai publicId
  let job ← expect job .notReadyForReview
  require ((job.status = .processing ∨ job.status = .awaitingUser) ∧ job.Reviewable proposal) .notReadyForReview
  source
  let review ← expect review .reviewUnavailable
  review.bound
  require (now + minReviewRemainingSeconds < review.expiresAt) .reviewExpiring
  if job.status = .processing then
    return store.updateJob publicId fun job => { job with status := .awaitingUser }
  else return store

/-- An existing card is settled before its key is used again; the result says whether there is anything to prepare. -/
def existingReviewDisposition (store : Store) (publicId proposal : String) (ai : Option AiRecord)
    (source : Except CaptureError Unit) (review : Option ReviewRow) (now : ℤ) :
    Except CaptureError (Bool × Store) := do
  let job ← getCaptureJob store ai publicId
  let job ← expect job .reviewStateChanged
  require (job.status ≠ .captured ∧ job.Reviewable proposal) .reviewStateChanged
  require (job.status = .needsAttention → job.lastError = some "review_expired") .needsOtherAttention
  source
  match review with
  | none => do
    require (job.status ≠ .needsAttention ∧ job.status ≠ .resultReady) .reviewUnavailable
    return (false, store)
  | some review => do
    review.bound
    match review.accepted with
    | some decision => do
      decision
      return (true, store)
    | none =>
      if now + minReviewRemainingSeconds < review.expiresAt then do
        require (job.status ≠ .needsAttention ∧ job.status ≠ .resultReady) .reviewStateChanged
        return (false, store)
      else do
        require (job.status ≠ .resultReady) .reviewStateChanged
        if job.status = .needsAttention then return (true, store)
        else return (true, store.updateJob publicId fun job =>
          { job with status := .needsAttention, lastError := some "review_expired" })

def markReviewRequiresEdit (store : Store) (publicId proposal : String) (ai : Option AiRecord)
    (source : Except CaptureError Unit) : Except CaptureError Store := do
  let job ← getCaptureJob store ai publicId
  let job ← expect job .notReadyForReview
  require (job.status = .processing ∧ job.Reviewable proposal) .notReadyForReview
  source
  return store.updateJob publicId fun job =>
    { job with status := .needsAttention, lastError := some "review_requires_edit" }

section Replies

variable (sha256Hex : String → String)

def resultKindText : ResultKind → String
  | .posting => "posting"
  | .correction => "correction"

def replyPublicId (jobPublicId : String) (result : ResultIdentity) : String :=
  "fcr_" ++ ((sha256Hex ("finance-capture-reply-v1\x00" ++ jobPublicId ++ "\x00" ++ resultKindText result.kind ++
    "\x00" ++ result.publicId)).take 40).toString

/-- The conservative summary of the replies of a job. -/
def replySummary (outbox : Dict String Reply) (jobPublicId : String) : ReplyStatus :=
  let replies := outbox.values.filter fun reply => reply.jobPublicId = jobPublicId
  if replies.any fun reply => reply.status = .pending then .pending
  else if replies.any fun reply => reply.status = .outcomeUnknown then .outcomeUnknown
  else .sent

def syncJobReplyStatus (store : Store) (jobPublicId : String) : Store :=
  store.updateJob jobPublicId fun job => { job with replyStatus := replySummary store.outbox jobPublicId }

/-- A reply for a result that already has one is not inserted again. -/
def enqueueReply (outbox : Dict String Reply) (publicId jobPublicId : String)
    (result : ResultIdentity) :
    Except CaptureError (Dict String Reply) :=
  if outbox.values.any fun reply => reply.jobPublicId = jobPublicId ∧ reply.result = result then .ok outbox
  else do
    require (outbox.get? publicId = none) .replyCollision
    return outbox.set publicId { jobPublicId, result }

def ensureResultReply (store : Store) (jobPublicId : String)
    (recovered : Except CaptureError ResultIdentity) :
    Except CaptureError (Reply × Store) := do
  let result ← recovered
  let publicId := replyPublicId sha256Hex jobPublicId result
  let outbox ← enqueueReply store.outbox publicId jobPublicId result
  let reply ← expect (outbox.get? publicId) .replyMissing
  require (reply.jobPublicId = jobPublicId ∧ reply.result = result) .replyCollision
  let job ← expect (store.jobs.get? jobPublicId) .activeProcessing
  require (job.leaseOwner = none ∧ job.status ≠ .captured) .activeProcessing
  let ready := Store.updateJob { store with outbox } jobPublicId fun job => { job with status := .resultReady }
  return (reply, syncJobReplyStatus ready jobPublicId)

/-- What the financial tables answer while a reply is prepared. -/
structure ResultSource where
  durable : Bool
  persistedPlan : String → Option String
  recover : String → Option String → Except CaptureError ResultIdentity

/-- A correction is recovered by its plan, which the tables know when the caller does not name it. -/
def replyPlan (source : ResultSource) (result : ResultIdentity) (plan : Option String) :
    Except CaptureError (Option String) :=
  if result.kind = .correction ∧ plan = none then
    some <$> expect (source.persistedPlan result.publicId) .planMissing
  else .ok plan

/-- The outcome is unknown before the caller crosses the send boundary. -/
def beginReplyAttempt (store : Store) (publicId : String) (source : ResultSource)
    (plan : Option String)
    (retryUnknown : Bool) (nonce : String) : Except CaptureError (Reply × Store) := do
  require source.durable .notDurable
  let reply ← expect (store.outbox.get? publicId) .replyMissing
  let plan ← replyPlan source reply.result plan
  let result ← source.recover reply.jobPublicId plan
  require (reply.result = result) .resultChanged
  require (reply.status = .pending ∨ (reply.status = .outcomeUnknown ∧ retryUnknown)) .unsafeRetry
  let attempt : Reply :=
    { reply with
      status := .outcomeUnknown
      sendAttemptNonce := some nonce
      sendAttemptCount := reply.sendAttemptCount + 1 }
  return (attempt, syncJobReplyStatus { store with outbox := store.outbox.set publicId attempt } reply.jobPublicId)

/-- A receipt counts for the last persisted attempt only. -/
def recordReplySent (store : Store) (publicId nonce : String) : Except CaptureError (Reply × Store) := do
  let reply ← expect (store.outbox.get? publicId) .replyMissing
  require (reply.sendAttemptNonce = some nonce ∧ (reply.status = .outcomeUnknown ∨ reply.status = .sent)) .staleNonce
  if reply.status = .outcomeUnknown then
    let sent : Reply := { reply with status := .sent }
    return (sent, syncJobReplyStatus { store with outbox := store.outbox.set publicId sent } reply.jobPublicId)
  else return (reply, store)

end Replies

/-- The transactions on the two tables, with the clock readings and the rows of other tables that each of them sees. -/
inductive Call where
  | capture (intakePublicId : String) (kind : CaptureKind) (refusal : Option String)
  | replayCapture (intakePublicId : String) (kind : CaptureKind)
  | claim (publicId owner : String) (durationMs now : ℤ) (ai : Option AiRecord)
  | renew (lease : CaptureLease) (durationMs now : ℤ)
  | saveEvidence (lease : CaptureLease) (now : ℤ)
  | process (lease : CaptureLease) (opened closed : ℤ) (ai : Option AiRecord) (inputs : ProcessInputs)
  | finishReceipt (lease : CaptureLease) (now : ℤ) (ai : Option AiRecord)
  | markAttention (lease : CaptureLease) (opened closed : ℤ) (ai : Option AiRecord) (reason : String)
  | deferOcrTimeout (lease : CaptureLease) (opened closed now : ℤ) (ai : Option AiRecord)
  | promoteReview (publicId proposal : String) (ai : Option AiRecord) (source : Except CaptureError Unit)
      (review : Option ReviewRow) (now : ℤ)
  | existingReview (publicId proposal : String) (ai : Option AiRecord) (source : Except CaptureError Unit)
      (review : Option ReviewRow) (now : ℤ)
  | requireEdit (publicId proposal : String) (ai : Option AiRecord) (source : Except CaptureError Unit)
  | ensureReply (jobPublicId : String) (recovered : Except CaptureError ResultIdentity)
  | beginReply (publicId : String) (source : ResultSource) (plan : Option String) (retryUnknown : Bool)
      (nonce : String)
  | recordSent (publicId nonce : String)

inductive Answer where
  | done
  | lease (lease : CaptureLease)
  | review (settled : Bool)
  | reply (reply : Reply)

/-- The capture tables as a system of serialised transactions. -/
def captureSystem (sha256Hex : String → String) : System Store Call Answer CaptureError where
  perform store
    | .capture intakePublicId kind refusal =>
      (Answer.done, ·) <$> captureSource sha256Hex store intakePublicId kind refusal
    | .replayCapture intakePublicId kind => (Answer.done, ·) <$> ensureCaptureJob sha256Hex store intakePublicId kind
    | .claim publicId owner durationMs now ai =>
      Prod.map Answer.lease id <$> claimCaptureJob store publicId owner durationMs now ai
    | .renew lease durationMs now => Prod.map Answer.lease id <$> renewCaptureJobLease store lease durationMs now
    | .saveEvidence lease now => (fun _ => (Answer.done, store)) <$> assertCaptureLease store lease now
    | .process lease opened closed ai inputs =>
      (Answer.done, ·) <$> processClaimedCaptureJob store lease opened closed ai inputs
    | .finishReceipt lease now ai => (Answer.done, ·) <$> finish store lease now ai .processing none
    | .markAttention lease opened closed ai reason =>
      (Answer.done, ·) <$> markAttention store lease opened closed ai reason
    | .deferOcrTimeout lease opened closed now ai =>
      (Answer.done, ·) <$> deferOcrTimeout store lease opened closed now ai
    | .promoteReview publicId proposal ai source review now =>
      (Answer.done, ·) <$> promoteReviewStatus store publicId proposal ai source review now
    | .existingReview publicId proposal ai source review now =>
      Prod.map Answer.review id <$> existingReviewDisposition store publicId proposal ai source review now
    | .requireEdit publicId proposal ai source =>
      (Answer.done, ·) <$> markReviewRequiresEdit store publicId proposal ai source
    | .ensureReply jobPublicId recovered =>
      Prod.map Answer.reply id <$> ensureResultReply sha256Hex store jobPublicId recovered
    | .beginReply publicId source plan retryUnknown nonce =>
      Prod.map Answer.reply id <$> beginReplyAttempt store publicId source plan retryUnknown nonce
    | .recordSent publicId nonce => Prod.map Answer.reply id <$> recordReplySent store publicId nonce

end FinanceCore.Capture

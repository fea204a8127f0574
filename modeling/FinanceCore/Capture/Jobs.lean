import FinanceCore.Capture.Store

namespace FinanceCore.Capture

open Exceptions Option Prod

variable {now : ℤ} {ai : Option AiRecord} {lease : CaptureLease} {job : CaptureJob}

section Rows

variable {store : Store} {publicId : String}

@[simp] theorem outbox_updateJob (store : Store) (publicId : String)
    (change : CaptureJob → CaptureJob) :
    (store.updateJob publicId change).outbox = store.outbox := by
  unfold Store.updateJob
  split <;> rfl

@[simp] theorem get?_updateJob (store : Store) (publicId query : String)
    (change : CaptureJob → CaptureJob) :
    (store.updateJob publicId change).jobs.get? query =
      if query = publicId then (store.jobs.get? publicId).map change else store.jobs.get? query := by
  unfold Store.updateJob
  split
  · rename_i absent
    split_ifs with same
    · rw [same, absent]
      rfl
    · rfl
  · split_ifs <;> simp_all

theorem get?_updateJob_self {change : CaptureJob → CaptureJob}
    (found : store.jobs.get? publicId = some job) :
    (store.updateJob publicId change).jobs.get? publicId = some (change job) := by
  rw [get?_updateJob, if_pos rfl, found]
  rfl

/-- A job that was read is the stored row with the invocation evidence of its source. -/
theorem getCaptureJob_eq_ok {found : Option CaptureJob} {failure : CaptureError}
    (read : getCaptureJob store ai publicId = .ok found)
    (present : expect found failure = .ok job) :
    ∃ stored attempt status, store.jobs.get? publicId = some stored ∧
      job = { stored with aiAttemptPublicId := attempt, aiStatus := status } := by
  rw [expect_ok.mp present] at read
  unfold getCaptureJob at read
  split at read
  · cases read
  · rename_i stored known
    have same := some.inj (Except.ok.inj read)
    exact ⟨stored, _, _, known, same.symm⟩
  · rename_i stored record known
    obtain ⟨_, _, read⟩ := bind_ok.mp read
    have same := some.inj (pure_ok.mp read)
    exact ⟨stored, _, _, known, same.symm⟩

/-- A lease passes when its job holds it. -/
theorem assertCaptureLease_ok :
    assertCaptureLease store lease now = .ok () ↔
      ∃ job, store.jobs.get? lease.publicId = some job ∧ job.Holds lease now := by
  unfold assertCaptureLease
  simp only [bind_ok, expect_ok, require_ok]

/-- A checked job is the stored one with the state of its attempt. -/
theorem beginChecked_eq_ok (run : beginChecked store lease now ai = .ok job) :
    ∃ stored attempt status, store.jobs.get? lease.publicId = some stored ∧ stored.Holds lease now ∧
      job = { stored with aiAttemptPublicId := attempt, aiStatus := status } := by
  simp only [beginChecked, bind_ok] at run
  obtain ⟨_, fenced, found, read, run⟩ := run
  obtain ⟨stored, present, held⟩ := assertCaptureLease_ok.mp fenced
  obtain ⟨stored', attempt, status, present', shape⟩ := getCaptureJob_eq_ok read run
  obtain rfl := some.inj (present.symm.trans present')
  exact ⟨stored, attempt, status, present, held, shape⟩

end Rows

/-- What one transaction can do to a job. -/
inductive JobStep (job : CaptureJob) : CaptureJob → Prop
  | claimed (owner : String) (expiry : ℤ) (runnable : job.status = .captured ∨ job.status = .processing) :
      JobStep job { job with
        status := .processing
        leaseEpoch := job.leaseEpoch + 1
        leaseOwner := some owner
        leaseExpiresAt := some expiry
        ocrRetryNotBeforeMs := 0 }
  | renewed {lease : CaptureLease} {now : ℤ} (held : job.Holds lease now) (expiry : ℤ) :
      JobStep job { job with leaseExpiresAt := some expiry }
  | bound {lease : CaptureLease} {now : ℤ} (held : job.Holds lease now) (extraction proposal link : Option String) :
      JobStep job { job with
        ocrExtractionPublicId := extraction
        proposalPublicId := proposal
        proposalLinkPublicId := link }
  | released {lease : CaptureLease} {now : ℤ} (held : job.Holds lease now) (status : FinishStatus)
      (aiStatus : AiStatus) (attempt proposal lastError : Option String) :
      JobStep job { job with
        status := status.status
        aiStatus := aiStatus
        aiAttemptPublicId := attempt
        proposalPublicId := proposal
        leaseOwner := none
        leaseExpiresAt := none
        lastError := lastError }
  | deferred {lease : CaptureLease} {now : ℤ} (held : job.Holds lease now) (status : FinishStatus)
      (bounded : ocrTimeoutMaxAttempts ≤ job.ocrRetryCount + 1 → status = .needsAttention)
      (aiStatus : AiStatus) (attempt lastError : Option String) (notBefore : ℤ) :
      JobStep job { job with
        status := status.status
        aiStatus := aiStatus
        aiAttemptPublicId := attempt
        leaseOwner := none
        leaseExpiresAt := none
        lastError := lastError
        ocrRetryCount := job.ocrRetryCount + 1
        ocrRetryNotBeforeMs := notBefore }
  | reviewed (unleased : job.leaseOwner = none ∧ job.leaseExpiresAt = none) (status : JobStatus)
      (forward : job.status.rank ≤ status.rank ∧ 1 < status.rank ∧ status ≠ .resultReady)
      (lastError : Option String) : JobStep job { job with status, lastError }
  | answered (unowned : job.leaseOwner = none) (replyStatus : ReplyStatus) :
      JobStep job { job with status := .resultReady, replyStatus }
  | summarised (replyStatus : ReplyStatus) : JobStep job { job with replyStatus }

/-- What one transaction can do to the place of a job. -/
inductive JobChange : Option CaptureJob → Option CaptureJob → Prop
  | same (place : Option CaptureJob) : JobChange place place
  | created (job : CaptureJob) (status : job.status = .captured ∨ job.status = .needsAttention)
      (unleased : job.leaseOwner = none ∧ job.leaseExpiresAt = none) (unretried : job.ocrRetryCount = 0) :
      JobChange none (some job)
  | changed {job job' : CaptureJob} (step : JobStep job job') : JobChange (some job) (some job')

section Changes

variable {store after : Store}

variable {publicId intakePublicId : String} {sha256Hex : String → String} {kind : CaptureKind} {reply : Reply}

/-- One row changes by one step, and every other row stays. -/
theorem job_change_of_get? {job' : CaptureJob} (found : store.jobs.get? publicId = some job)
    (step : JobStep job job')
    (written : ∀ query, after.jobs.get? query = if query = publicId then some job' else store.jobs.get? query)
    (query : String) : JobChange (store.jobs.get? query) (after.jobs.get? query) := by
  rw [written]
  split_ifs with same
  · rw [same, found]
    exact .changed step
  · exact .same _

/-- A transaction of the processor or of a review changes jobs and leaves the outbox alone. -/
structure JobsOnly (store after : Store) : Prop where
  change : ∀ query, JobChange (store.jobs.get? query) (after.jobs.get? query)
  outbox : after.outbox = store.outbox

theorem JobsOnly.refl (store : Store) : JobsOnly store store := ⟨fun _ => .same _, rfl⟩

/-- A step of one job leaves all others. -/
theorem updateJob_only {change : CaptureJob → CaptureJob}
    (found : store.jobs.get? publicId = some job) (step : JobStep job (change job)) :
    JobsOnly store (store.updateJob publicId change) where
  change := by
    apply job_change_of_get? found step
    intro query
    rw [get?_updateJob, found]
    rfl
  outbox := outbox_updateJob _ _ _

/-- An intake has its job, or gets a new one. -/
theorem ensureCaptureJob_eq_ok (run : ensureCaptureJob sha256Hex store intakePublicId kind = .ok after) :
    (after = store ∧ ∃ entry ∈ store.jobs.entries, entry.2.intakePublicId = intakePublicId) ∨
      store.jobs.get? (captureJobPublicId sha256Hex intakePublicId) = none ∧
        after = ⟨store.jobs.set (captureJobPublicId sha256Hex intakePublicId) { intakePublicId, captureKind := kind },
          store.outbox⟩ := by
  obtain ⟨_, _, run⟩ := bind_ok.mp run
  split at run
  · rename_i entry found
    obtain ⟨_, _, run⟩ := bind_ok.mp run
    have same := List.find?_some found
    exact .inl ⟨(pure_ok.mp run).symm, entry, List.mem_of_find?_eq_some found, of_decide_eq_true same⟩
  · obtain ⟨_, free, run⟩ := bind_ok.mp run
    exact .inr ⟨require_ok.mp free, (pure_ok.mp run).symm⟩

/-- A job that is created has not been worked on. -/
theorem created_only (job : CaptureJob) (free : store.jobs.get? publicId = none)
    (status : job.status = .captured ∨ job.status = .needsAttention)
    (unleased : job.leaseOwner = none ∧ job.leaseExpiresAt = none)
    (unretried : job.ocrRetryCount = 0)
    (written : ∀ query, after.jobs.get? query = if query = publicId then some job else store.jobs.get? query)
    (outbox : after.outbox = store.outbox) : JobsOnly store after := by
  refine ⟨?_, outbox⟩
  intro query
  rw [written]
  split_ifs with same
  · rw [same, free]
    exact .created job status unleased unretried
  · exact .same _

theorem ensureCaptureJob_only (run : ensureCaptureJob sha256Hex store intakePublicId kind = .ok after) :
    JobsOnly store after := by
  rcases ensureCaptureJob_eq_ok run with ⟨rfl, _⟩ | ⟨free, rfl⟩
  · exact .refl _
  · exact created_only { intakePublicId, captureKind := kind } free (.inl rfl) ⟨rfl, rfl⟩ rfl
      (fun query => Dict.get?_set _ _ query _) rfl

/-- The refusal of a control text marks the job that was just created for it. -/
theorem captureSource_only {refusal : Option String}
    (run : captureSource sha256Hex store intakePublicId kind refusal = .ok after) : JobsOnly store after := by
  simp only [captureSource, bind_ok] at run
  obtain ⟨_, fresh, captured, created, run⟩ := run
  cases refusal with
  | none =>
    obtain rfl := pure_ok.mp run
    exact ensureCaptureJob_only created
  | some code =>
    obtain rfl := pure_ok.mp run
    rcases ensureCaptureJob_eq_ok created with ⟨_, entry, member, same⟩ | ⟨free, rfl⟩
    · exact absurd same (require_ok.mp fresh entry member)
    · let marked : CaptureJob :=
        { intakePublicId, captureKind := kind, status := .needsAttention, lastError := some code }
      refine created_only marked free (.inr rfl) ⟨rfl, rfl⟩ rfl ?_ (outbox_updateJob _ _ _)
      intro query
      simp only [markControlRefusal, get?_updateJob, Dict.get?_set, if_pos, map_some]
      split_ifs <;> rfl

variable {durationMs opened closed : ℤ} {status : FinishStatus} {lastError : Option String} {inputs : ProcessInputs}
  {nonce : String} {β ε : Type} {answer : β} {call : Call}

/-- A claim takes a runnable job and raises its lease epoch. -/
theorem claimCaptureJob_eq_ok {owner : String}
    (run : claimCaptureJob store publicId owner durationMs now ai = .ok (lease, after)) :
    ∃ job, store.jobs.get? publicId = some job ∧ (job.status = .captured ∨ job.status = .processing) ∧
      lease = ⟨publicId, owner, job.leaseEpoch + 1, now + durationMs⟩ ∧ after = store.updateJob publicId fun stored =>
        { stored with
          status := .processing
          leaseEpoch := job.leaseEpoch + 1
          leaseOwner := some owner
          leaseExpiresAt := some (now + durationMs)
          ocrRetryNotBeforeMs := 0 } := by
  simp only [claimCaptureJob, bind_ok, pure_ok, mk.injEq, require_ok] at run
  obtain ⟨_, _, _, _, found, read, job, present, _, runnable, _, _, _, _, _, _, _, _, rfl, rfl⟩ := run
  obtain ⟨stored, attempt, status, known, rfl⟩ := getCaptureJob_eq_ok read present
  exact ⟨stored, known, runnable, rfl, rfl⟩

theorem renewCaptureJobLease_eq_ok {renewed : CaptureLease}
    (run : renewCaptureJobLease store lease durationMs now = .ok (renewed, after)) :
    assertCaptureLease store lease now = .ok () ∧
      after = store.updateJob lease.publicId fun job => { job with leaseExpiresAt := some (now + durationMs) } := by
  simp only [renewCaptureJobLease, bind_ok] at run
  obtain ⟨_, _, _, fenced, _, _, run⟩ := run
  exact ⟨fenced, (mk.inj (pure_ok.mp run)).2.symm⟩

/-- A finished job has lost its lease. -/
theorem finish_eq_ok (run : finish store lease now ai status lastError = .ok after) :
    ∃ job, store.jobs.get? lease.publicId = some job ∧ job.Holds lease now ∧
      after = store.updateJob lease.publicId fun job =>
        { job with
          status := status.status
          aiStatus := (aiState ai).2
          aiAttemptPublicId := (aiState ai).1
          leaseOwner := none
          leaseExpiresAt := none
          lastError := lastError } := by
  simp only [finish, bind_ok] at run
  obtain ⟨job, checked, _, _, _, _, run⟩ := run
  obtain ⟨stored, _, _, found, held, _⟩ := beginChecked_eq_ok checked
  exact ⟨stored, found, held, (pure_ok.mp run).symm⟩

/-- A released lease leaves no owner and the epoch of the lease. -/
def Releases (store : Store) (lease : CaptureLease) (after : Store) : Prop :=
  ∃ job job' now, store.jobs.get? lease.publicId = some job ∧ job.Holds lease now ∧ JobStep job job' ∧
    job'.leaseOwner = none ∧ job'.leaseEpoch = job.leaseEpoch ∧
    (∀ query, after.jobs.get? query = if query = lease.publicId then some job' else store.jobs.get? query) ∧
    after.outbox = store.outbox

/-- Finishing releases the lease. -/
theorem finish_releases (run : finish store lease now ai status lastError = .ok after) :
    Releases store lease after := by
  obtain ⟨job, found, held, rfl⟩ := finish_eq_ok run
  refine ⟨job, _, now, found, held,
    .released held status (aiState ai).2 (aiState ai).1 job.proposalPublicId lastError, rfl, rfl, ?_, outbox_updateJob _ _ _⟩
  intro query
  rw [get?_updateJob, found]
  rfl

theorem finishText_releases {proposal : Option String}
    (run : finishText store lease now ai job proposal = .ok after) : Releases store lease after := by
  cases proposal with
  | none => exact finish_releases run
  | some proposal =>
    simp only [finishText, bind_ok] at run
    obtain ⟨_, _, _, _, run⟩ := run
    obtain ⟨bound, found, held, rfl⟩ := finish_eq_ok run
    rw [get?_updateJob, if_pos rfl] at found
    obtain ⟨stored, known, rfl⟩ := map_eq_some_iff.mp found
    have held : stored.Holds lease now := held
    refine ⟨stored, _, now, known, held,
      .released held .processing (aiState ai).2 (aiState ai).1 (some proposal) none, rfl, rfl, ?_,
      (outbox_updateJob _ _ _).trans (outbox_updateJob _ _ _)⟩
    intro query
    simp only [get?_updateJob, if_pos, known, map_some]
    split_ifs <;> rfl

/-- So does a deferral. -/
theorem deferOcrTimeout_releases (run : deferOcrTimeout store lease opened closed now ai = .ok after) :
    Releases store lease after := by
  obtain ⟨job, checked, run⟩ := bind_ok.mp run
  obtain ⟨stored, attempt, status, found, _, rfl⟩ := beginChecked_eq_ok checked
  dsimp only at run
  split_ifs at run with exhausted
  · obtain ⟨finished, ended, run⟩ := bind_ok.mp run
    obtain ⟨stored', found', held, rfl⟩ := finish_eq_ok ended
    obtain rfl := some.inj (found.symm.trans found')
    obtain rfl := pure_ok.mp run
    refine ⟨stored, _, closed, found, held, .deferred held .needsAttention (fun _ => rfl) (aiState ai).2 (aiState ai).1
      (some "ocr_timeout_exhausted") 0, rfl, rfl, ?_, (outbox_updateJob _ _ _).trans (outbox_updateJob _ _ _)⟩
    intro query
    simp only [get?_updateJob, if_pos, found, map_some]
    split_ifs <;> rfl
  · simp only [bind_ok] at run
    obtain ⟨finished, ended, backoff, _, _, _, _, _, run⟩ := run
    obtain ⟨stored', found', held, rfl⟩ := finish_eq_ok ended
    obtain rfl := some.inj (found.symm.trans found')
    obtain rfl := pure_ok.mp run
    refine ⟨stored, _, closed, found, held, .deferred held .processing (fun more => absurd more exhausted)
      (aiState ai).2 (aiState ai).1 (some "ocr_timeout_retry_pending") (now + backoff), rfl, rfl, ?_,
      (outbox_updateJob _ _ _).trans (outbox_updateJob _ _ _)⟩
    intro query
    simp only [get?_updateJob, if_pos, found, map_some]
    split_ifs <;> rfl

/-- A release changes one job. -/
theorem Releases.only (released : Releases store lease after) : JobsOnly store after := by
  obtain ⟨job, job', now, found, _, step, _, _, written, outbox⟩ := released
  exact ⟨job_change_of_get? found step written, outbox⟩

theorem bindStages_only (fenced : assertCaptureLease store lease now = .ok ())
    (run : bindStages store lease job inputs = .ok after) : JobsOnly store after := by
  simp only [bindStages, bind_ok, pure_ok] at run
  obtain ⟨_, _, stages, _, _, _, _, _, _, _, _, _, _, _, _, _, _, _, rfl⟩ := run
  obtain ⟨stored, found, held⟩ := assertCaptureLease_ok.mp fenced
  exact updateJob_only found (.bound held (some stages.extraction) (some stages.proposal) (some stages.link))

/-- Processing changes one job. -/
theorem processClaimedCaptureJob_only
    (run : processClaimedCaptureJob store lease opened closed ai inputs = .ok after) : JobsOnly store after := by
  obtain ⟨job, checked, run⟩ := bind_ok.mp run
  obtain ⟨_, _, run⟩ := bind_ok.mp run
  obtain ⟨_, fenced, _⟩ := bind_ok.mp checked
  cases kind : job.captureKind with
  | text =>
    rw [kind] at run
    exact (finishText_releases run).only
  | receiptImage =>
    rw [kind] at run
    exact bindStages_only fenced run

variable {publicId proposal : String} {source : Except CaptureError Unit} {review : Option ReviewRow}

theorem promoteReviewStatus_only
    (run : promoteReviewStatus store publicId proposal ai source review now = .ok after) : JobsOnly store after := by
  simp only [promoteReviewStatus, bind_ok] at run
  obtain ⟨found, read, job, present, _, ready, _, _, _, _, _, _, _, _, run⟩ := run
  obtain ⟨stored, attempt, status, known, shape⟩ := getCaptureJob_eq_ok read present
  rw [shape] at ready run
  have unleased : stored.leaseOwner = none ∧ stored.leaseExpiresAt = none := (require_ok.mp ready).2.2
  split_ifs at run with processing
  · rw [← pure_ok.mp run]
    refine updateJob_only known (.reviewed unleased .awaitingUser ⟨?_, by decide, by decide⟩ stored.lastError)
    rw [processing]
    decide
  · rw [← pure_ok.mp run]
    exact .refl _

/-- So does an existing review. -/
theorem existingReviewDisposition_only {settled : Bool}
    (run : existingReviewDisposition store publicId proposal ai source review now = .ok (settled, after)) :
    JobsOnly store after := by
  simp only [existingReviewDisposition, bind_ok] at run
  obtain ⟨found, read, job, present, _, ready, _, _, _, _, run⟩ := run
  obtain ⟨stored, attempt, status, known, shape⟩ := getCaptureJob_eq_ok read present
  rw [shape] at ready run
  have unleased : stored.leaseOwner = none ∧ stored.leaseExpiresAt = none := (require_ok.mp ready).2.2
  cases review with
  | none =>
    obtain ⟨_, _, run⟩ := bind_ok.mp run
    rw [← (mk.inj (pure_ok.mp run)).2]
    exact .refl _
  | some review =>
    obtain ⟨_, _, run⟩ := bind_ok.mp run
    cases accepted : review.accepted with
    | some decision =>
      rw [accepted] at run
      obtain ⟨_, _, run⟩ := bind_ok.mp run
      rw [← (mk.inj (pure_ok.mp run)).2]
      exact .refl _
    | none =>
      rw [accepted] at run
      by_cases alive : now + minReviewRemainingSeconds < review.expiresAt
      · rw [if_pos alive] at run
        obtain ⟨_, _, run⟩ := bind_ok.mp run
        rw [← (mk.inj (pure_ok.mp run)).2]
        exact .refl _
      · rw [if_neg alive] at run
        obtain ⟨_, unanswered, run⟩ := bind_ok.mp run
        have notReady : stored.status ≠ .resultReady := require_ok.mp unanswered
        split_ifs at run with attention
        · rw [← (mk.inj (pure_ok.mp run)).2]
          exact .refl _
        · rw [← (mk.inj (pure_ok.mp run)).2]
          refine updateJob_only known
            (.reviewed unleased .needsAttention ⟨?_, by decide, by decide⟩ (some "review_expired"))
          cases here : stored.status with
          | resultReady => exact absurd here notReady
          | _ => decide

theorem markReviewRequiresEdit_only
    (run : markReviewRequiresEdit store publicId proposal ai source = .ok after) : JobsOnly store after := by
  simp only [markReviewRequiresEdit, bind_ok] at run
  obtain ⟨found, read, job, present, _, ready, _, _, run⟩ := run
  obtain ⟨stored, attempt, status, known, shape⟩ := getCaptureJob_eq_ok read present
  rw [shape] at ready
  obtain ⟨processing, _, unleased⟩ : stored.status = .processing ∧ stored.Reviewable proposal :=
    require_ok.mp ready
  rw [← pure_ok.mp run]
  refine updateJob_only known
    (.reviewed unleased .needsAttention ⟨?_, by decide, by decide⟩ (some "review_requires_edit"))
  rw [processing]
  decide

/-- The summary of the replies changes nothing else in a job. -/
theorem syncJobReplyStatus_change (jobs : Dict String CaptureJob) (outbox : Dict String Reply)
    (publicId query : String) :
    JobChange (jobs.get? query) ((syncJobReplyStatus ⟨jobs, outbox⟩ publicId).jobs.get? query) := by
  rw [syncJobReplyStatus, get?_updateJob]
  split_ifs with same
  · rw [same]
    cases jobs.get? publicId with
    | none => exact .same _
    | some job => exact .changed (.summarised _)
  · exact .same _

/-- A reply leaves a job as it is, up to its reply status. -/
theorem ensureResultReply_change {recovered : Except CaptureError ResultIdentity}
    (run : ensureResultReply sha256Hex store publicId recovered = .ok (reply, after))
    (query : String) :
    JobChange (store.jobs.get? query) (after.jobs.get? query) := by
  simp only [ensureResultReply, bind_ok, require_ok, expect_ok] at run
  obtain ⟨result, _, outbox, _, _, _, _, _, job, present, _, ready, run⟩ := run
  have known := present
  obtain ⟨unowned, _⟩ := ready
  rw [← (mk.inj (pure_ok.mp run)).2]
  refine job_change_of_get? known (.answered unowned (replySummary outbox publicId)) ?_ query
  intro query
  simp only [syncJobReplyStatus, get?_updateJob, if_pos, known, map_some, outbox_updateJob]
  split_ifs <;> rfl

theorem beginReplyAttempt_change {source : ResultSource} {plan : Option String}
    {retryUnknown : Bool}
    (run : beginReplyAttempt store publicId source plan retryUnknown nonce = .ok (reply, after))
    (query : String) :
    JobChange (store.jobs.get? query) (after.jobs.get? query) := by
  simp only [beginReplyAttempt, bind_ok] at run
  obtain ⟨_, _, found, _, _, _, _, _, _, _, _, _, run⟩ := run
  rw [← (mk.inj (pure_ok.mp run)).2]
  exact syncJobReplyStatus_change store.jobs _ _ query

theorem recordReplySent_change (run : recordReplySent store publicId nonce = .ok (reply, after))
    (query : String) :
    JobChange (store.jobs.get? query) (after.jobs.get? query) := by
  simp only [recordReplySent, bind_ok] at run
  obtain ⟨found, _, _, _, run⟩ := run
  split_ifs at run
  · rw [← (mk.inj (pure_ok.mp run)).2]
    exact syncJobReplyStatus_change store.jobs _ _ query
  · rw [← (mk.inj (pure_ok.mp run)).2]
    exact .same _

theorem prodMap_ok {α : Type} {first : Except ε (α × Store)} {wrap : α → β}
    (run : map wrap id <$> first = .ok (answer, after)) :
    ∃ value, first = .ok (value, after) ∧ wrap value = answer := by
  obtain ⟨⟨value, stored⟩, done, same⟩ := map_ok.mp run
  obtain ⟨wrapped, rfl⟩ := mk.inj same
  exact ⟨value, done, wrapped⟩

theorem pair_ok {first : Except ε Store} {label : β} (run : (label, ·) <$> first = .ok (answer, after)) :
    first = .ok after := by
  obtain ⟨stored, done, same⟩ := map_ok.mp run
  exact (mk.inj same).2 ▸ done

/-- The transactions that write the outbox. -/
def Call.concernsReply : Call → Bool
  | .ensureReply _ _ => true
  | .beginReply _ _ _ _ _ => true
  | .recordSent _ _ => true
  | _ => false

/-- Every other transaction leaves the outbox alone. -/
theorem perform_only {answer : Answer} (done : (captureSystem sha256Hex).perform store call = .ok (answer, after))
    (other : call.concernsReply = false) : JobsOnly store after := by
  cases call with
  | capture => exact captureSource_only (pair_ok done)
  | replayCapture => exact ensureCaptureJob_only (pair_ok done)
  | claim =>
    obtain ⟨lease, run, _⟩ := prodMap_ok done
    obtain ⟨job, known, runnable, _, rfl⟩ := claimCaptureJob_eq_ok run
    exact updateJob_only known (.claimed _ _ runnable)
  | renew =>
    obtain ⟨lease, run, _⟩ := prodMap_ok done
    obtain ⟨fenced, rfl⟩ := renewCaptureJobLease_eq_ok run
    obtain ⟨job, known, held⟩ := assertCaptureLease_ok.mp fenced
    exact updateJob_only known (.renewed held _)
  | saveEvidence =>
    obtain ⟨_, _, same⟩ := map_ok.mp done
    rw [← (mk.inj same).2]
    exact .refl _
  | process => exact processClaimedCaptureJob_only (pair_ok done)
  | finishReceipt => exact (finish_releases (pair_ok done)).only
  | markAttention =>
    obtain ⟨_, _, run⟩ := bind_ok.mp (pair_ok done)
    exact (finish_releases run).only
  | deferOcrTimeout => exact (deferOcrTimeout_releases (pair_ok done)).only
  | promoteReview => exact promoteReviewStatus_only (pair_ok done)
  | existingReview =>
    obtain ⟨_, run, _⟩ := prodMap_ok done
    exact existingReviewDisposition_only run
  | requireEdit => exact markReviewRequiresEdit_only (pair_ok done)
  | _ => cases other

/-- Every committed transaction changes every job by at most one step. -/
theorem perform_change {answer : Answer} (done : (captureSystem sha256Hex).perform store call = .ok (answer, after))
    (query : String) : JobChange (store.jobs.get? query) (after.jobs.get? query) := by
  cases call with
  | ensureReply =>
    obtain ⟨_, run, _⟩ := prodMap_ok done
    exact ensureResultReply_change run query
  | beginReply =>
    obtain ⟨_, run, _⟩ := prodMap_ok done
    exact beginReplyAttempt_change run query
  | recordSent =>
    obtain ⟨_, run, _⟩ := prodMap_ok done
    exact recordReplySent_change run query
  | _ => exact (perform_only done rfl).change query

end Changes

end FinanceCore.Capture

import FinanceCore.Capture.Jobs

namespace FinanceCore.Capture

open Exceptions Transactions Option

theorem JobStatus.rank_le_ready (status : JobStatus) : status.rank ≤ JobStatus.resultReady.rank := by
  cases status <;> decide

theorem JobStatus.rank_of_runnable {status : JobStatus}
    (runnable : status = .captured ∨ status = .processing) :
    status.rank ≤ JobStatus.processing.rank := by
  rcases runnable with rfl | rfl <;> decide

theorem FinishStatus.rank_ge (status : FinishStatus) : JobStatus.processing.rank ≤ status.status.rank := by
  cases status <;> decide

/-- A job only advances: its epoch grows, an epoch without an owner stays without one, the status never moves back. -/
structure CaptureJob.Before (job later : CaptureJob) : Prop where
  epoch : job.leaseEpoch ≤ later.leaseEpoch
  unowned : job.leaseOwner = none → later.leaseEpoch = job.leaseEpoch → later.leaseOwner = none
  status : job.status.rank ≤ later.status.rank

theorem CaptureJob.Before.refl (job : CaptureJob) : job.Before job := ⟨le_rfl, fun none _ => none, le_rfl⟩

theorem CaptureJob.Before.trans {first second third : CaptureJob} (one : first.Before second)
    (two : second.Before third) : first.Before third where
  epoch := one.epoch.trans two.epoch
  unowned := by
    intro none same
    have lower := one.epoch
    have upper := two.epoch
    exact two.unowned (one.unowned none (by omega)) (by omega)
  status := one.status.trans two.status

theorem JobStep.before {job later : CaptureJob} (step : JobStep job later) : job.Before later := by
  cases step with
  | claimed owner expiry runnable =>
    exact ⟨Nat.le_succ _, fun _ same => absurd same (Nat.succ_ne_self _), JobStatus.rank_of_runnable runnable⟩
  | renewed held expiry => exact ⟨le_rfl, fun none _ => none, le_rfl⟩
  | bound held extraction proposal link => exact ⟨le_rfl, fun none _ => none, le_rfl⟩
  | released held status aiStatus attempt proposal lastError =>
    refine ⟨le_rfl, fun _ _ => rfl, ?_⟩
    rw [held.2.2.2]
    exact status.rank_ge
  | deferred held status bounded aiStatus attempt lastError notBefore =>
    refine ⟨le_rfl, fun _ _ => rfl, ?_⟩
    rw [held.2.2.2]
    exact status.rank_ge
  | reviewed unleased status forward lastError => exact ⟨le_rfl, fun none _ => none, forward.1⟩
  | answered unowned replyStatus => exact ⟨le_rfl, fun none _ => none, job.status.rank_le_ready⟩
  | summarised replyStatus => exact ⟨le_rfl, fun none _ => none, le_rfl⟩

/-- No job disappears, and every job only advances. -/
def Store.Before (store later : Store) : Prop :=
  ∀ publicId job, store.jobs.get? publicId = some job → ∃ job', later.jobs.get? publicId = some job' ∧ job.Before job'

theorem JobChange.before {place later : Option CaptureJob} (change : JobChange place later)
    {job : CaptureJob}
    (present : place = some job) : ∃ job', later = some job' ∧ job.Before job' := by
  cases change with
  | same => exact ⟨job, present, .refl job⟩
  | created => cases present
  | changed step =>
    obtain rfl := some.inj present
    exact ⟨_, rfl, step.before⟩

section Runs

variable (sha256Hex : String → String)

/-- A run of any transactions only advances the jobs. -/
theorem run_before (store : Store) (calls : List Call) :
    store.Before ((captureSystem sha256Hex).run store calls) := by
  apply System.run_moves
  · intro store publicId job found
    exact ⟨job, found, .refl job⟩
  · intro first second third one two publicId job found
    obtain ⟨job', found', before⟩ := one publicId job found
    obtain ⟨job'', found'', later⟩ := two publicId job' found'
    exact ⟨job'', found'', before.trans later⟩
  · intro store call answer after done publicId job found
    exact (perform_change done publicId).before found

end Runs

section Fencing

variable (sha256Hex : String → String)

/-- The store commits a claim and hands out the lease. -/
def Claims (store : Store) (lease : CaptureLease) (after : Store) : Prop :=
  ∃ owner durationMs now ai, (captureSystem sha256Hex).perform store
    (.claim lease.publicId owner durationMs now ai) = .ok (.lease lease, after)

/-- The lease that a save presents to the fence. -/
def Call.guard : Call → Option CaptureLease
  | .renew lease _ _ => some lease
  | .saveEvidence lease _ => some lease
  | .process lease _ _ _ _ => some lease
  | .finishReceipt lease _ _ => some lease
  | .markAttention lease _ _ _ _ => some lease
  | .deferOcrTimeout lease _ _ _ _ => some lease
  | _ => none

variable {sha256Hex} {store after : Store} {lease : CaptureLease}

variable {call : Call} {answer : Answer} {stale : CaptureLease}

/-- A save commits only behind the fence. -/
theorem guarded_fenced (guarded : call.guard = some lease)
    (done : (captureSystem sha256Hex).perform store call = .ok (answer, after)) :
    ∃ now, assertCaptureLease store lease now = .ok () := by
  have checked {opened : ℤ} {ai : Option AiRecord} {job : CaptureJob}
      (run : beginChecked store lease opened ai = .ok job) : assertCaptureLease store lease opened = .ok () := by
    obtain ⟨_, fenced, _⟩ := bind_ok.mp run
    exact fenced
  cases call with
  | renew =>
    obtain rfl := some.inj guarded
    obtain ⟨_, run, _⟩ := prodMap_ok done
    exact ⟨_, (renewCaptureJobLease_eq_ok run).1⟩
  | saveEvidence =>
    obtain rfl := some.inj guarded
    obtain ⟨_, fenced, _⟩ := map_ok.mp done
    exact ⟨_, fenced⟩
  | process =>
    obtain rfl := some.inj guarded
    obtain ⟨_, run, _⟩ := bind_ok.mp (pair_ok done)
    exact ⟨_, checked run⟩
  | finishReceipt =>
    obtain rfl := some.inj guarded
    obtain ⟨_, run, _⟩ := bind_ok.mp (pair_ok done)
    exact ⟨_, checked run⟩
  | markAttention =>
    obtain rfl := some.inj guarded
    obtain ⟨_, run, _⟩ := bind_ok.mp (pair_ok done)
    exact ⟨_, checked run⟩
  | deferOcrTimeout =>
    obtain rfl := some.inj guarded
    obtain ⟨_, run, _⟩ := bind_ok.mp (pair_ok done)
    exact ⟨_, checked run⟩
  | _ => cases guarded

/-- A claim raises the epoch of its job and leases it. -/
theorem Claims.epoch (claims : Claims sha256Hex store lease after) :
    (∃ job, store.jobs.get? lease.publicId = some job ∧ lease.epoch = job.leaseEpoch + 1) ∧
      ∃ job, after.jobs.get? lease.publicId = some job ∧ job.leaseEpoch = lease.epoch := by
  obtain ⟨owner, durationMs, now, ai, done⟩ := claims
  obtain ⟨granted, run, same⟩ := prodMap_ok done
  obtain rfl := Answer.lease.inj same
  obtain ⟨job, found, _, shape, rfl⟩ := claimCaptureJob_eq_ok run
  have raised : granted.epoch = job.leaseEpoch + 1 := by rw [shape]
  exact ⟨⟨job, found, raised⟩, _, get?_updateJob_self found, raised.symm⟩

/-- After a claim no lease of a smaller epoch passes the fence. -/
theorem Claims.fences (claims : Claims sha256Hex store lease after) (later : List Call)
    (same : stale.publicId = lease.publicId) (older : stale.epoch < lease.epoch) (now : ℤ) :
    assertCaptureLease ((captureSystem sha256Hex).run after later) stale now ≠ .ok () := by
  intro passed
  obtain ⟨_, job, found, epoch⟩ := claims.epoch
  obtain ⟨job', found', before⟩ := run_before sha256Hex after later lease.publicId job found
  obtain ⟨holder, held, fence⟩ := assertCaptureLease_ok.mp passed
  rw [same] at held
  obtain rfl := some.inj (held.symm.trans found')
  have grown := before.epoch
  have stamped := fence.1
  omega

/-- The lease that a transaction gives back; the processing of a text ends with it. -/
def Call.release (store : Store) : Call → Option CaptureLease
  | .finishReceipt lease _ _ => some lease
  | .markAttention lease _ _ _ _ => some lease
  | .deferOcrTimeout lease _ _ _ _ => some lease
  | .process lease _ _ _ _ =>
    if (store.jobs.get? lease.publicId).any fun job => job.captureKind = .text then some lease else none
  | _ => none

theorem release_releases (gives : call.release store = some lease)
    (done : (captureSystem sha256Hex).perform store call = .ok (answer, after)) : Releases store lease after := by
  cases call with
  | finishReceipt =>
    obtain rfl := some.inj gives
    exact finish_releases (pair_ok done)
  | markAttention =>
    obtain rfl := some.inj gives
    obtain ⟨_, _, run⟩ := bind_ok.mp (pair_ok done)
    exact finish_releases run
  | deferOcrTimeout =>
    obtain rfl := some.inj gives
    exact deferOcrTimeout_releases (pair_ok done)
  | process holder =>
    dsimp only [Call.release] at gives
    split_ifs at gives with text
    obtain rfl := some.inj gives
    obtain ⟨job, checked, run⟩ := bind_ok.mp (pair_ok done)
    obtain ⟨_, _, run⟩ := bind_ok.mp run
    obtain ⟨stored, attempt, status, found, held, shape⟩ := beginChecked_eq_ok checked
    have kind : job.captureKind = .text := by
      rw [found] at text
      rw [shape]
      exact of_decide_eq_true text
    rw [kind] at run
    exact finishText_releases run
  | _ => cases gives

/-- A released lease never passes the fence again. -/
theorem Releases.fences (released : Releases store lease after) (later : List Call)
    (same : stale.publicId = lease.publicId) (older : stale.epoch ≤ lease.epoch) (now : ℤ) :
    assertCaptureLease ((captureSystem sha256Hex).run after later) stale now ≠ .ok () := by
  intro passed
  obtain ⟨job, free, opened, found, held, _, unowned, epoch, written, _⟩ := released
  have left : after.jobs.get? lease.publicId = some free := by rw [written, if_pos rfl]
  obtain ⟨job', found', before⟩ := run_before sha256Hex after later lease.publicId free left
  obtain ⟨holder, holds, fence⟩ := assertCaptureLease_ok.mp passed
  rw [same] at holds
  obtain rfl := some.inj (holds.symm.trans found')
  have grown := before.epoch
  have stamped := fence.1
  have granted := held.1
  have nobody := before.unowned unowned (by omega)
  have owned := fence.2.1
  rw [nobody] at owned
  cases owned

theorem renew_refused (refused : ∀ now, assertCaptureLease store lease now ≠ .ok ())
    (durationMs now : ℤ)
    (result : CaptureLease × Store) : renewCaptureJobLease store lease durationMs now ≠ .ok result := by
  intro renewed
  exact refused now (renewCaptureJobLease_eq_ok renewed).1

end Fencing

/-- Leases are fenced by their epochs over every interleaving, whatever the clocks of the workers read: epochs of
claims grow, one epoch at most passes the fence, a later claim or a release shuts out every lease up to then, an
expired lease is not renewed, and no guarded save of a superseded worker commits. -/
theorem capture_lease_fencing (sha256Hex : String → String) (store : Store) :
    (∀ lease after later lease' after', Claims sha256Hex store lease after →
      Claims sha256Hex ((captureSystem sha256Hex).run after later) lease' after' →
      lease'.publicId = lease.publicId → lease.epoch < lease'.epoch) ∧
    (∀ lease lease' now now', lease.publicId = lease'.publicId → assertCaptureLease store lease now = .ok () →
      assertCaptureLease store lease' now' = .ok () → lease.epoch = lease'.epoch) ∧
    (∀ lease after later stale now, Claims sha256Hex store lease after → stale.publicId = lease.publicId →
      stale.epoch < lease.epoch →
      assertCaptureLease ((captureSystem sha256Hex).run after later) stale now ≠ .ok ()) ∧
    (∀ call answer lease after later durationMs now result, call.release store = some lease →
      (captureSystem sha256Hex).perform store call = .ok (answer, after) →
      renewCaptureJobLease ((captureSystem sha256Hex).run after later) lease durationMs now ≠ .ok result) ∧
    (∀ lease job durationMs now result, store.jobs.get? lease.publicId = some job →
      (∀ expiry ∈ job.leaseExpiresAt, expiry ≤ now) →
      renewCaptureJobLease store lease durationMs now ≠ .ok result) ∧
    (∀ lease after later stale call answer final, Claims sha256Hex store lease after →
      stale.publicId = lease.publicId → stale.epoch < lease.epoch → call.guard = some stale →
      (captureSystem sha256Hex).perform ((captureSystem sha256Hex).run after later) call ≠ .ok (answer, final)) := by
  refine ⟨?_, ?_, ?_, ?_, ?_, ?_⟩
  · intro lease after later lease' after' first second same
    obtain ⟨_, job, found, epoch⟩ := first.epoch
    obtain ⟨⟨job', found', raised⟩, _⟩ := second.epoch
    obtain ⟨reached, known, before⟩ := run_before sha256Hex after later lease.publicId job found
    rw [same] at found'
    obtain rfl := Option.some.inj (known.symm.trans found')
    have grown := before.epoch
    omega
  · intro lease lease' now now' same passes passes'
    obtain ⟨job, found, held⟩ := assertCaptureLease_ok.mp passes
    obtain ⟨job', found', held'⟩ := assertCaptureLease_ok.mp passes'
    rw [← same] at found'
    obtain rfl := Option.some.inj (found.symm.trans found')
    exact held.1.symm.trans held'.1
  · intro lease after later stale now claims same older
    exact claims.fences later same older now
  · intro call answer lease after later durationMs now result gives done
    exact renew_refused ((release_releases gives done).fences later rfl le_rfl) durationMs now result
  · intro lease job durationMs now result found expired renewed
    obtain ⟨job', found', held⟩ := assertCaptureLease_ok.mp (renewCaptureJobLease_eq_ok renewed).1
    obtain rfl := Option.some.inj (found.symm.trans found')
    obtain ⟨expiry, stated, alive⟩ := held.2.2.1
    exact absurd (expired expiry stated) (not_le.mpr alive)
  · intro lease after later stale call answer final claims same older guarded done
    obtain ⟨now, passed⟩ := guarded_fenced guarded done
    exact claims.fences later same older now passed

/-- A second worker takes over an expired lease; the first one is then fenced and saves nothing. -/
theorem capture_lease_fencing_takeover :
    let job := captureJobPublicId id "intake-1"
    let first : CaptureLease := ⟨job, "worker-1", 1, 6000⟩
    let second : CaptureLease := ⟨job, "worker-2", 2, 7000⟩
    ∃ captured claimed taken,
      (captureSystem id).perform Store.empty (.capture "intake-1" .receiptImage none) = .ok (.done, captured) ∧
      Claims id captured first claimed ∧ Claims id claimed second taken ∧
      (∀ now, assertCaptureLease taken first now ≠ .ok ()) ∧
      ∀ now answer final, (captureSystem id).perform taken (.saveEvidence first now) ≠ .ok (answer, final) := by
  intro job first second
  obtain ⟨captured, claimed, taken, capture, claims, takes⟩ : ∃ captured claimed taken,
      (captureSystem id).perform Store.empty (.capture "intake-1" .receiptImage none) = .ok (.done, captured) ∧
      Claims id captured first claimed ∧ Claims id claimed second taken :=
    ⟨_, _, _, rfl, ⟨"worker-1", 1000, 5000, none, rfl⟩, ⟨"worker-2", 1000, 6000, none, rfl⟩⟩
  obtain ⟨_, _, fenced, _, _, refused⟩ := capture_lease_fencing id claimed
  refine ⟨captured, claimed, taken, capture, claims, takes, ?_, ?_⟩
  · intro now
    exact fenced second taken [] first now takes rfl (by decide)
  · intro now answer final
    exact refused second taken [] first _ answer final takes rfl (by decide) rfl

/-- What holds for every job: a lease has an owner and an expiry and exists only while the job is processed, and the
third deadline stops the job. -/
structure CaptureJob.Sound (job : CaptureJob) : Prop where
  paired : job.leaseOwner = none ↔ job.leaseExpiresAt = none
  leased : job.status ≠ .processing → job.leaseOwner = none
  retries : job.ocrRetryCount < ocrTimeoutMaxAttempts ∨
    job.ocrRetryCount = ocrTimeoutMaxAttempts ∧ JobStatus.needsAttention.rank ≤ job.status.rank

theorem CaptureJob.Holds.retries {job : CaptureJob} {lease : CaptureLease} {now : ℤ}
    (held : job.Holds lease now)
    (sound : job.Sound) : job.ocrRetryCount < ocrTimeoutMaxAttempts := by
  rcases sound.retries with fewer | ⟨_, stopped⟩
  · exact fewer
  · rw [held.2.2.2] at stopped
    exact absurd stopped (by decide)

theorem JobStep.sound {job later : CaptureJob} (step : JobStep job later)
    (sound : job.Sound) : later.Sound := by
  have kept (status : JobStatus) (forward : job.status.rank ≤ status.rank) :
      job.ocrRetryCount < ocrTimeoutMaxAttempts ∨
        job.ocrRetryCount = ocrTimeoutMaxAttempts ∧ JobStatus.needsAttention.rank ≤ status.rank :=
    sound.retries.imp_right fun stopped => ⟨stopped.1, stopped.2.trans forward⟩
  have forward := step.before.status
  cases step with
  | claimed owner expiry runnable => exact ⟨by simp, fun other => absurd rfl other, kept _ forward⟩
  | renewed held expiry =>
    refine ⟨?_, sound.leased, sound.retries⟩
    simp [held.2.1]
  | bound held extraction proposal link => exact ⟨sound.paired, sound.leased, sound.retries⟩
  | released held status aiStatus attempt proposal lastError => exact ⟨by simp, fun _ => rfl, kept _ forward⟩
  | deferred held status bounded aiStatus attempt lastError notBefore =>
    refine ⟨by simp, fun _ => rfl, ?_⟩
    have fewer := held.retries sound
    rcases Nat.lt_or_ge (job.ocrRetryCount + 1) ocrTimeoutMaxAttempts with again | last
    · exact .inl again
    · exact .inr ⟨Nat.le_antisymm fewer last, by rw [bounded last]; rfl⟩
  | reviewed unleased status allowed lastError => exact ⟨sound.paired, fun _ => unleased.1, kept _ forward⟩
  | answered unowned replyStatus => exact ⟨sound.paired, fun _ => unowned, kept _ forward⟩
  | summarised replyStatus => exact ⟨sound.paired, sound.leased, sound.retries⟩

/-- Every job of the store is sound. -/
def Store.Sound (store : Store) : Prop := store.jobs.All CaptureJob.Sound

theorem perform_sound {sha256Hex : String → String} {store after : Store} {call : Call}
    {answer : Answer} (done : (captureSystem sha256Hex).perform store call = .ok (answer, after))
    (sound : store.Sound) : after.Sound := by
  intro publicId job found
  have change := perform_change done publicId
  rw [found] at change
  generalize place : store.jobs.get? publicId = before at change
  cases change with
  | same => exact sound publicId job place
  | created _ status unleased unretried =>
    refine ⟨?_, fun _ => unleased.1, .inl ?_⟩
    · rw [unleased.1, unleased.2]
      simp
    · rw [unretried]
      decide
  | changed step => exact step.sound (sound publicId _ place)

/-- Every job of a store that a run reaches is sound. -/
theorem run_sound (sha256Hex : String → String) (calls : List Call) :
    ((captureSystem sha256Hex).run Store.empty calls).Sound := by
  have initial : Store.empty.Sound := by
    intro publicId job found
    cases found
  exact System.run_keeps perform_sound initial calls

section Deferral

variable {store : Store}

theorem beginChecked_failsOnly (lease : CaptureLease) (now : ℤ) (ai : Option AiRecord) :
    FailsOnly (· ≠ .backoffIndex) (beginChecked store lease now ai) := by
  have read : FailsOnly (· ≠ .backoffIndex) (getCaptureJob store ai lease.publicId) := by
    unfold getCaptureJob
    split <;> simp
  simp [beginChecked, assertCaptureLease, read]

theorem finish_failsOnly (lease : CaptureLease) (now : ℤ) (ai : Option AiRecord)
    (status : FinishStatus)
    (lastError : Option String) : FailsOnly (· ≠ .backoffIndex) (finish store lease now ai status lastError) := by
  simp [finish, beginChecked_failsOnly]

/-- A deferral never looks outside the back-off table. -/
theorem deferOcrTimeout_failsOnly (lease : CaptureLease) (opened closed now : ℤ)
    (ai : Option AiRecord) :
    FailsOnly (· ≠ .backoffIndex) (deferOcrTimeout store lease opened closed now ai) := by
  refine failsOnly_bind.mpr ⟨beginChecked_failsOnly lease opened ai, fun job _ => ?_⟩
  dsimp only
  split_ifs with exhausted
  · simp [finish_failsOnly]
  · have inside : job.ocrRetryCount < ocrTimeoutBackoffMs.length := by
      change job.ocrRetryCount < 2
      change ¬ 3 ≤ job.ocrRetryCount + 1 at exhausted
      omega
    simp [finish_failsOnly, requireStorable, inside]

end Deferral

/-- A job never moves back, holds a lease only while it is processed, and is stopped by its third deadline. -/
theorem capture_job_lifecycle (sha256Hex : String → String) (calls later : List Call) :
    let store := (captureSystem sha256Hex).run Store.empty calls
    let final := (captureSystem sha256Hex).run store later
    (∀ publicId job, store.jobs.get? publicId = some job →
      ∃ job', final.jobs.get? publicId = some job' ∧ job.status.rank ≤ job'.status.rank ∧
        (job.status = .resultReady → job'.status = .resultReady)) ∧
    (∀ publicId job, store.jobs.get? publicId = some job →
      (job.status ≠ .processing → job.leaseOwner = none ∧ job.leaseExpiresAt = none) ∧
      job.ocrRetryCount ≤ 3 ∧
      (job.ocrRetryCount = 3 → ∀ owner durationMs now ai result,
        claimCaptureJob final publicId owner durationMs now ai ≠ .ok result)) ∧
    (∀ lease opened closed now ai, deferOcrTimeout store lease opened closed now ai ≠ .error .backoffIndex) := by
  intro store final
  have sound := run_sound sha256Hex calls
  have advanced := run_before sha256Hex store later
  refine ⟨?_, ?_, ?_⟩
  · intro publicId job found
    obtain ⟨job', found', before⟩ := advanced publicId job found
    refine ⟨job', found', before.status, ?_⟩
    intro ready
    have forward := before.status
    rw [ready] at forward
    cases here : job'.status with
    | resultReady => rfl
    | _ =>
      rw [here] at forward
      exact absurd forward (by decide)
  · intro publicId job found
    have facts := sound publicId job found
    refine ⟨?_, ?_, ?_⟩
    · intro idle
      exact ⟨facts.leased idle, facts.paired.mp (facts.leased idle)⟩
    · rcases facts.retries with fewer | ⟨last, _⟩
      · exact fewer.le
      · exact last.le
    · intro last owner durationMs now ai result claimed
      obtain ⟨job', found', before⟩ := advanced publicId job found
      obtain ⟨reached, known, runnable, _⟩ := claimCaptureJob_eq_ok claimed
      obtain rfl := Option.some.inj (found'.symm.trans known)
      rcases facts.retries with fewer | ⟨_, stopped⟩
      · exact absurd last fewer.ne
      · have halted := (stopped.trans before.status).trans (JobStatus.rank_of_runnable runnable)
        exact absurd halted (by decide)
  · intro lease opened closed now ai failed
    exact deferOcrTimeout_failsOnly lease opened closed now ai _ failed rfl

end FinanceCore.Capture

import FinanceCore.Capture.Jobs

namespace FinanceCore.Capture

open Exceptions Transactions List Dict Option

variable {store after : Store} {sha256Hex : String → String} {reply : Reply}

/-- The job of the reply carries the summary of its replies. -/
def Summarised (store : Store) (jobPublicId : String) : Prop :=
  ∀ job, store.jobs.get? jobPublicId = some job → job.replyStatus = replySummary store.outbox jobPublicId

@[simp] theorem outbox_syncJobReplyStatus (store : Store) (jobPublicId : String) :
    (syncJobReplyStatus store jobPublicId).outbox = store.outbox := outbox_updateJob _ _ _

theorem syncJobReplyStatus_summarised (store : Store) (jobPublicId : String) :
    Summarised (syncJobReplyStatus store jobPublicId) jobPublicId := by
  intro job found
  rw [syncJobReplyStatus, get?_updateJob, if_pos rfl] at found
  obtain ⟨stored, _, rfl⟩ := map_eq_some_iff.mp found
  rw [outbox_syncJobReplyStatus]

/-- What one transaction can do to the outbox. -/
inductive OutboxStep (sha256Hex : String → String) (store after : Store) : Call → Prop
  | idle {call : Call} (other : ∀ publicId source plan retryUnknown nonce,
      call ≠ .beginReply publicId source plan retryUnknown nonce) (same : after.outbox = store.outbox) :
      OutboxStep sha256Hex store after call
  | prepared {recovered : Except CaptureError ResultIdentity} {jobPublicId : String} (result : ResultIdentity)
      (enqueued : enqueueReply store.outbox (replyPublicId sha256Hex jobPublicId result) jobPublicId result =
        .ok after.outbox)
      (known : (store.jobs.get? jobPublicId).isSome) (summary : Summarised after jobPublicId) :
      OutboxStep sha256Hex store after (.ensureReply jobPublicId recovered)
  | attempted {publicId nonce : String} {source : ResultSource} {plan : Option String} {retryUnknown : Bool}
      {reply : Reply} (found : store.outbox.get? publicId = some reply)
      (allowed : reply.status = .pending ∨ (reply.status = .outcomeUnknown ∧ retryUnknown = true))
      (written : after.outbox = store.outbox.set publicId { reply with
        status := .outcomeUnknown
        sendAttemptNonce := some nonce
        sendAttemptCount := reply.sendAttemptCount + 1 })
      (summary : Summarised after reply.jobPublicId) :
      OutboxStep sha256Hex store after (.beginReply publicId source plan retryUnknown nonce)
  | delivered {publicId nonce : String} {reply : Reply} (found : store.outbox.get? publicId = some reply)
      (current : reply.sendAttemptNonce = some nonce) (unknown : reply.status = .outcomeUnknown)
      (written : after.outbox = store.outbox.set publicId { reply with status := .sent })
      (summary : Summarised after reply.jobPublicId) :
      OutboxStep sha256Hex store after (.recordSent publicId nonce)

section Inversion

variable {jobPublicId publicId nonce : String}

theorem ensureResultReply_step {recovered : Except CaptureError ResultIdentity}
    (run : ensureResultReply sha256Hex store jobPublicId recovered = .ok (reply, after)) :
    OutboxStep sha256Hex store after (.ensureReply jobPublicId recovered) := by
  simp only [ensureResultReply, bind_ok, expect_ok] at run
  obtain ⟨result, _, outbox, enqueued, _, _, _, _, job, present, _, _, run⟩ := run
  rw [← (Prod.mk.inj (pure_ok.mp run)).2]
  refine .prepared result ?_ ?_ (syncJobReplyStatus_summarised _ _)
  · rw [outbox_syncJobReplyStatus, outbox_updateJob]
    exact enqueued
  · rw [present]
    rfl

theorem beginReplyAttempt_step {source : ResultSource} {plan : Option String} {retryUnknown : Bool}
    (run : beginReplyAttempt store publicId source plan retryUnknown nonce = .ok (reply, after)) :
    OutboxStep sha256Hex store after (.beginReply publicId source plan retryUnknown nonce) := by
  simp only [beginReplyAttempt, bind_ok, require_ok, expect_ok] at run
  obtain ⟨_, _, found, present, _, _, _, _, _, _, _, allowed, run⟩ := run
  rw [← (Prod.mk.inj (pure_ok.mp run)).2]
  exact .attempted present allowed (outbox_syncJobReplyStatus _ _) (syncJobReplyStatus_summarised _ _)

theorem recordReplySent_step (run : recordReplySent store publicId nonce = .ok (reply, after)) :
    OutboxStep sha256Hex store after (.recordSent publicId nonce) := by
  simp only [recordReplySent, bind_ok] at run
  obtain ⟨found, present, _, current, run⟩ := run
  split_ifs at run with unknown
  · rw [← (Prod.mk.inj (pure_ok.mp run)).2]
    exact .delivered (expect_ok.mp present) (require_ok.mp current).1 unknown (outbox_syncJobReplyStatus _ _)
      (syncJobReplyStatus_summarised _ _)
  · rw [← (Prod.mk.inj (pure_ok.mp run)).2]
    exact .idle (fun _ _ _ _ _ => Call.noConfusion) rfl

theorem perform_outbox {call : Call} {answer : Answer}
    (done : (captureSystem sha256Hex).perform store call = .ok (answer, after)) :
    OutboxStep sha256Hex store after call := by
  cases call with
  | ensureReply =>
    obtain ⟨_, run, _⟩ := prodMap_ok done
    exact ensureResultReply_step run
  | beginReply =>
    obtain ⟨_, run, _⟩ := prodMap_ok done
    exact beginReplyAttempt_step run
  | recordSent =>
    obtain ⟨_, run, _⟩ := prodMap_ok done
    exact recordReplySent_step run
  | _ => exact .idle (fun _ _ _ _ _ => Call.noConfusion) (perform_only done rfl).outbox

theorem enqueueReply_eq_ok {outbox result : Dict String Reply} {identity : ResultIdentity}
    (run : enqueueReply outbox publicId jobPublicId identity = .ok result) :
    result = outbox ∨ (∀ reply ∈ outbox.values, ¬ (reply.jobPublicId = jobPublicId ∧ reply.result = identity)) ∧
      outbox.get? publicId = none ∧ result = outbox.set publicId { jobPublicId, result := identity } := by
  unfold enqueueReply at run
  split_ifs at run with known
  · exact .inl (Except.ok.inj run).symm
  · obtain ⟨_, free, run⟩ := bind_ok.mp run
    refine .inr ⟨?_, require_ok.mp free, (pure_ok.mp run).symm⟩
    intro reply member same
    exact known (any_eq_true.mpr ⟨reply, member, decide_eq_true same⟩)

end Inversion

/-- The results that have a reply have one reply, and its job exists. -/
structure Store.OutboxSound (store : Store) : Prop where
  unique : ∀ {first second : String} {reply other : Reply}, store.outbox.get? first = some reply →
    store.outbox.get? second = some other → reply.jobPublicId = other.jobPublicId → reply.result = other.result →
    first = second
  known : ∀ {publicId : String} {reply : Reply}, store.outbox.get? publicId = some reply →
    (store.jobs.get? reply.jobPublicId).isSome

section Run

theorem JobChange.isSome {place later : Option CaptureJob} (change : JobChange place later)
    (some : place.isSome) :
    later.isSome := by
  cases change with
  | same => exact some
  | created => rfl
  | changed => rfl

section

variable (sound : store.OutboxSound) (kept : ∀ query, (store.jobs.get? query).isSome → (after.jobs.get? query).isSome)
include sound kept

/-- Rows whose identities were there before keep the outbox sound. -/
theorem Store.OutboxSound.of_earlier (earlier : ∀ {query : String} {row : Reply}, after.outbox.get? query = some row →
      ∃ old, store.outbox.get? query = some old ∧ row.jobPublicId = old.jobPublicId ∧ row.result = old.result) :
    after.OutboxSound := by
  constructor
  · intro first second row other one two sameJob sameResult
    obtain ⟨old, present, oldJob, oldResult⟩ := earlier one
    obtain ⟨old', present', oldJob', oldResult'⟩ := earlier two
    exact sound.unique present present' (by rw [← oldJob, sameJob, oldJob'])
      (by rw [← oldResult, sameResult, oldResult'])
  · intro query row present
    obtain ⟨old, known, oldJob, _⟩ := earlier present
    rw [oldJob]
    exact kept _ (sound.known known)

variable {publicId : String} {call : Call} {answer : Answer}

/-- A row that replaces a row of the same identity keeps the outbox sound. -/
theorem Store.OutboxSound.rewrite {changed : Reply} (found : store.outbox.get? publicId = some reply)
    (written : after.outbox = store.outbox.set publicId changed)
    (job : changed.jobPublicId = reply.jobPublicId)
    (result : changed.result = reply.result) : after.OutboxSound := by
  apply sound.of_earlier kept
  intro query row present
  rcases get?_set_cases (written ▸ present) with ⟨rfl, rfl⟩ | ⟨_, old⟩
  · exact ⟨reply, found, job, result⟩
  · exact ⟨row, old, rfl, rfl⟩

/-- A new reply for a result without one keeps the outbox sound. -/
theorem Store.OutboxSound.insert {jobPublicId : String} {result : ResultIdentity}
    (fresh : ∀ reply ∈ store.outbox.values, ¬ (reply.jobPublicId = jobPublicId ∧ reply.result = result))
    (known : (store.jobs.get? jobPublicId).isSome)
    (written : after.outbox = store.outbox.set publicId { jobPublicId, result }) : after.OutboxSound := by
  have inside {query : String} {row : Reply} (present : store.outbox.get? query = some row) :
      row ∈ store.outbox.values := mem_map.mpr ⟨(query, row), mem_entries_of_get? present, rfl⟩
  constructor
  · intro first second row other one two sameJob sameResult
    rcases get?_set_cases (written ▸ one) with ⟨rfl, rfl⟩ | ⟨_, oldOne⟩ <;>
      rcases get?_set_cases (written ▸ two) with ⟨rfl, rfl⟩ | ⟨_, oldTwo⟩
    · rfl
    · exact absurd ⟨sameJob.symm, sameResult.symm⟩ (fresh other (inside oldTwo))
    · exact absurd ⟨sameJob, sameResult⟩ (fresh row (inside oldOne))
    · exact sound.unique oldOne oldTwo sameJob sameResult
  · intro query row present
    rcases get?_set_cases (written ▸ present) with ⟨rfl, rfl⟩ | ⟨_, old⟩
    · exact kept _ known
    · exact kept _ (sound.known old)

end

variable (done : (captureSystem sha256Hex).perform store call = .ok (answer, after))
include done

theorem perform_outboxSound (sound : store.OutboxSound) : after.OutboxSound := by
  have kept (query : String) (present : (store.jobs.get? query).isSome) : (after.jobs.get? query).isSome :=
    (perform_change done query).isSome present
  have unchanged (same : after.outbox = store.outbox) : after.OutboxSound :=
    sound.of_earlier kept fun present => ⟨_, same ▸ present, rfl, rfl⟩
  cases perform_outbox done with
  | idle other same => exact unchanged same
  | prepared result enqueued known summary =>
    rcases enqueueReply_eq_ok enqueued with same | ⟨fresh, _, written⟩
    · exact unchanged same
    · exact sound.insert kept fresh known written
  | attempted found allowed written summary => exact sound.rewrite kept found written rfl rfl
  | delivered found current unknown written summary => exact sound.rewrite kept found written rfl rfl

/-- A sent reply stays as it is. -/
theorem perform_sent (found : store.outbox.get? publicId = some reply)
    (sent : reply.status = .sent) :
    after.outbox.get? publicId = some reply := by
  have untouched {other : String} {row changed : Reply} (present : store.outbox.get? other = some row)
      (unsettled : row.status ≠ .sent) (written : after.outbox = store.outbox.set other changed) :
      after.outbox.get? publicId = some reply := by
    rw [written, get?_set, if_neg, found]
    rintro rfl
    obtain rfl := some.inj (found.symm.trans present)
    exact unsettled sent
  cases perform_outbox done with
  | idle other same => rw [same, found]
  | prepared result enqueued known summary =>
    rcases enqueueReply_eq_ok enqueued with same | ⟨_, free, written⟩
    · rw [same, found]
    · rw [written, get?_set, if_neg, found]
      rintro rfl
      cases free.symm.trans found
  | attempted present allowed written summary =>
    apply untouched present ?_ written
    rcases allowed with pending | ⟨unknown, _⟩
    · rw [pending]
      decide
    · rw [unknown]
      decide
  | delivered present current unknown written summary =>
    apply untouched present ?_ written
    rw [unknown]
    decide

/-- A row stood there before, or the call wrote it. -/
theorem row_written (found : after.outbox.get? publicId = some reply) :
    store.outbox.get? publicId = some reply ∨ Summarised after reply.jobPublicId ∧
      (reply.status = .sent →
      ∃ nonce before, call = .recordSent publicId nonce ∧ store.outbox.get? publicId = some before ∧
        before.sendAttemptNonce = some nonce) := by
  cases perform_outbox done with
  | idle other same => exact .inl (same ▸ found)
  | prepared result enqueued known summary =>
    rcases enqueueReply_eq_ok enqueued with same | ⟨_, _, written⟩
    · exact .inl (same ▸ found)
    · rcases get?_set_cases (written ▸ found) with ⟨_, rfl⟩ | ⟨_, earlier⟩
      · exact .inr ⟨summary, by rintro ⟨⟩⟩
      · exact .inl earlier
  | attempted present allowed written summary =>
    rcases get?_set_cases (written ▸ found) with ⟨_, rfl⟩ | ⟨_, earlier⟩
    · exact .inr ⟨summary, by rintro ⟨⟩⟩
    · exact .inl earlier
  | delivered present current unknown written summary =>
    rcases get?_set_cases (written ▸ found) with ⟨rfl, rfl⟩ | ⟨_, earlier⟩
    · exact .inr ⟨summary, fun _ => ⟨_, _, rfl, present, current⟩⟩
    · exact .inl earlier

/-- A reply becomes sent by a receipt with the nonce of its row. -/
theorem becomes_sent (found : after.outbox.get? publicId = some reply) (sent : reply.status = .sent)
    (unsent : ∀ before, store.outbox.get? publicId = some before → before.status ≠ .sent) :
    ∃ nonce before, call = .recordSent publicId nonce ∧ store.outbox.get? publicId = some before ∧
      before.sendAttemptNonce = some nonce := by
  rcases row_written done found with earlier | ⟨_, receipt⟩
  · exact absurd sent (unsent reply earlier)
  · exact receipt sent

omit done

theorem run_sent (store : Store) (calls : List Call) (found : store.outbox.get? publicId = some reply)
    (sent : reply.status = .sent) :
    ((captureSystem sha256Hex).run store calls).outbox.get? publicId = some reply := by
  let holds (state : Store) : Prop := state.outbox.get? publicId = some reply
  have step {state call answer next} (done : (captureSystem sha256Hex).perform state call = .ok (answer, next))
      (here : holds state) : holds next := perform_sent done here sent
  exact System.run_keeps step found calls

/-- A call that changes a reply leaves the summary in its job. -/
theorem changed_summarised (sound : store.OutboxSound)
    (done : (captureSystem sha256Hex).perform store call = .ok (answer, after))
    (found : after.outbox.get? publicId = some reply) (changed : store.outbox.get? publicId ≠ some reply) :
    ∃ job, after.jobs.get? reply.jobPublicId = some job ∧
      job.replyStatus = replySummary after.outbox reply.jobPublicId := by
  obtain ⟨job, present⟩ := isSome_iff_exists.mp ((perform_outboxSound done sound).known found)
  rcases row_written done found with earlier | ⟨summary, _⟩
  · exact absurd earlier changed
  · exact ⟨job, present, summary job present⟩

end Run

abbrev CaptureEvent := Event Store Call Answer CaptureError

/-- The reply and the nonce of an attempt that committed. -/
def CaptureEvent.attempt (event : CaptureEvent) : Option (String × String) :=
  match event.call, event.outcome with
  | .beginReply publicId _ _ _ nonce, .ok _ => some (publicId, nonce)
  | _, _ => none

section

variable (events : List CaptureEvent)

def attempts : List (String × String) := events.filterMap CaptureEvent.attempt

/-- The nonces that were handed out for a reply, in their order. -/
def nonces (publicId : String) : List String :=
  ((attempts events).filter fun entry => entry.1 = publicId).map Prod.snd

/-- Whether the call asks for another attempt after an unknown outcome. -/
def Call.retries (publicId : String) : Call → Bool
  | .beginReply requested _ _ retryUnknown _ => requested = publicId && retryUnknown
  | _ => false

def retryCalls (publicId : String) : ℕ :=
  events.countP fun event => event.call.retries publicId

end

theorem nonces_concat (past : List CaptureEvent) (event : CaptureEvent) (publicId : String) :
    nonces (past ++ [event]) publicId =
      nonces past publicId ++ (event.attempt.toList.filter fun entry => entry.1 = publicId).map Prod.snd := by
  unfold nonces attempts
  rw [filterMap_append, filter_append, map_append]
  congr 3

theorem retryCalls_concat (past : List CaptureEvent) (event : CaptureEvent) (publicId : String) :
    retryCalls (past ++ [event]) publicId =
      retryCalls past publicId + if event.call.retries publicId then 1 else 0 := by
  unfold retryCalls
  rw [countP_append, countP_singleton]

/-- What the rows of the outbox say about the attempts so far. -/
structure Ledger (events : List CaptureEvent) (store : Store) : Prop where
  absent : ∀ {publicId : String}, store.outbox.get? publicId = none → nonces events publicId = []
  last : ∀ {publicId : String} {reply : Reply}, store.outbox.get? publicId = some reply →
    reply.sendAttemptNonce = (nonces events publicId).getLast?
  fresh : ∀ {publicId : String} {reply : Reply}, store.outbox.get? publicId = some reply →
    reply.status = .pending → nonces events publicId = []
  bounded : ∀ publicId, (nonces events publicId).length ≤ 1 + retryCalls events publicId

section Ledgers

variable {past : List CaptureEvent}

variable {event : CaptureEvent}

/-- A call that hands out nothing leaves the attempts as they were. -/
theorem nonces_quiet (quiet : event.attempt = none) (publicId : String) :
    nonces (past ++ [event]) publicId = nonces past publicId := by
  rw [nonces_concat, quiet]
  simp

variable (ledger : Ledger past store)
include ledger

theorem Ledger.bounded_quiet (quiet : event.attempt = none) (publicId : String) :
    (nonces (past ++ [event]) publicId).length ≤ 1 + retryCalls (past ++ [event]) publicId := by
  have before := ledger.bounded publicId
  rw [nonces_quiet quiet, retryCalls_concat]
  omega

/-- Without an attempt the ledger follows the rows, whose attempts are as they were. -/
theorem Ledger.quiet (quiet : event.attempt = none)
    (gone : ∀ {publicId : String}, after.outbox.get? publicId = none → store.outbox.get? publicId = none)
    (rows : ∀ {publicId : String} {reply : Reply}, after.outbox.get? publicId = some reply →
      (store.outbox.get? publicId = none ∧ reply.sendAttemptNonce = none) ∨
      ∃ old, store.outbox.get? publicId = some old ∧ reply.sendAttemptNonce = old.sendAttemptNonce ∧
        (reply.status = .pending → old.status = .pending)) : Ledger (past ++ [event]) after where
  absent missing := by
    rw [nonces_quiet quiet]
    exact ledger.absent (gone missing)
  last found := by
    rw [nonces_quiet quiet]
    rcases rows found with ⟨missing, none⟩ | ⟨old, present, same, _⟩
    · rw [none, ledger.absent missing]
      rfl
    · rw [same]
      exact ledger.last present
  fresh found pending := by
    rw [nonces_quiet quiet]
    rcases rows found with ⟨missing, _⟩ | ⟨old, present, _, still⟩
    · exact ledger.absent missing
    · exact ledger.fresh present (still pending)
  bounded := ledger.bounded_quiet quiet

/-- An attempt appends its nonce to the attempts of its reply. -/
theorem Ledger.attempted {publicId nonce : String} {changed : Reply}
    (handed : event.attempt = some (publicId, nonce)) (found : store.outbox.get? publicId = some reply)
    (allowed : reply.status = .pending ∨ event.call.retries publicId)
    (written : after.outbox = store.outbox.set publicId changed)
    (unknown : changed.status ≠ .pending)
    (stamped : changed.sendAttemptNonce = some nonce) : Ledger (past ++ [event]) after := by
  have here : nonces (past ++ [event]) publicId = nonces past publicId ++ [nonce] := by
    rw [nonces_concat, handed]
    simp
  have elsewhere {query : String} (other : query ≠ publicId) :
      nonces (past ++ [event]) query = nonces past query := by
    rw [nonces_concat, handed]
    simp [Ne.symm other]
  constructor
  · intro query missing
    rw [written, get?_set] at missing
    split_ifs at missing with same
    rw [elsewhere same]
    exact ledger.absent missing
  · intro query row present
    rcases get?_set_cases (written ▸ present) with ⟨rfl, rfl⟩ | ⟨other, old⟩
    · rw [here, stamped, List.getLast?_append]
      rfl
    · rw [elsewhere other]
      exact ledger.last old
  · intro query row present pending
    rcases get?_set_cases (written ▸ present) with ⟨_, rfl⟩ | ⟨other, old⟩
    · exact absurd pending unknown
    · rw [elsewhere other]
      exact ledger.fresh old pending
  · intro query
    have before := ledger.bounded query
    rw [retryCalls_concat]
    by_cases same : query = publicId
    · rw [same] at before ⊢
      rw [here, length_append, length_singleton]
      rcases allowed with pending | retried
      · rw [ledger.fresh found pending, length_nil]
        omega
      · rw [if_pos retried]
        omega
    · rw [elsewhere same]
      omega

omit ledger

theorem ledger_step (past : List CaptureEvent) (store : Store) (call : Call)
    (ledger : Ledger past store) :
    Ledger (past ++ [⟨store, call, (captureSystem sha256Hex).perform store call⟩])
      ((captureSystem sha256Hex).next store call) := by
  cases ended : (captureSystem sha256Hex).perform store call with
  | error failure =>
    rw [System.next_of_error ended]
    refine ledger.quiet ?_ id fun found => .inr ⟨_, found, rfl, id⟩
    cases call <;> rfl
  | ok outcome =>
    rw [System.next_of_ok ended]
    cases perform_outbox ended with
    | idle other same =>
      refine ledger.quiet ?_ (fun missing => same ▸ missing) fun found => .inr ⟨_, same ▸ found, rfl, id⟩
      cases call with
      | beginReply => exact absurd rfl (other _ _ _ _ _)
      | _ => rfl
    | prepared result enqueued known summary =>
      rcases enqueueReply_eq_ok enqueued with same | ⟨_, free, written⟩
      · exact ledger.quiet rfl (fun missing => same ▸ missing) fun found => .inr ⟨_, same ▸ found, rfl, id⟩
      · apply ledger.quiet rfl
        · intro query missing
          rw [written, get?_set] at missing
          split_ifs at missing
          exact missing
        · intro query row present
          rcases get?_set_cases (written ▸ present) with ⟨rfl, rfl⟩ | ⟨_, old⟩
          · exact .inl ⟨free, rfl⟩
          · exact .inr ⟨row, old, rfl, id⟩
    | attempted found allowed written summary =>
      refine ledger.attempted rfl found ?_ written (by simp) rfl
      refine allowed.imp_right fun retried => ?_
      simp [Call.retries, retried.2]
    | delivered found current unknown written summary =>
      apply ledger.quiet rfl
      · intro query missing
        rw [written, get?_set] at missing
        split_ifs at missing
        exact missing
      · intro query row present
        rcases get?_set_cases (written ▸ present) with ⟨rfl, rfl⟩ | ⟨_, old⟩
        · exact .inr ⟨_, found, rfl, by simp⟩
        · exact .inr ⟨row, old, rfl, id⟩

end Ledgers

/-- In a list without repetitions the last value is not among the values before it. -/
theorem getLast?_not_mem_dropLast {values : List String} {last : String} (distinct : values.Nodup)
    (found : values.getLast? = some last) : last ∉ values.dropLast := by
  obtain ⟨front, rfl⟩ := List.getLast?_eq_some_iff.mp found
  rw [dropLast_concat]
  intro member
  exact (nodup_append.mp distinct).2.2 last member last (by simp) rfl

/-- A job whose result is about to be announced. -/
def answeredJobs : Dict String CaptureJob :=
  Dict.empty.set "job-1" { intakePublicId := "intake-1", captureKind := .text, status := .awaitingUser }

def postedResult : ResultSource where
  durable := true
  persistedPlan _ := none
  recover _ _ := .ok ⟨.posting, "tx-1"⟩

/-- One reply whose first receipt is lost: the second attempt supersedes the nonce of the first. -/
def lostReceipt : List Call :=
  let reply := replyPublicId id "job-1" ⟨.posting, "tx-1"⟩
  [.ensureReply "job-1" (.ok ⟨.posting, "tx-1"⟩), .beginReply reply postedResult none false "nonce-1",
    .beginReply reply postedResult none true "nonce-2"]

end FinanceCore.Capture

import FinanceCore.Reconciliation.Apply
import FinanceCore.Reconciliation.OrderIndependence

namespace FinanceCore.Reconciliation

open Exceptions Option

variable (platform : ApplyPlatform) {item : ReviewQueueItem} {entry : AppliedDecision} {call : ApplyCall}

/-- The entry that an accepted instruction leaves behind. -/
def appliedEntry (instruction : InstructionFields) (item : ReviewQueueItem)
    (now : String) : AppliedDecision where
  queueItemId := instruction.queueItemId
  action := instruction.action
  fingerprint := buildFingerprintInstruction platform instruction (buildPayloadInstruction instruction item)
  appliedAt := now
  auditEvidence := buildAuditEvidenceInstruction instruction item now

/-- The registries with one more decision. -/
def Registries.record (registries : Registries) (decisionId : String)
    (entry : AppliedDecision) : Registries where
  applied := registries.applied.set decisionId entry
  itemToDecision := registries.itemToDecision.set entry.queueItemId decisionId

/-- The result that an entry gives to a repeated instruction. -/
def replayResult (instruction : InstructionFields) (item : ReviewQueueItem)
    (entry : AppliedDecision) (idempotent : Bool) : ResolutionApplyResult :=
  successResult instruction (buildPayloadInstruction instruction item) entry.auditEvidence entry.appliedAt idempotent

/-- An entry that stands for an instruction and so accepts its repetition. -/
structure Answers (entry : AppliedDecision) (instruction : InstructionFields)
    (item : ReviewQueueItem) : Prop where
  queueItemId : entry.queueItemId = instruction.queueItemId
  action : entry.action = instruction.action
  fingerprint : entry.fingerprint =
    buildFingerprintInstruction platform instruction (buildPayloadInstruction instruction item)

section Steps

variable {platform}

variable {regs : Registries} {order : InstructionFields}

theorem checkIdempotency_answers (known : regs.applied.get? order.decisionId = some entry)
    (answers : Answers platform entry order item) :
    checkIdempotencyInstruction platform regs order item = .ok (some (replayResult order item entry true)) := by
  rw [checkIdempotencyInstruction, known]
  simp only [require, answers.queueItemId, answers.action, answers.fingerprint, if_true]
  rfl

/-- An accepted repetition meets an entry that answers it. -/
theorem checkIdempotency_cases {outcome : Option ResolutionApplyResult}
    (checked : checkIdempotencyInstruction platform regs order item = .ok outcome) :
    (regs.applied.get? order.decisionId = none ∧ outcome = none) ∨
      ∃ entry, regs.applied.get? order.decisionId = some entry ∧
        Answers platform entry order item ∧ outcome = some (replayResult order item entry true) := by
  rw [checkIdempotencyInstruction] at checked
  cases known : regs.applied.get? order.decisionId with
  | none =>
    rw [known] at checked
    exact Or.inl ⟨rfl, (Except.ok.inj checked).symm⟩
  | some entry =>
    rw [known] at checked
    simp only [bind_ok, require_ok] at checked
    obtain ⟨_, sameItem, _, sameAction, _, sameFingerprint, checked⟩ := checked
    exact Or.inr ⟨entry, rfl, ⟨sameItem, sameAction, sameFingerprint⟩, (pure_ok.mp checked).symm⟩

theorem checkConflict_free (passed : checkConflictInstruction regs order = .ok ()) :
    regs.itemToDecision.get? order.queueItemId = none ∨
      regs.itemToDecision.get? order.queueItemId = some order.decisionId := by
  rw [checkConflictInstruction] at passed
  cases resolved : regs.itemToDecision.get? order.queueItemId with
  | none => exact Or.inl rfl
  | some existing =>
    rw [resolved] at passed
    by_cases same : existing = order.decisionId
    · rw [same]
      exact Or.inr rfl
    · simp only [if_neg same] at passed
      obtain ⟨_, _, raised⟩ := bind_ok.mp passed
      cases raised

/-- A check that raises ends the call with the registries as they are. -/
theorem raising_bind {α β : Type} (check : Except ApplyError α)
    (next : α → EStateM ApplyError Registries β) (regs : Registries) :
    (raising check >>= next) regs =
      match check with
      | .ok value => next value regs
      | .error failure => .error failure regs := by
  cases check <;> rfl

/-- Every check comes before the first write. -/
theorem applyInstruction_eq (platform : ApplyPlatform) (regs : Registries)
    (order : ApplyInstruction) (now : String) :
    applyInstruction platform order now regs =
      match validateInstruction platform order with
      | .error message => .error (.instruction message) regs
      | .ok item =>
        match checkIdempotencyInstruction platform regs order.toInstructionFields item with
        | .error failure => .error failure regs
        | .ok (some replay) => .ok replay regs
        | .ok none =>
          match checkConflictInstruction regs order.toInstructionFields with
          | .error failure => .error failure regs
          | .ok () =>
            .ok (replayResult order.toInstructionFields item
                (appliedEntry platform order.toInstructionFields item now) false)
              (regs.record order.decisionId (appliedEntry platform order.toInstructionFields item now)) := by
  rw [applyInstruction]
  cases validateInstruction platform order with
  | error message => rfl
  | ok item =>
    change (raising (checkIdempotencyInstruction platform regs order.toInstructionFields item) >>= _)
      regs = _
    rw [raising_bind]
    dsimp only
    cases checkIdempotencyInstruction platform regs order.toInstructionFields item with
    | error failure => rfl
    | ok outcome =>
      cases outcome with
      | some replay => rfl
      | none =>
        change (raising (checkConflictInstruction regs order.toInstructionFields) >>= _) regs = _
        rw [raising_bind]
        cases checkConflictInstruction regs order.toInstructionFields <;> rfl

end Steps

section Calls

/-- The same call at another time. -/
def ApplyCall.repeatedAt (now : String) : ApplyCall → ApplyCall
  | .apply item decision evidenceRefs requireEvidenceRef _ =>
    .apply item decision evidenceRefs requireEvidenceRef now
  | .applyInstruction instruction _ => .applyInstruction instruction now

def ApplyCall.now : ApplyCall → String
  | .apply _ _ _ _ now => now
  | .applyInstruction _ now => now

/-- The instruction that a call hands to the runtime, if the boundary accepts it. -/
def ApplyCall.requested : ApplyCall → Option ApplyInstruction
  | .apply item decision evidenceRefs requireEvidenceRef _ =>
    (buildApplyInstruction platform item decision evidenceRefs requireEvidenceRef).toOption
  | .applyInstruction instruction _ => some instruction

variable {platform}

theorem ApplyCall.requested_repeatedAt (call : ApplyCall) (now : String) :
    (call.repeatedAt now).requested platform = call.requested platform := by
  cases call <;> rfl

variable {order : ApplyInstruction}

theorem perform_requested (requested : call.requested platform = some order) (regs : Registries) :
    perform platform call regs = applyInstruction platform order call.now regs := by
  cases call with
  | apply item decision evidenceRefs requireEvidenceRef now =>
    change (buildApplyInstruction platform item decision evidenceRefs requireEvidenceRef).toOption = _ at requested
    rw [perform, apply]
    cases built : buildApplyInstruction platform item decision evidenceRefs requireEvidenceRef with
    | ok accepted =>
      rw [built] at requested
      obtain rfl := some.inj requested
      rfl
    | error message =>
      rw [built] at requested
      cases requested
  | applyInstruction given now =>
    obtain rfl := some.inj requested
    rfl

theorem perform_refused (refused : call.requested platform = none) (regs : Registries) :
    ∃ result, perform platform call regs = .ok result regs ∧ result.success = false ∧
      result.idempotent = false := by
  cases call with
  | apply item decision evidenceRefs requireEvidenceRef now =>
    change (buildApplyInstruction platform item decision evidenceRefs requireEvidenceRef).toOption = _ at refused
    rw [perform, apply]
    cases built : buildApplyInstruction platform item decision evidenceRefs requireEvidenceRef with
    | ok accepted =>
      rw [built] at refused
      cases refused
    | error message => exact ⟨_, rfl, rfl, rfl⟩
  | applyInstruction given now => cases refused

/-- What a successful call was about. -/
structure Accepts (platform : ApplyPlatform) (call : ApplyCall) (instruction : ApplyInstruction)
    (item : ReviewQueueItem) : Prop where
  requested : call.requested platform = some instruction
  validated : validateInstruction platform instruction = .ok item

theorem Accepts.repeatedAt (accepts : Accepts platform call order item) (now : String) :
    Accepts platform (call.repeatedAt now) order item :=
  ⟨(call.requested_repeatedAt now).trans accepts.requested, accepts.validated⟩

/-- A call raises, is refused, repeats a decision or records a new one. -/
inductive Outcome (platform : ApplyPlatform) (regs : Registries) (call : ApplyCall) :
    EStateM.Result ApplyError Registries ResolutionApplyResult → Prop
  | raised (failure : ApplyError) : Outcome platform regs call (.error failure regs)
  | refused {result : ResolutionApplyResult} (failed : result.success = false) (fresh : result.idempotent = false) :
    Outcome platform regs call (.ok result regs)
  | replayed {order : ApplyInstruction} {item : ReviewQueueItem} {entry : AppliedDecision}
      (accepts : Accepts platform call order item) (known : regs.applied.get? order.decisionId = some entry)
      (answers : Answers platform entry order.toInstructionFields item) :
    Outcome platform regs call (.ok (replayResult order.toInstructionFields item entry true) regs)
  | recorded {order : ApplyInstruction} {item : ReviewQueueItem} (accepts : Accepts platform call order item)
      (new : regs.applied.get? order.decisionId = none)
      (free : regs.itemToDecision.get? order.queueItemId = none ∨
        regs.itemToDecision.get? order.queueItemId = some order.decisionId) :
    Outcome platform regs call (.ok (replayResult order.toInstructionFields item
        (appliedEntry platform order.toInstructionFields item call.now) false)
      (regs.record order.decisionId (appliedEntry platform order.toInstructionFields item call.now)))

theorem perform_outcome (platform : ApplyPlatform) (regs : Registries) (call : ApplyCall) :
    Outcome platform regs call (perform platform call regs) := by
  cases requested : call.requested platform with
  | none =>
    obtain ⟨result, run, failed, fresh⟩ := perform_refused requested regs
    rw [run]
    exact .refused failed fresh
  | some order =>
    rw [perform_requested requested regs, applyInstruction_eq]
    cases validated : validateInstruction platform order with
    | error message => exact .raised _
    | ok item =>
      dsimp only
      cases checked : checkIdempotencyInstruction platform regs order.toInstructionFields item with
      | error failure => exact .raised failure
      | ok outcome =>
        obtain ⟨new, rfl⟩ | ⟨entry, known, answers, rfl⟩ := checkIdempotency_cases checked
        · cases passed : checkConflictInstruction regs order.toInstructionFields with
          | error failure => exact .raised failure
          | ok done => exact .recorded ⟨requested, validated⟩ new (checkConflict_free passed)
        · exact .replayed ⟨requested, validated⟩ known answers

/-- An accepted instruction that meets its own entry is a replay. -/
theorem perform_replay {regs : Registries} (accepts : Accepts platform call order item)
    (known : regs.applied.get? order.decisionId = some entry)
    (answers : Answers platform entry order.toInstructionFields item) :
    perform platform call regs = .ok (replayResult order.toInstructionFields item entry true) regs := by
  rw [perform_requested accepts.requested, applyInstruction_eq, accepts.validated]
  simp only [checkIdempotency_answers known answers]

end Calls

section Runs

variable {platform}

/-- The registry of decisions and the registry of items say the same thing. -/
def Linked (registries : Registries) : Prop :=
  Dict.Inverse AppliedDecision.queueItemId registries.applied registries.itemToDecision

variable {regs after : Registries} {result : ResolutionApplyResult} {decisionId : String}

variable (run : perform platform call regs = .ok result after)

include run in
theorem afterCall_of_ok : afterCall platform regs call = after := by
  rw [afterCall, run]

/-- A call leaves the registries alone or records one decision under a new name. -/
theorem afterCall_cases (platform : ApplyPlatform) (regs : Registries) (call : ApplyCall) :
    afterCall platform regs call = regs ∨ ∃ order item, Accepts platform call order item ∧
        regs.applied.get? order.decisionId = none ∧ (regs.itemToDecision.get? order.queueItemId = none ∨
          regs.itemToDecision.get? order.queueItemId = some order.decisionId) ∧
        perform platform call regs = .ok (replayResult order.toInstructionFields item
              (appliedEntry platform order.toInstructionFields item call.now) false)
            (afterCall platform regs call) ∧ afterCall platform regs call = regs.record order.decisionId
          (appliedEntry platform order.toInstructionFields item call.now) := by
  have outcome := perform_outcome platform regs call
  cases run : perform platform call regs with
  | error failure after =>
    rw [run] at outcome
    cases outcome
    left
    rw [afterCall, run]
  | ok result after =>
    rw [run] at outcome
    rw [afterCall_of_ok run]
    cases outcome with
    | refused | replayed => exact Or.inl rfl
    | recorded accepts new free => exact Or.inr ⟨_, _, accepts, new, free, rfl, rfl⟩

variable {queueItemId : String}

/-- The item of a new decision is not resolved yet. -/
theorem Linked.item_free (linked : Linked regs) (new : regs.applied.get? decisionId = none)
    (free : regs.itemToDecision.get? queueItemId = none ∨
      regs.itemToDecision.get? queueItemId = some decisionId) : regs.itemToDecision.get? queueItemId = none := by
  apply free.resolve_right
  intro taken
  obtain ⟨entry, known, _⟩ := (linked decisionId queueItemId).mpr taken
  rw [new] at known
  cases known

/-- One call keeps the registries linked. -/
theorem linked_afterCall (linked : Linked regs) (call : ApplyCall) : Linked (afterCall platform regs call) := by
  obtain same | ⟨order, item, _, new, free, _, recorded⟩ := afterCall_cases platform regs call
  · rw [same]
    exact linked
  · rw [recorded]
    exact Dict.Inverse.set linked new (linked.item_free new free)

/-- An applied decision stays applied. -/
theorem applied_afterCall (known : regs.applied.get? decisionId = some entry) (call : ApplyCall) :
    (afterCall platform regs call).applied.get? decisionId = some entry := by
  obtain same | ⟨order, item, _, new, _, _, recorded⟩ := afterCall_cases platform regs call
  · rw [same]
    exact known
  · have other : decisionId ≠ order.decisionId := by
      intro same
      rw [same, new] at known
      cases known
    rw [recorded, Registries.record, Dict.get?_set, if_neg other]
    exact known

/-- So does every sequence of calls. -/
theorem linked_afterCalls (platform : ApplyPlatform) (linked : Linked regs)
    (calls : List ApplyCall) :
    Linked (afterCalls platform regs calls) := by
  induction calls generalizing regs with
  | nil => exact linked
  | cons call rest ih => exact ih (linked_afterCall linked call)

/-- An applied decision stays as it was recorded. -/
theorem applied_afterCalls (known : regs.applied.get? decisionId = some entry)
    (calls : List ApplyCall) :
    (afterCalls platform regs calls).applied.get? decisionId = some entry := by
  induction calls generalizing regs with
  | nil => exact known
  | cons call rest ih => exact ih (applied_afterCall known call)

theorem linked_empty : Linked {} := Dict.inverse_empty _

theorem afterCalls_append (regs : Registries) (first second : List ApplyCall) :
    afterCalls platform regs (first ++ second) = afterCalls platform (afterCalls platform regs first) second :=
  List.foldl_append

/-- The result with which a call of the run applied the decision for the first time. -/
structure FirstApplication (platform : ApplyPlatform) (calls : List ApplyCall) (decisionId : String)
    (first : ResolutionApplyResult) : Prop where
  made : ∃ front original back, calls = front ++ original :: back ∧
    perform platform original (afterCalls platform {} front) = .ok first (afterCalls platform {} (front ++ [original]))
  success : first.success = true
  fresh : first.idempotent = false
  decision : first.decisionId = decisionId

theorem FirstApplication.append {calls : List ApplyCall} {first : ResolutionApplyResult}
    (application : FirstApplication platform calls decisionId first) (more : List ApplyCall) :
    FirstApplication platform (calls ++ more) decisionId first := by
  obtain ⟨front, original, back, rfl, run⟩ := application.made
  exact ⟨⟨front, original, back ++ more, by simp, run⟩, application.success, application.fresh, application.decision⟩

/-- Every entry was written by one call of the run, whose result it repeats. -/
theorem applied_origin (calls : List ApplyCall)
    (known : (afterCalls platform {} calls).applied.get? decisionId = some entry) :
    ∃ first, FirstApplication platform calls decisionId first ∧
      first.queueItemId = entry.queueItemId ∧
      first.appliedAt = entry.appliedAt ∧ first.auditEvidence = entry.auditEvidence := by
  induction calls using List.reverseRecOn with
  | nil => cases known
  | append_singleton calls call ih =>
    have last : afterCalls platform {} (calls ++ [call]) = afterCall platform (afterCalls platform {} calls) call :=
      afterCalls_append {} calls [call]
    have kept := fun old => (ih old).imp fun first => And.imp_left fun made => made.append [call]
    obtain same | ⟨order, item, _, _, _, run, recorded⟩ := afterCall_cases platform (afterCalls platform {} calls) call
    · rw [last, same] at known
      exact kept known
    · rw [last, recorded, Registries.record] at known
      rcases Dict.get?_set_cases known with ⟨here, rfl⟩ | ⟨_, old⟩
      · exact ⟨_, ⟨⟨calls, call, [], rfl, last ▸ run⟩, rfl, rfl, here.symm⟩, rfl, rfl, rfl⟩
      · exact kept old

include run in
/-- A call that returns was refused, or leaves an entry that answers its repetition. -/
theorem perform_returns :
    (result.success = false ∧ result.idempotent = false ∧ after = regs) ∨
      ∃ order item entry, Accepts platform call order item ∧
      after.applied.get? order.decisionId = some entry ∧
        Answers platform entry order.toInstructionFields item ∧
        result = replayResult order.toInstructionFields item entry result.idempotent ∧
        (result.idempotent = true → after = regs) := by
  have outcome := perform_outcome platform regs call
  rw [run] at outcome
  cases outcome with
  | refused failed fresh => exact Or.inl ⟨failed, fresh, rfl⟩
  | replayed accepts known answers => exact Or.inr ⟨_, _, _, accepts, known, answers, rfl, fun _ => rfl⟩
  | recorded accepts =>
    refine Or.inr ⟨_, _, _, accepts, ?_, ⟨rfl, rfl, rfl⟩, rfl, nofun⟩
    rw [Registries.record, Dict.get?_set, if_pos rfl]

include run in
theorem perform_success (success : result.success = true) :
    ∃ order item entry, Accepts platform call order item ∧
      after.applied.get? order.decisionId = some entry ∧
      Answers platform entry order.toInstructionFields item ∧
      result = replayResult order.toInstructionFields item entry result.idempotent := by
  obtain ⟨failed, _⟩ | ⟨order, item, entry, accepts, known, answers, same, _⟩ := perform_returns run
  · rw [failed] at success
    cases success
  · exact ⟨order, item, entry, accepts, known, answers, same⟩

/-- A successful call resolves its item by its decision. -/
theorem item_of_success (linked : Linked regs) (run : perform platform call regs = .ok result after)
    (success : result.success = true) : after.itemToDecision.get? result.queueItemId = some result.decisionId := by
  have linkedAfter : Linked after := afterCall_of_ok run ▸ linked_afterCall linked call
  obtain ⟨order, item, entry, _, known, answers, same⟩ := perform_success run success
  rw [same]
  exact (linkedAfter _ _).mp ⟨entry, known, answers.queueItemId⟩

/-- The decision of a resolved item stays its decision. -/
theorem item_afterCalls (platform : ApplyPlatform) (linked : Linked regs)
    (resolved : regs.itemToDecision.get? queueItemId = some decisionId) (calls : List ApplyCall) :
    (afterCalls platform regs calls).itemToDecision.get? queueItemId = some decisionId := by
  obtain ⟨entry, known, same⟩ := (linked decisionId queueItemId).mpr resolved
  exact (linked_afterCalls platform linked calls decisionId queueItemId).mp ⟨entry, applied_afterCalls known calls, same⟩

/-- A raise keeps the registries. -/
theorem perform_error {failure : ApplyError} (run : perform platform call regs = .error failure after) :
    after = regs := by
  have outcome := perform_outcome platform regs call
  rw [run] at outcome
  cases outcome
  rfl

include run in
/-- A call that succeeded is a replay with the same answer from then on. -/
theorem perform_repeated (success : result.success = true) (later : List ApplyCall) (now : String) :
    perform platform (call.repeatedAt now) (afterCalls platform after later) =
      .ok { result with idempotent := true } (afterCalls platform after later) := by
  obtain ⟨order, item, entry, accepts, known, answers, same⟩ := perform_success run success
  rw [perform_replay (accepts.repeatedAt now) (applied_afterCalls known later) answers, same]
  rfl

end Runs

/-- Over every run of a runtime the registries stay converse one-to-one maps, a raise, a refusal and a replay change
nothing, a replay answers as the first application did, and a resolved item keeps its decision. -/
theorem apply_registries_one_to_one (calls : List ApplyCall) :
    (∀ decisionId queueItemId,
      (∃ entry, (afterCalls platform {} calls).applied.get? decisionId = some entry ∧
        entry.queueItemId = queueItemId) ↔
      (afterCalls platform {} calls).itemToDecision.get? queueItemId = some decisionId) ∧
    (∀ call failure after, perform platform call (afterCalls platform {} calls) = .error failure after →
      after = afterCalls platform {} calls) ∧
    (∀ call result after, perform platform call (afterCalls platform {} calls) = .ok result after →
      (result.success = false → after = afterCalls platform {} calls) ∧
      (result.idempotent = true → after = afterCalls platform {} calls ∧
        ∃ first, FirstApplication platform calls result.decisionId first ∧
          result.appliedAt = first.appliedAt ∧ result.auditEvidence = first.auditEvidence) ∧
      (result.success = true → ∀ later now,
        perform platform (call.repeatedAt now) (afterCalls platform after later) =
          .ok { result with idempotent := true } (afterCalls platform after later))) ∧
    (∀ queueItemId decisionId,
      (afterCalls platform {} calls).itemToDecision.get? queueItemId = some decisionId →
      ∀ later, (afterCalls platform {} (calls ++ later)).itemToDecision.get? queueItemId = some decisionId ∧
        ∀ call result after, perform platform call (afterCalls platform {} (calls ++ later)) = .ok result after →
          result.success = true → result.queueItemId = queueItemId → result.decisionId = decisionId) := by
  have linked : Linked (afterCalls platform {} calls) := linked_afterCalls platform linked_empty calls
  refine ⟨linked, fun call failure after run => perform_error run, fun call result after run => ⟨?_, ?_, ?_⟩, ?_⟩
  · intro failed
    obtain ⟨_, _, unchanged⟩ | ⟨_, _, _, _, _, _, same, _⟩ := perform_returns run
    · exact unchanged
    · rw [same] at failed
      cases failed
  · intro repeated
    obtain ⟨_, fresh, _⟩ | ⟨_, _, entry, _, known, _, same, unchanged⟩ := perform_returns run
    · rw [fresh] at repeated
      cases repeated
    · refine ⟨unchanged repeated, ?_⟩
      rw [unchanged repeated] at known
      obtain ⟨first, application, _, sameTime, sameEvidence⟩ := applied_origin calls known
      rw [same]
      exact ⟨first, application, sameTime.symm, sameEvidence.symm⟩
  · intro success later now
    exact perform_repeated run success later now
  · intro queueItemId decisionId resolved later
    rw [afterCalls_append]
    have kept := item_afterCalls platform linked resolved later
    refine ⟨kept, ?_⟩
    intro call result after run success sameItem
    have linkedLater := linked_afterCalls platform linked later
    have resolvedHere := item_of_success linkedLater run success
    have keptHere := item_afterCalls platform linkedLater kept [call]
    rw [show afterCalls platform (afterCalls platform (afterCalls platform {} calls) later) [call] = after from
      afterCall_of_ok run, ← sameItem, resolvedHere] at keptHere
    exact Option.some.inj keptHere

/-- A decision to ignore one queue item. -/
def sampleCall (decisionId : String) : ApplyCall :=
  .apply { candidate := { statement := samplePurchase, candidateId := "cand-1" }, issueType := .needsReview,
           suggestedAction := .needsMoreInfo, queueItemId := "q-1" }
    { decisionId := decisionId, queueItemId := "q-1", action := .ignore } [] false "2026-01-01T00:00:00+00:00"

def sampleRuntime : ApplyPlatform where
  itemSha256 := fun _ => "digest"
  sha256Hex := fun _ => "digest"
  fromIsoFormat := fun _ => some true

theorem apply_registries_one_to_one_sample :
    (afterCalls sampleRuntime {} [sampleCall "d-1", sampleCall "d-2", sampleCall "d-1"]).itemToDecision.get? "q-1" =
        some "d-1" ∧
      ∃ entry, (afterCalls sampleRuntime {} [sampleCall "d-1", sampleCall "d-2", sampleCall "d-1"]).applied.get? "d-1" =
        some entry ∧ entry.queueItemId = "q-1" := by
  have resolved : (afterCalls sampleRuntime {}
      [sampleCall "d-1", sampleCall "d-2", sampleCall "d-1"]).itemToDecision.get? "q-1" = some "d-1" := by
    decide
  exact ⟨resolved, ((apply_registries_one_to_one sampleRuntime _).1 "d-1" "q-1").mpr resolved⟩

end FinanceCore.Reconciliation

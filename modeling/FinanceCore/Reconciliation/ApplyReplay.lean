import FinanceCore.Reconciliation.ApplyRegistry

namespace FinanceCore.Reconciliation

open Decimal Exceptions Json Option

variable {platform : ApplyPlatform} {entry : AppliedDecision}

/-- A payload holds no floats. -/
theorem plain_payload (order : InstructionFields) (item : ReviewQueueItem) :
    Plain (buildPayloadInstruction order item) := by
  have text (value : Option String) : Plain (textOrNull value) := by cases value <;> trivial
  have date (key : String) (day : Option Calendar.CalendarDate) : PlainMembers (dateEntry key day) := by
    cases day <;> simp [dateEntry, PlainMembers, Plain]
  have app : PlainMembers (appEntries item.candidate) := by
    unfold appEntries
    cases item.candidate.bestAppTransaction <;> simp [PlainMembers, Plain]
  have adjusted : PlainMembers (fieldAdjustments item.candidate) := by
    unfold fieldAdjustments
    split
    · cases item.candidate.statement.amount <;> simp [PlainMembers, Plain]
    · cases item.candidate.statement.currency <;> simp [PlainMembers, Plain]
    · exact date _ _
    · exact ⟨trivial, trivial⟩
    · trivial
  have texts {α : Type} (items : List α) (write : α → String) : PlainItems (items.map fun item => .text (write item)) :=
    plainItems_map fun _ => trivial
  unfold buildPayloadInstruction
  cases order.action <;>
    simp [payloadConfirmMatch, payloadMarkDuplicate, payloadMarkStatementOnly, payloadCreateMissingApp,
      payloadAdjustApp, Plain, PlainMembers, plainMembers_append, amountText, reasonTexts, text, date, app, adjusted,
      texts]

/-- The amount of a statement as a payload shows it: a zero amount counts as missing. -/
def shownAmount (statement : StatementTransaction) : Option String :=
  (statement.amount.filter fun number => number.value ≠ 0).map decimalStr

/-- The fields of an app transaction that a confirmation shows. -/
def AppTransaction.shown (app : AppTransaction) : String × String × String × String × Calendar.CalendarDate :=
  (app.appTxnId, app.merchant, literalStr app.amount, app.currency, app.transactionDate)

/-- The value that an adjustment proposes for the field of an issue type. -/
def proposed (candidate : ReconciliationCandidate) (issueType : IssueType)
    (value : Option String) : Option String :=
  if candidate.issueType = issueType then value else none

/-- Two candidates for which an adjustment proposes the same. -/
structure SameProposal (first second : ReconciliationCandidate) : Prop where
  amount : proposed first .amountMismatch (first.statement.amount.map decimalStr) =
    proposed second .amountMismatch (second.statement.amount.map decimalStr)
  currency : proposed first .currencyMismatch first.statement.currency =
    proposed second .currencyMismatch second.statement.currency
  date : proposed first .dateMismatch (first.statement.transactionDate.map isoText) =
    proposed second .dateMismatch (second.statement.transactionDate.map isoText)
  merchant : proposed first .merchantMismatch (some first.statement.merchantRaw) =
    proposed second .merchantMismatch (some second.statement.merchantRaw)

/-- Two statements with the same merchant, shown amount and currency. -/
structure SameStatement (first second : StatementTransaction) : Prop where
  merchant : first.merchantRaw = second.merchantRaw
  amount : shownAmount first = shownAmount second
  currency : first.currency = second.currency

/-- The fields of two candidates that the payload of an action shows are the same. -/
def SameShown (first second : ReconciliationCandidate) : ResolutionAction → Prop
  | .confirmMatch => SameStatement first.statement second.statement ∧
      first.statement.transactionDate = second.statement.transactionDate ∧
      first.bestAppTransaction.map AppTransaction.shown = second.bestAppTransaction.map AppTransaction.shown ∧
      decimalStr first.confidenceScore = decimalStr second.confidenceScore ∧
      first.reasonCodes.map ReasonCode.value = second.reasonCodes.map ReasonCode.value
  | .markDuplicate =>
      first.allAppTransactions.map AppTransaction.appTxnId = second.allAppTransactions.map AppTransaction.appTxnId ∧
      first.bestAppTransaction.map AppTransaction.appTxnId = second.bestAppTransaction.map AppTransaction.appTxnId ∧
      first.statement.merchantRaw = second.statement.merchantRaw ∧
      shownAmount first.statement = shownAmount second.statement ∧
      decimalStr first.confidenceScore = decimalStr second.confidenceScore
  | .markStatementOnly => SameStatement first.statement second.statement ∧
      first.statement.statementRowReference = second.statement.statementRowReference
  | .createMissingAppTransaction => SameStatement first.statement second.statement ∧
      first.statement.transactionDate = second.statement.transactionDate ∧
      first.statement.statementRowReference = second.statement.statementRowReference
  | .adjustAppTransaction => SameStatement first.statement second.statement ∧
      first.statement.transactionDate = second.statement.transactionDate ∧
      first.bestAppTransaction.map AppTransaction.appTxnId = second.bestAppTransaction.map AppTransaction.appTxnId ∧
      SameProposal first second
  | .ignore | .needsMoreInfo => True

/-- The fields that the fingerprint covers, for two instructions of one decision. -/
structure SameCovered (first second : InstructionFields) (item item' : ReviewQueueItem) : Prop where
  queueItemId : first.queueItemId = second.queueItemId
  action : first.action = second.action
  note : first.note = second.note
  reviewer : first.reviewer = second.reviewer
  candidateId : first.candidateId = second.candidateId
  shown : SameShown item.candidate item'.candidate first.action

/-- Two instructions that decide the same in every respect. -/
structure SameDecision (first second : ApplyInstruction) : Prop where
  action : first.action = second.action
  reviewer : first.reviewer = second.reviewer
  note : first.note = second.note
  resolvedAt : first.resolvedAt = second.resolvedAt
  evidenceRefs : first.evidenceRefs = second.evidenceRefs
  item : first.item = second.item

/-- A repetition is a replay only of the same decision, and every change is refused as a conflict. -/
def RefusesChanges (platform : ApplyPlatform) (regs : Registries) (repeated : ApplyCall)
    (first second : ApplyInstruction) : Prop :=
  ((∃ replay, perform platform repeated regs = .ok replay regs ∧ replay.idempotent = true) →
      SameDecision first second) ∧
    (¬ SameDecision first second → ∃ message, perform platform repeated regs = .error (.conflict message) regs)

variable {first second : InstructionFields} {item item' : ReviewQueueItem}

/-- An entry that is there when the value is. -/
def optionalEntry (key : String) (value : Option String) : List (String × Value) :=
  (value.map fun text => (key, Value.text text)).toList

theorem lookup_optionalEntry (name key : String) (value : Option String) :
    (optionalEntry key value).lookup name = if name = key then value.map Value.text else none := by
  cases value with
  | none => simp [optionalEntry]
  | some text =>
    by_cases same : name = key
    · simp [optionalEntry, same]
    · simp [optionalEntry, List.lookup, same, beq_false_of_ne same]

theorem dateEntry_eq (key : String) (day : Option Calendar.CalendarDate) :
    dateEntry key day = optionalEntry key (day.map isoText) := by
  cases day <;> rfl

/-- The adjustments are the proposed fields that are there. -/
theorem fieldAdjustments_eq (candidate : ReconciliationCandidate) :
    fieldAdjustments candidate =
      optionalEntry "amount" (proposed candidate .amountMismatch (candidate.statement.amount.map decimalStr)) ++
      optionalEntry "currency" (proposed candidate .currencyMismatch candidate.statement.currency) ++
      optionalEntry "transaction_date"
        (proposed candidate .dateMismatch (candidate.statement.transactionDate.map isoText)) ++
      optionalEntry "merchant" (proposed candidate .merchantMismatch (some candidate.statement.merchantRaw)) := by
  unfold fieldAdjustments proposed
  cases candidate.issueType <;> simp [optionalEntry, dateEntry_eq, Function.comp_def]

theorem isoText_injective : Function.Injective isoText := by
  intro first second same
  exact Calendar.isoDate_inj (String.ofList_injective same)

theorem sortKeys_textOrNull {first second : Option String}
    (same : sortKeys (textOrNull first) = sortKeys (textOrNull second)) : first = second := by
  cases first <;> cases second <;> simp_all [textOrNull, sortKeys]

theorem sortKeys_entry {α : Type} {first second : Option α} {write : α → String}
    (same : first.map (sortKeys ∘ Value.text ∘ write) = second.map (sortKeys ∘ Value.text ∘ write)) :
    first.map write = second.map write := by
  cases first <;> cases second <;> simp_all [sortKeys]

/-- Sorted arrays of texts agree only for equal texts. -/
theorem sortKeys_texts {α : Type} {first second : List α} {write : α → String}
    (same : sortKeys (.array (first.map fun item => .text (write item))) =
      sortKeys (.array (second.map fun item => .text (write item)))) : first.map write = second.map write := by
  simp only [sortKeys, sortItems_eq_map, List.map_map, Value.array.injEq, Function.comp_def] at same
  have texts : Function.Injective Value.text := fun _ _ => Value.text.inj
  apply texts.list_map
  simpa only [List.map_map, Function.comp_def] using same

theorem sameStatement_of_fields {first second : StatementTransaction}
    (merchant : some (sortKeys (.text first.merchantRaw)) = some (sortKeys (.text second.merchantRaw)))
    (amount : some (sortKeys (amountText first)) = some (sortKeys (amountText second)))
    (currency : some (sortKeys (textOrNull first.currency)) = some (sortKeys (textOrNull second.currency))) :
    SameStatement first second :=
  ⟨Value.text.inj (some.inj merchant), sortKeys_textOrNull (some.inj amount), sortKeys_textOrNull (some.inj currency)⟩

/-- Equal adjustments propose the same. -/
theorem sameProposal_of_sorted {first second : ReconciliationCandidate}
    (same : sortKeys (.object (fieldAdjustments first)) = sortKeys (.object (fieldAdjustments second))) :
    SameProposal first second := by
  have distinct (candidate : ReconciliationCandidate) : ((fieldAdjustments candidate).map Prod.fst).Nodup := by
    unfold fieldAdjustments
    split
    · cases candidate.statement.amount <;> simp
    · cases candidate.statement.currency <;> simp
    · cases candidate.statement.transactionDate <;> simp [dateEntry]
    · simp
    · simp
  have field := lookup_eq_of_sortKeys (distinct first) (distinct second) same
  simp only [fieldAdjustments_eq, List.lookup_append, lookup_optionalEntry] at field
  have entry {value other : Option String}
      (same : value.map (sortKeys ∘ Value.text ∘ id) = other.map (sortKeys ∘ Value.text ∘ id)) : value = other := by
    simpa using sortKeys_entry same
  exact ⟨entry (by simpa using field "amount"), entry (by simpa using field "currency"),
    entry (by simpa using field "transaction_date"), entry (by simpa using field "merchant")⟩

theorem SameProposal.fieldAdjustments {first second : ReconciliationCandidate}
    (same : SameProposal first second) :
    fieldAdjustments first = fieldAdjustments second := by
  rw [fieldAdjustments_eq, fieldAdjustments_eq, same.amount, same.currency, same.date, same.merchant]

theorem amountText_eq (statement : StatementTransaction) : amountText statement = textOrNull (shownAmount statement) :=
  rfl

theorem textArray_eq {α : Type} (items : List α) (write : α → String) :
    (items.map fun item => Value.text (write item)) = (items.map write).map .text := by
  simp

theorem isoText_map_inj {first second : Option Calendar.CalendarDate}
    (same : first.map isoText = second.map isoText) : first = second :=
  Option.map_injective isoText_injective same

/-- The entries of the app transaction that are there. -/
theorem appEntries_eq (candidate : ReconciliationCandidate) :
    appEntries candidate =
      optionalEntry "app_txn_id" (candidate.bestAppTransaction.map AppTransaction.appTxnId) ++
      optionalEntry "app_merchant" (candidate.bestAppTransaction.map AppTransaction.merchant) ++
      optionalEntry "app_amount" (candidate.bestAppTransaction.map fun app => literalStr app.amount) ++
      optionalEntry "app_currency" (candidate.bestAppTransaction.map AppTransaction.currency) ++
      optionalEntry "app_txn_date" (candidate.bestAppTransaction.map fun app => isoText app.transactionDate) := by
  unfold appEntries
  cases candidate.bestAppTransaction <;> rfl

theorem shown_of_fields {first second : Option AppTransaction}
    (identity : first.map AppTransaction.appTxnId = second.map AppTransaction.appTxnId)
    (merchant : first.map AppTransaction.merchant = second.map AppTransaction.merchant)
    (amount : (first.map fun app => literalStr app.amount) = second.map fun app => literalStr app.amount)
    (currency : first.map AppTransaction.currency = second.map AppTransaction.currency)
    (date : (first.map fun app => isoText app.transactionDate) = second.map fun app => isoText app.transactionDate) :
    first.map AppTransaction.shown = second.map AppTransaction.shown := by
  cases first <;> cases second <;> simp_all [AppTransaction.shown, isoText_injective.eq_iff]

/-- A confirmation shows the statement and the app transaction. -/
theorem confirmMatch_shown {first second : ReconciliationCandidate}
    (same : sortKeys (payloadConfirmMatch first) = sortKeys (payloadConfirmMatch second)) :
    SameShown first second .confirmMatch := by
  have distinct (candidate : ReconciliationCandidate) : (([("action_type", Value.text "confirm_match"),
      ("statement_merchant", .text candidate.statement.merchantRaw),
      ("statement_amount", amountText candidate.statement),
      ("statement_currency", textOrNull candidate.statement.currency)] ++
    dateEntry "statement_txn_date" candidate.statement.transactionDate ++ appEntries candidate ++
    [("confidence_score", .text (decimalStr candidate.confidenceScore)),
      ("reason_codes", reasonTexts candidate)]).map Prod.fst).Nodup := by
    unfold appEntries
    cases candidate.statement.transactionDate <;> cases candidate.bestAppTransaction <;> simp [dateEntry]
  have field := lookup_eq_of_sortKeys (distinct first) (distinct second) same
  have statement := sameStatement_of_fields (field "statement_merchant") (field "statement_amount")
    (field "statement_currency")
  simp only [List.lookup_append, dateEntry_eq, appEntries_eq, lookup_optionalEntry] at field
  have date := sortKeys_entry (by simpa [List.lookup] using field "statement_txn_date")
  refine ⟨statement, isoText_map_inj date, ?_, by simpa [List.lookup, sortKeys] using field "confidence_score",
    sortKeys_texts (by simpa [List.lookup, reasonTexts] using field "reason_codes")⟩
  exact shown_of_fields (sortKeys_entry (by simpa [List.lookup] using field "app_txn_id"))
    (sortKeys_entry (by simpa [List.lookup] using field "app_merchant"))
    (sortKeys_entry (by simpa [List.lookup] using field "app_amount"))
    (sortKeys_entry (by simpa [List.lookup] using field "app_currency"))
    (sortKeys_entry (by simpa [List.lookup] using field "app_txn_date"))

/-- Candidates that show the same app transaction have the same entries for it. -/
theorem appEntries_shown {first second : ReconciliationCandidate}
    (same : first.bestAppTransaction.map AppTransaction.shown = second.bestAppTransaction.map AppTransaction.shown) :
    appEntries first = appEntries second := by
  unfold appEntries
  cases h : first.bestAppTransaction <;> cases h' : second.bestAppTransaction <;> simp_all [AppTransaction.shown]

/-- Two payloads of one action and note are the same up to the order of their keys exactly when the candidates
agree in the fields that the action shows. -/
theorem payload_shown_iff {first second : InstructionFields} {item item' : ReviewQueueItem}
    (action : first.action = second.action) (note : first.note = second.note) :
    sortKeys (buildPayloadInstruction first item) = sortKeys (buildPayloadInstruction second item') ↔
      SameShown item.candidate item'.candidate first.action := by
  unfold buildPayloadInstruction
  rw [← action, ← note]
  cases first.action with
  | confirmMatch =>
    refine ⟨confirmMatch_shown, ?_⟩
    rintro ⟨statement, date, app, score, reasons⟩
    simp only [payloadConfirmMatch, amountText_eq, statement.merchant, statement.amount, statement.currency, date,
      appEntries_shown app, score, reasonTexts, textArray_eq, reasons]
  | markDuplicate =>
    constructor
    · intro same
      have field := lookup_eq_of_sortKeys (by simp) (by simp) same
      exact ⟨sortKeys_texts (some.inj (field "duplicate_app_txn_ids")),
        sortKeys_textOrNull (some.inj (field "kept_app_txn_id")),
        Value.text.inj (some.inj (field "statement_merchant")),
        sortKeys_textOrNull (some.inj (field "statement_amount")),
        Value.text.inj (some.inj (field "confidence_score"))⟩
    · rintro ⟨duplicates, kept, merchant, amount, score⟩
      simp only [payloadMarkDuplicate, amountText_eq, kept, merchant, amount, score]
      rw [textArray_eq _ AppTransaction.appTxnId, textArray_eq _ AppTransaction.appTxnId, duplicates]
  | markStatementOnly =>
    constructor
    · intro same
      have field := lookup_eq_of_sortKeys (by simp) (by simp) same
      exact ⟨sameStatement_of_fields (field "statement_merchant") (field "statement_amount")
        (field "statement_currency"), sortKeys_textOrNull (some.inj (field "statement_row_reference"))⟩
    · rintro ⟨statement, reference⟩
      simp only [payloadMarkStatementOnly, amountText_eq, statement.merchant, statement.amount, statement.currency,
        reference]
  | createMissingAppTransaction =>
    constructor
    · intro same
      have field := lookup_eq_of_sortKeys (by simp) (by simp) same
      exact ⟨sameStatement_of_fields (field "statement_merchant") (field "suggested_amount")
          (field "suggested_currency"),
        isoText_map_inj (sortKeys_textOrNull (some.inj (field "suggested_date"))),
        sortKeys_textOrNull (some.inj (field "statement_row_reference"))⟩
    · rintro ⟨statement, date, reference⟩
      simp only [payloadCreateMissingApp, amountText_eq, statement.merchant, statement.amount, statement.currency,
        date, reference]
  | adjustAppTransaction =>
    constructor
    · intro same
      have field := lookup_eq_of_sortKeys (by simp) (by simp) same
      have shown := lookup_eq_of_sortKeys (by simp) (by simp) (some.inj (field "statement_evidence"))
      exact ⟨sameStatement_of_fields (shown "merchant") (shown "amount") (shown "currency"),
        isoText_map_inj (sortKeys_textOrNull (some.inj (shown "txn_date"))),
        sortKeys_textOrNull (some.inj (field "app_txn_id")),
        sameProposal_of_sorted (some.inj (field "field_adjustments"))⟩
    · rintro ⟨statement, date, app, proposal⟩
      simp only [payloadAdjustApp, amountText_eq, statement.merchant, statement.amount, statement.currency, date, app,
        proposal.fieldAdjustments]
  | ignore => exact iff_of_true rfl trivial
  | needsMoreInfo => exact iff_of_true rfl trivial

/-- An entry of one instruction answers another one of the same decision that has the same covered fields. -/
theorem Answers.iff_sameCovered (collisionFree : Function.Injective platform.sha256Hex)
    (answers : Answers platform entry first item) (decision : first.decisionId = second.decisionId) :
    Answers platform entry second item' ↔ SameCovered first second item item' := by
  constructor
  · intro other
    have action := answers.action.symm.trans other.action
    have digest := answers.fingerprint.symm.trans other.fingerprint
    have text := String.ofList_injective (String.toByteArray_inj.mp (collisionFree digest))
    have sorted := dumps_injective
      (by exact ⟨trivial, trivial, trivial, trivial, trivial, trivial, plain_payload first item, trivial⟩)
      (by exact ⟨trivial, trivial, trivial, trivial, trivial, trivial, plain_payload second item', trivial⟩) text
    have distinct : ["decision_id", "queue_item_id", "action", "note", "reviewer", "candidate_id", "payload"].Nodup := by
      decide
    have field := lookup_eq_of_sortKeys (by exact distinct) (by exact distinct) sorted
    have note := Value.text.inj (some.inj (field "note"))
    exact ⟨answers.queueItemId.symm.trans other.queueItemId, action, note,
      Value.text.inj (some.inj (field "reviewer")), Value.text.inj (some.inj (field "candidate_id")),
      (payload_shown_iff action note).mp (some.inj (field "payload"))⟩
  · intro same
    refine ⟨answers.queueItemId.trans same.queueItemId, answers.action.trans same.action, ?_⟩
    rw [answers.fingerprint]
    simp only [buildFingerprintInstruction, dumps, sortKeys, sortMembers, decision, same.queueItemId, same.action,
      same.note, same.reviewer, same.candidateId, (payload_shown_iff same.action same.note).mpr same.shown]

/-- The validated item is the one that the instruction carries. -/
theorem Accepts.carried {call : ApplyCall} {order : ApplyInstruction}
    (accepts : Accepts platform call order item) :
    order.item = some item := by
  have validated := accepts.validated
  simp only [validateInstruction, bind_ok, expect_ok, pure_ok] at validated
  obtain ⟨found, carried, _, _, _, _, _, _, _, _, _, _, _, _, _, _, _, _, _, _, _, _, rfl⟩ := validated
  exact carried

/-- Beyond the covered fields a decision has its time, its evidence references and its review item. -/
theorem Accepts.sameDecision_iff {call repeated : ApplyCall} {first second : ApplyInstruction}
    (accepts : Accepts platform call first item) (accepts' : Accepts platform repeated second item')
    (same : SameCovered first.toInstructionFields second.toInstructionFields item item') :
    SameDecision first second ↔
      first.resolvedAt = second.resolvedAt ∧ first.evidenceRefs = second.evidenceRefs ∧
      item = item' := by
  constructor
  · intro decision
    have items := decision.item
    rw [accepts.carried, accepts'.carried] at items
    exact ⟨decision.resolvedAt, decision.evidenceRefs, some.inj items⟩
  · rintro ⟨time, references, rfl⟩
    exact ⟨same.action, same.reviewer, same.note, time, references, accepts.carried.trans accepts'.carried.symm⟩

/-- A known decision with a changed instruction is a conflict. -/
theorem checkIdempotency_conflict {regs : Registries} (known : regs.applied.get? first.decisionId = some entry)
    (changed : ¬ Answers platform entry first item) :
    ∃ message, checkIdempotencyInstruction platform regs first item = .error (.conflict message) := by
  rw [checkIdempotencyInstruction, known]
  by_cases queued : entry.queueItemId = first.queueItemId
  · by_cases action : entry.action = first.action
    · have differs := fun digest => changed ⟨queued, action, digest⟩
      simp only [require, if_pos queued, if_pos action, if_neg differs]
      exact ⟨_, rfl⟩
    · simp only [require, if_pos queued, if_neg action]
      exact ⟨_, rfl⟩
  · simp only [require, if_neg queued]
    exact ⟨_, rfl⟩

/-- The changes of a repeated decision are refused if and only if a covered field changes, or the time, the evidence
references and the review item stay as they were. -/
theorem replay_same_decision_iff (collisionFree : Function.Injective platform.sha256Hex)
    {call repeated : ApplyCall} {first second : ApplyInstruction} {item item' : ReviewQueueItem}
    {regs after : Registries} {result : ResolutionApplyResult}
    (accepts : Accepts platform call first item) (accepts' : Accepts platform repeated second item')
    (decision : first.decisionId = second.decisionId)
    (applied : perform platform call regs = .ok result after) (success : result.success = true)
    (between : List ApplyCall) :
    RefusesChanges platform (afterCalls platform after between) repeated first second ↔
      (SameCovered first.toInstructionFields second.toInstructionFields item item' →
        first.resolvedAt = second.resolvedAt ∧ first.evidenceRefs = second.evidenceRefs ∧ item = item') := by
  obtain ⟨_, _, entry, found, known, answers, _⟩ := perform_success applied success
  obtain rfl := Option.some.inj (accepts.requested.symm.trans found.requested)
  obtain rfl := Except.ok.inj (accepts.validated.symm.trans found.validated)
  have kept : (afterCalls platform after between).applied.get? second.decisionId = some entry :=
    decision ▸ applied_afterCalls known between
  have covered : Answers platform entry second.toInstructionFields item' ↔ _ :=
    answers.iff_sameCovered collisionFree decision
  rw [RefusesChanges, perform_requested accepts'.requested, applyInstruction_eq, accepts'.validated]
  by_cases same : SameCovered first.toInstructionFields second.toInstructionFields item item'
  · have replayed := checkIdempotency_answers kept (covered.mpr same)
    simp only [replayed]
    rw [← accepts.sameDecision_iff accepts' same]
    constructor
    · intro sound _
      exact sound.1 ⟨_, rfl, rfl⟩
    · intro held
      exact ⟨fun _ => held same, fun differs => absurd (held same) differs⟩
  · obtain ⟨message, refused⟩ := checkIdempotency_conflict kept (mt covered.mp same)
    simp only [refused]
    constructor
    · intro _ given
      exact absurd given same
    · intro _
      refine ⟨?_, fun _ => ⟨message, rfl⟩⟩
      rintro ⟨_, run, _⟩
      cases run

/-- A digest without collisions. -/
def recordingRuntime : ApplyPlatform where
  itemSha256 := fun _ => "digest"
  sha256Hex := fun bytes => String.ofList (bytes.data.toList.map fun byte => Char.ofNat byte.toNat)
  fromIsoFormat := fun _ => some true

theorem recordingRuntime_injective : Function.Injective recordingRuntime.sha256Hex := by
  have chars : Function.Injective fun byte : UInt8 => Char.ofNat byte.toNat := by
    intro first second same
    have valid (byte : UInt8) : byte.toNat.isValidChar := Or.inl (by have := byte.toNat_lt; omega)
    have codes := congrArg Char.toNat same
    simp only [Char.toNat_ofNat, if_pos (valid _)] at codes
    exact UInt8.toNat_inj.mp codes
  intro first second same
  exact ByteArray.ext (Array.ext' (chars.list_map (String.ofList_injective same)))

/-- The second application of a decision, later and with the given note and evidence. -/
def laterCall (note : String) (evidenceRefs : List String) : ApplyCall :=
  .apply { candidate := { statement := samplePurchase, candidateId := "cand-1" }, issueType := .needsReview,
           suggestedAction := .needsMoreInfo, queueItemId := "q-1" }
    { decisionId := "d-1", queueItemId := "q-1", action := .ignore, note := note,
      resolvedAt := some "2026-02-01T00:00:00+00:00" } evidenceRefs false "2026-02-01T00:00:00+00:00"

/-- A changed note is refused, and changed evidence that no payload shows is not. -/
theorem replay_same_decision_changes :
    ∃ first item result after, Accepts recordingRuntime (sampleCall "d-1") first item ∧
      perform recordingRuntime (sampleCall "d-1") {} = .ok result after ∧
      (∃ second, Accepts recordingRuntime (laterCall "seen" []) second item ∧
        RefusesChanges recordingRuntime after (laterCall "seen" []) first second) ∧
      ∃ second, Accepts recordingRuntime (laterCall "" ["photo"]) second item ∧
        ¬ RefusesChanges recordingRuntime after (laterCall "" ["photo"]) first second := by
  have accepts : Accepts recordingRuntime (sampleCall "d-1") _ _ := ⟨rfl, rfl⟩
  have noted : Accepts recordingRuntime (laterCall "seen" []) _ _ := ⟨rfl, rfl⟩
  have pictured : Accepts recordingRuntime (laterCall "" ["photo"]) _ _ := ⟨rfl, rfl⟩
  have run : perform recordingRuntime (sampleCall "d-1") {} = .ok _ _ := rfl
  refine ⟨_, _, _, _, accepts, run, ⟨_, noted, ?_⟩, _, pictured, fun refuses => ?_⟩
  · refine (replay_same_decision_iff recordingRuntime_injective accepts noted rfl run rfl []).mpr fun same => ?_
    exact absurd (show "" = "seen" from same.note) (by decide)
  · have same := (replay_same_decision_iff recordingRuntime_injective accepts pictured rfl run rfl []).mp refuses
      ⟨rfl, rfl, rfl, rfl, rfl, trivial⟩
    cases same.2.1

theorem replay_of_changed_evidence :
    Function.Injective recordingRuntime.sha256Hex ∧
      (match perform recordingRuntime (sampleCall "d-1") {} with
        | .ok result after => result.success && match perform recordingRuntime (laterCall "" ["photo"]) after with
          | .ok replay _ => replay.idempotent
          | .error .. => false
        | .error .. => false) = true := by
  exact ⟨recordingRuntime_injective, by decide +kernel⟩

end FinanceCore.Reconciliation

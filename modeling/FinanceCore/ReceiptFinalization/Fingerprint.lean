import FinanceCore.Foundation.Json
import FinanceCore.ReceiptFinalization.SinglePayer

namespace FinanceCore.ReceiptFinalization

open Calculators (moneyValue moneyValue_of_read)
open Decimal Exceptions Json Money List

variable {context : Context}

def textOrNull : Option String → Value
  | none => .null
  | some text => .text text

/-- An empty text is hashed as a null. -/
def nonEmptyOrNull (text : String) : Value := if text = "" then .null else .text text

def ActiveFactSetBinding.asFingerprintPayload (binding : ActiveFactSetBinding) : Value :=
  .object [("receipt_public_id", .text binding.receiptPublicId),
    ("fact_set_public_id", .text binding.factSetPublicId),
    ("fact_set_version", .integer binding.factSetVersion),
    ("fact_set_input_hash", .text binding.factSetInputHash),
    ("fact_set_result_hash", .text binding.factSetResultHash)]

def ReceiptBookkeepingMetadata.asPayload (metadata : ReceiptBookkeepingMetadata) : Value :=
  .object [("version", .text "application_bookkeeping_metadata_v1"),
    ("description", textOrNull metadata.description), ("category", textOrNull metadata.category)]

def optionalMember (key : String) : Option Value → List (String × Value)
  | none => []
  | some value => [(key, value)]

def ConfirmedReceiptIdentity.asFingerprintPayload (identity : ConfirmedReceiptIdentity) : Value :=
  .object ([("receipt_public_id", .text identity.receiptPublicId), ("merchant", .text identity.merchant),
    ("receipt_date", .text identity.receiptDate), ("source_channel", .text identity.sourceChannel),
    ("currency", .text identity.currency)] ++
    optionalMember "bookkeeping_metadata" (identity.bookkeepingMetadata.map ReceiptBookkeepingMetadata.asPayload))

def ReceiptGroupMaterialization.asFingerprintPayload (group : ReceiptGroupMaterialization) : Value :=
  .object [("receipt_public_id", .text group.receiptPublicId),
    ("receipt_group_receipt_public_id", .text group.receiptGroupReceiptPublicId),
    ("group_type", .text group.groupType), ("status", .text group.status), ("source", .text group.source)]

/-- The part of an obligation that is hashed. -/
structure FingerprintObligation where
  (debtor creditor amount currency : String)

def fingerprintObligation (obligation : SettlementObligation context) :
    Except FinalizationError FingerprintObligation := do
  let amount ← expect (canonicalDecimalStr (scaledNumber (minorUnits obligation.currency) obligation.amount))
    .decimalTooLong
  return ⟨obligation.debtor, obligation.creditor, amount, obligation.currency.code⟩

/-- The sort key is debtor, creditor and amount text. -/
def FingerprintObligation.Before (first second : FingerprintObligation) : Prop :=
  first.debtor < second.debtor ∨ first.debtor = second.debtor ∧
    (first.creditor < second.creditor ∨ first.creditor = second.creditor ∧ first.amount ≤ second.amount)

instance : DecidableRel FingerprintObligation.Before :=
  fun _ _ => inferInstanceAs (Decidable (_ ∨ _))

def FingerprintObligation.payload (obligation : FingerprintObligation) : Value :=
  .object [("debtor", .text obligation.debtor), ("creditor", .text obligation.creditor),
    ("amount", .text obligation.amount), ("currency", .text obligation.currency)]

/-- A stated amount is hashed as its canonical text. -/
def amountPayload (value : RawMoney) (label : AmountLabel) : Except FinalizationError Value :=
  if value = .missing then .ok .null
  else do
    let number ← (moneyDecimal value label).mapError .money
    let text ← expect (canonicalDecimalStr number) .decimalTooLong
    return .text text

def sortedTexts (texts : List String) : List String := texts.insertionSort (· ≤ ·)

/-- The members of the hashed payload. -/
def payloadMembers (input : FinalizationInput context) (obligations : List FingerprintObligation)
    (totalPaid payerOwnShare : Value) : List (String × Value) :=
  let request := input.request
  [("receipt_group_public_id", .text request.receiptGroupPublicId),
    ("calculation_run_public_id", .text request.calculationRunPublicId),
    ("calculation_snapshot_id", .text request.calculationSnapshotId),
    ("calculation_snapshot_hash", nonEmptyOrNull request.calculationSnapshotHash),
    ("currency_contract_version", nonEmptyOrNull request.currencyContractVersion),
    ("currency", .text request.currency),
    ("payer_participant_public_id", .text request.payerParticipantPublicId),
    ("settlement_obligations", .array ((obligations.insertionSort FingerprintObligation.Before).map
      FingerprintObligation.payload)),
    ("participant_public_ids", .array ((sortedTexts (sortedTexts input.snapshot.participants)).map .text)),
    ("total_paid", totalPaid),
    ("payer_own_share", payerOwnShare),
    ("source_evidence_refs", .array ((sortedTexts request.sourceEvidenceRefs).map .text))] ++
  (optionalMember "active_fact_set_binding"
      (request.activeFactSetBinding.map ActiveFactSetBinding.asFingerprintPayload) ++
    (optionalMember "confirmed_receipt_identity"
        (request.confirmedReceiptIdentity.map ConfirmedReceiptIdentity.asFingerprintPayload) ++
      optionalMember "receipt_group_materialization"
        (request.receiptGroupMaterialization.map ReceiptGroupMaterialization.asFingerprintPayload)))

def fingerprintPayload (input : FinalizationInput context) : Except FinalizationError Value := do
  let obligations ← input.request.settlementObligations.mapM fingerprintObligation
  let totalPaid ← amountPayload input.snapshot.totalPaid .totalPaid
  let payerOwnShare ← amountPayload input.snapshot.payerOwnShare .payerOwnShare
  return .object (payloadMembers input obligations totalPaid payerOwnShare)

/-- The digest of the sorted compact text of the material content. -/
def buildFinalizationContentFingerprint {Digest : Type} (sha256 : ByteArray → Digest)
    (input : FinalizationInput context) : Except FinalizationError Digest := do
  let payload ← fingerprintPayload input
  return sha256 (String.ofList (dumps true payload)).toUTF8

section Binding

theorem optionalMember_keys (key : String) (value : Option Value) :
    ((optionalMember key value).map Prod.fst).Sublist [key] := by
  cases value with
  | none => exact nil_sublist _
  | some value => exact Sublist.refl _

theorem payloadMembers_distinct (input : FinalizationInput context)
    (debts : List FingerprintObligation) (totalPaid payerOwnShare : Value) :
    ((payloadMembers input debts totalPaid payerOwnShare).map Prod.fst).Nodup := by
  have keys : (["receipt_group_public_id", "calculation_run_public_id", "calculation_snapshot_id",
      "calculation_snapshot_hash", "currency_contract_version", "currency", "payer_participant_public_id",
      "settlement_obligations", "participant_public_ids", "total_paid", "payer_own_share",
      "source_evidence_refs"] ++ (["active_fact_set_binding"] ++ (["confirmed_receipt_identity"] ++
      ["receipt_group_materialization"]))).Nodup := by decide
  apply List.Nodup.sublist _ keys
  unfold payloadMembers
  dsimp only
  rw [map_append, map_append, map_append]
  apply Sublist.append (Sublist.refl _)
  apply Sublist.append (optionalMember_keys _ _)
  apply Sublist.append (optionalMember_keys _ _) (optionalMember_keys _ _)

theorem plainMembers_optional (key : String) {value : Option Value}
    (plain : ∀ found ∈ value, Plain found) :
    PlainMembers (optionalMember key value) := by
  cases value with
  | none => trivial
  | some value => exact ⟨plain value rfl, trivial⟩

theorem plain_textOrNull (text : Option String) : Plain (textOrNull text) := by
  cases text <;> trivial

theorem plain_nonEmptyOrNull (text : String) : Plain (nonEmptyOrNull text) := by
  unfold nonEmptyOrNull
  split <;> trivial

variable {value : RawMoney} {label : AmountLabel} {Digest : Type}

variable {payload totalPaid payerOwnShare : Value} {sha256 : ByteArray → Digest} {input : FinalizationInput context}
  {digest : Digest} {text : String}

theorem plain_amountPayload (run : amountPayload value label = .ok payload) : Plain payload := by
  unfold amountPayload at run
  split at run
  · cases run
    trivial
  · obtain ⟨_, _, run⟩ := bind_ok.mp run
    obtain ⟨_, _, run⟩ := bind_ok.mp run
    obtain rfl := pure_ok.mp run
    trivial

theorem plain_payload (input : FinalizationInput context) (debts : List FingerprintObligation)
    (total : Plain totalPaid) (own : Plain payerOwnShare) :
    Plain (.object (payloadMembers input debts totalPaid payerOwnShare)) := by
  have listed : Plain (.array ((debts.insertionSort FingerprintObligation.Before).map
      FingerprintObligation.payload)) := plainItems_map fun _ => ⟨trivial, trivial, trivial, trivial, trivial⟩
  have texts (texts : List String) : Plain (.array (texts.map .text)) := plainItems_map fun _ => trivial
  refine plainMembers_append.mpr ⟨?_, ?_⟩
  · exact ⟨trivial, trivial, trivial, plain_nonEmptyOrNull _, plain_nonEmptyOrNull _, trivial, trivial, listed,
      texts _, total, own, texts _, trivial⟩
  refine plainMembers_append.mpr ⟨?_, ?_⟩
  · apply plainMembers_optional
    intro found present
    obtain ⟨binding, _, rfl⟩ := Option.map_eq_some_iff.mp present
    exact ⟨trivial, trivial, trivial, trivial, trivial, trivial⟩
  refine plainMembers_append.mpr ⟨?_, ?_⟩
  · apply plainMembers_optional
    intro found present
    obtain ⟨identity, _, rfl⟩ := Option.map_eq_some_iff.mp present
    refine plainMembers_append.mpr ⟨?_, ?_⟩
    · exact ⟨trivial, trivial, trivial, trivial, trivial, trivial⟩
    · apply plainMembers_optional
      intro found present
      obtain ⟨metadata, _, rfl⟩ := Option.map_eq_some_iff.mp present
      exact ⟨trivial, plain_textOrNull _, plain_textOrNull _, trivial⟩
  · apply plainMembers_optional
    intro found present
    obtain ⟨group, _, rfl⟩ := Option.map_eq_some_iff.mp present
    exact ⟨trivial, trivial, trivial, trivial, trivial, trivial⟩

/-- The parts of the payload that the argument reads. -/
structure HashedFacts (input : FinalizationInput context) (obligations : List FingerprintObligation)
    (totalPaid payerOwnShare : Value) : Prop where
  obligations : input.request.settlementObligations.mapM fingerprintObligation = .ok obligations
  total : amountPayload input.snapshot.totalPaid .totalPaid = .ok totalPaid
  own : amountPayload input.snapshot.payerOwnShare .payerOwnShare = .ok payerOwnShare

theorem fingerprint_eq_ok (run : buildFinalizationContentFingerprint sha256 input = .ok digest) :
    ∃ debts totalPaid payerOwnShare, HashedFacts input debts totalPaid payerOwnShare ∧
      digest = sha256 (String.ofList (dumps true
        (.object (payloadMembers input debts totalPaid payerOwnShare)))).toUTF8 := by
  obtain ⟨payload, built, run⟩ := bind_ok.mp run
  simp only [fingerprintPayload, bind_ok, pure_ok] at built
  obtain ⟨debts, listed, totalPaid, total, payerOwnShare, own, rfl⟩ := built
  exact ⟨debts, totalPaid, payerOwnShare, ⟨listed, total, own⟩, (pure_ok.mp run).symm⟩

theorem sortedTexts_perm (texts : List String) : (sortedTexts texts).Perm texts :=
  perm_insertionSort _ _

theorem texts_of_sorted {first second : List String}
    (same : sortKeys (.array (first.map .text)) = sortKeys (.array (second.map .text))) : first = second := by
  rw [sortKeys, sortKeys, sortItems_eq_map, sortItems_eq_map, map_map, map_map] at same
  have injective : Function.Injective (sortKeys ∘ Value.text) := fun _ _ equal => Value.text.inj equal
  exact injective.list_map (Value.array.inj same)

theorem FingerprintObligation.payload_injective : Function.Injective fun debt : FingerprintObligation =>
    sortKeys debt.payload := by
  intro first second same
  have distinct (debt : FingerprintObligation) : (debt.payload.members.map Prod.fst).Nodup := by
    change ["debtor", "creditor", "amount", "currency"].Nodup
    decide
  have field := lookup_eq_of_sortKeys (distinct first) (distinct second) same
  have text (key : String) {left right : String} (leftIs : first.payload.members.lookup key = some (.text left))
      (rightIs : second.payload.members.lookup key = some (.text right)) : left = right := by
    have equal := field key
    rw [leftIs, rightIs] at equal
    exact Value.text.inj (Option.some.inj equal)
  have debtor := text "debtor" rfl rfl
  have creditor := text "creditor" rfl rfl
  have amount := text "amount" rfl rfl
  have currency := text "currency" rfl rfl
  cases first
  cases second
  simp_all

/-- What the hashed obligations ask of one debtor. -/
def hashedDebt (obligations : List FingerprintObligation) (debtor : String) : ℚ :=
  ((obligations.filter fun obligation => obligation.debtor = debtor).map fun obligation =>
    moneyValue (.text obligation.amount)).sum

theorem moneyValue_canonicalDecimalStr {amount : Number}
    (written : canonicalDecimalStr amount = some text) :
    moneyValue (.text text) = amount.value := by
  obtain ⟨exact, read, value⟩ : ∃ exact, moneyDecimal (.text text) AmountLabel.totalPaid = .ok exact ∧
      exact.value = amount.value := moneyDecimal_canonicalDecimalStr written
  rw [moneyValue_of_read read, value]

/-- A hashed obligation and the obligation that it stands for. -/
theorem fingerprintObligation_eq_ok {debt : SettlementObligation context}
    {hashed : FingerprintObligation} (run : fingerprintObligation debt = .ok hashed) :
    hashed.debtor = debt.debtor ∧ moneyValue (.text hashed.amount) = debt.amount := by
  obtain ⟨amount, written, run⟩ := bind_ok.mp run
  obtain rfl := pure_ok.mp run
  refine ⟨rfl, ?_⟩
  rw [moneyValue_canonicalDecimalStr (expect_ok.mp written), scaledNumber_value debt.held.atScale]

theorem hashedDebt_eq {debts : List (SettlementObligation context)}
    {hashed : List FingerprintObligation}
    (run : debts.mapM fingerprintObligation = .ok hashed) (debtor : String) :
    hashedDebt hashed debtor = owed debts debtor := by
  have described := (mapM_ok.mp run).imp fun _ _ done => fingerprintObligation_eq_ok done
  clear run
  induction described with
  | nil => rfl
  | cons head _ ih =>
    unfold hashedDebt owed at ih ⊢
    rw [filter_cons, filter_cons, head.1]
    split_ifs
    · rw [map_cons, map_cons, sum_cons, sum_cons, ih, head.2]
    · exact ih

theorem amountPayload_stated (stated : value ≠ .missing)
    (run : amountPayload value label = .ok payload) :
    ∃ text, payload = .text text ∧ moneyValue (.text text) = moneyValue value := by
  rw [amountPayload, if_neg stated] at run
  obtain ⟨number, read, run⟩ := bind_ok.mp run
  obtain ⟨text, written, run⟩ := bind_ok.mp run
  refine ⟨text, (pure_ok.mp run).symm, ?_⟩
  rw [moneyValue_canonicalDecimalStr (expect_ok.mp written), moneyValue_of_read (mapError_ok.mp read)]

/-- Two inputs with one digest agree on everything that their shares are computed from. -/
structure SameContent (first second : FinalizationInput context) : Prop where
  payer : first.request.payerParticipantPublicId = second.request.payerParticipantPublicId
  participants : first.snapshot.participants.Perm second.snapshot.participants
  debts : ∀ debtor, owed first.request.settlementObligations debtor =
    owed second.request.settlementObligations debtor
  total : first.snapshot.totalPaid ≠ .missing → second.snapshot.totalPaid ≠ .missing →
    moneyValue first.snapshot.totalPaid = moneyValue second.snapshot.totalPaid

theorem sameContent_of_fingerprint (collisionFree : Function.Injective sha256)
    {first second : FinalizationInput context}
    (firstRun : buildFinalizationContentFingerprint sha256 first = .ok digest)
    (secondRun : buildFinalizationContentFingerprint sha256 second = .ok digest) : SameContent first second := by
  obtain ⟨hashed, total, own, facts, rfl⟩ := fingerprint_eq_ok firstRun
  obtain ⟨hashed', total', own', facts', same⟩ := fingerprint_eq_ok secondRun
  have text := String.ofList_injective (String.toByteArray_inj.mp (collisionFree same))
  have sorted := dumps_injective
    (plain_payload first hashed (plain_amountPayload facts.total) (plain_amountPayload facts.own))
    (plain_payload second hashed' (plain_amountPayload facts'.total) (plain_amountPayload facts'.own)) text
  have field := lookup_eq_of_sortKeys (payloadMembers_distinct first hashed total own)
    (payloadMembers_distinct second hashed' total' own') sorted
  have payer := Option.some.inj (field "payer_participant_public_id")
  have listed := Option.some.inj (field "settlement_obligations")
  have people := Option.some.inj (field "participant_public_ids")
  have totals := Option.some.inj (field "total_paid")
  refine ⟨Value.text.inj payer, ?_, ?_, ?_⟩
  · have equal := texts_of_sorted people
    have left := (sortedTexts_perm _).trans (sortedTexts_perm first.snapshot.participants)
    rw [equal] at left
    exact left.symm.trans ((sortedTexts_perm _).trans (sortedTexts_perm _))
  · intro debtor
    rw [sortKeys, sortKeys, sortItems_eq_map, sortItems_eq_map, map_map, map_map] at listed
    have equal := FingerprintObligation.payload_injective.list_map (Value.array.inj listed)
    have perm := perm_insertionSort FingerprintObligation.Before hashed
    rw [equal] at perm
    rw [← hashedDebt_eq facts.obligations, ← hashedDebt_eq facts'.obligations]
    exact (((perm.symm.trans (perm_insertionSort _ _)).filter _).map _).sum_eq
  · intro stated stated'
    obtain ⟨text, rfl, value⟩ := amountPayload_stated stated facts.total
    obtain ⟨text', rfl, value'⟩ := amountPayload_stated stated' facts'.total
    rw [← value, ← value', Value.text.inj totals]

/-- Equal fingerprints fix the share and the payment of every participant, although no share is hashed; whether the
payer's own share is stated does not matter. -/
theorem fingerprint_fixes_shares {Digest : Type} {sha256 : ByteArray → Digest}
    (collisionFree : Function.Injective sha256) {first second : FinalizationInput context}
    {digest : Digest} (firstRun : buildFinalizationContentFingerprint sha256 first = .ok digest)
    (secondRun : buildFinalizationContentFingerprint sha256 second = .ok digest)
    (firstTotal : first.snapshot.totalPaid ≠ .missing) (secondTotal : second.snapshot.totalPaid ≠ .missing)
    (firstPaid : first.snapshot.payerPaidAmounts.isSome)
    (secondPaid : second.snapshot.payerPaidAmounts.isSome) :
    first.snapshot.participants.Perm second.snapshot.participants ∧
      ∀ participant ∈ first.snapshot.participants,
        shareValue first.snapshot participant = shareValue second.snapshot participant ∧
        paidValue first.snapshot participant = paidValue second.snapshot participant := by
  have content := sameContent_of_fingerprint collisionFree firstRun secondRun
  have total := content.total firstTotal secondTotal
  have split := first.split firstTotal firstPaid
  have split' := second.split secondTotal secondPaid
  rw [← content.payer, ← total] at split'
  refine ⟨content.participants, fun participant member => ⟨?_, ?_⟩⟩
  · exact split.determined split' content.participants content.debts participant member
  · rw [first.paid_value firstTotal firstPaid member,
      second.paid_value secondTotal secondPaid (content.participants.mem_iff.mp member), content.payer, total]

/-- Two spellings of one dinner have one digest under an injective digest function. -/
theorem fingerprint_fixes_shares_dinner :
    ∃ first second : FinalizationInput Context.standard,
      first.request.calculationSnapshot.totalPaid ≠ second.request.calculationSnapshot.totalPaid ∧
      buildFinalizationContentFingerprint id first = buildFinalizationContentFingerprint id second ∧
      shareValue first.snapshot "ben" = shareValue second.snapshot "ben" := by
  let owes := benOwes 4 (by norm_num) (by decide +kernel)
  obtain ⟨first, request, -, second, request', -, ⟨payload, hashed, _, hashed', rfl⟩, ⟨stated, paid, member⟩, stated',
      paid'⟩ :
      ∃ first : FinalizationInput Context.standard, first.request = dinnerRequest "6.00" "4.00" "10.00" owes ∧
        first.order = .listed ∧
        ∃ second : FinalizationInput Context.standard, second.request = dinnerRequest "6" "4.0" "10" owes ∧
          second.order = .listed ∧
          (∃ payload, fingerprintPayload first = .ok payload ∧
            ∃ other, fingerprintPayload second = .ok other ∧ other = payload) ∧
          (first.snapshot.totalPaid ≠ .missing ∧ first.snapshot.payerPaidAmounts.isSome ∧
            "ben" ∈ first.snapshot.participants) ∧
          second.snapshot.totalPaid ≠ .missing ∧ second.snapshot.payerPaidAmounts.isSome := by
    decide +kernel
  have run : buildFinalizationContentFingerprint id first = .ok _ := bind_ok.mpr ⟨_, hashed, rfl⟩
  have run' : buildFinalizationContentFingerprint id second = .ok _ := bind_ok.mpr ⟨_, hashed', rfl⟩
  refine ⟨first, second, ?_, run.trans run'.symm, ?_⟩
  · rw [request, request']
    decide
  · exact ((fingerprint_fixes_shares Function.injective_id run run' stated stated' paid paid').2 "ben" member).1

end Binding

end FinanceCore.ReceiptFinalization

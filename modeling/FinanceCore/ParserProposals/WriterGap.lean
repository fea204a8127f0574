import FinanceCore.Calculators.ReadinessGap
import FinanceCore.ParserProposals.WrittenFacts

namespace FinanceCore.ParserProposals

open Calculators Decimal Exceptions Money List Dict

variable {context ctx : Context} {unit : Currency} {members : Dict String Member}

theorem payerMembers_set {membership : Dict String Member} {publicId : String} {member : Member}
    (fresh : publicId ∉ membership.keys) :
    payerMembers (membership.set publicId member) =
      payerMembers membership ++ if member.role = .payer then [publicId] else [] := by
  have grown : (membership.set publicId member).entries = membership.entries ++ [(publicId, member)] :=
    setEntries_of_not_mem fresh
  rw [payerMembers, grown, payerMembers]
  by_cases payer : member.role = .payer <;> simp [payer]

/-- The payer rows are counted exactly. -/
theorem loadMember_payers {payerParticipantId : ℤ} {state next : MembershipState}
    {row : MembershipRow} (counted : (payerMembers state.membership).length = state.payerRows)
    (step : loadMember payerParticipantId state row = .ok next) :
    (payerMembers next.membership).length = next.payerRows := by
  obtain ⟨_, fresh, step⟩ := bind_ok.mp step
  obtain ⟨_, _, step⟩ := bind_ok.mp step
  have fresh := require_ok.mp fresh
  split at step
  · obtain ⟨_, role, step⟩ := bind_ok.mp step
    obtain rfl := pure_ok.mp step
    simp [payerMembers_set fresh, require_ok.mp role, counted]
  · obtain ⟨_, role, step⟩ := bind_ok.mp step
    obtain rfl := pure_ok.mp step
    have other : row.role ≠ .payer := by
      rw [require_ok.mp role]
      split_ifs <;> simp
    simp [payerMembers_set fresh, other, counted]

/-- A loaded membership has one payer. -/
theorem loadMembership_payer {payerParticipantId : Option ℤ} {rawCount : ℕ}
    {rows : List MembershipRow}
    (run : loadMembership payerParticipantId rawCount rows = .ok members) :
    ∃ payer, payerMembers members = [payer] := by
  simp only [loadMembership, bind_ok, pure_ok, require_ok] at run
  obtain ⟨payer, _, _, _, _, _, loaded, folded, _, one, rfl⟩ := run
  have counted := foldlM_invariant
    (fun state : MembershipState => (payerMembers state.membership).length = state.payerRows)
    (fun state row next _ counted step => loadMember_payers counted step) rfl folded
  rw [one] at counted
  exact length_eq_one_iff.mp counted

section Mapping

variable {shares : List CanonicalShare} {owner : FactOwner} {amount : ℚ}

/-- The loop over distinct included participants lists their public ids. -/
theorem allocationParticipants_run {rest : List CanonicalShare} {seen : List String}
    (distinct : (seen ++ rest.map CanonicalShare.participantPublicId).Nodup)
    (included : ∀ share ∈ rest, share.participantPublicId ∈ includedMembers members) :
    (rest.map materialParticipant).foldlM (fun result person => do
        let publicId := person.participantPublicId
        require (publicId ∉ result) (MappingError.duplicatedParticipant owner publicId)
        require (publicId ∈ includedMembers members) (MappingError.notIncluded owner publicId)
        return result ++ [publicId]) seen = .ok (seen ++ rest.map CanonicalShare.participantPublicId) := by
  induction rest generalizing seen with
  | nil => simp [pure, Except.pure]
  | cons share rest ih =>
    have fresh : share.participantPublicId ∉ seen := by
      intro member
      exact (nodup_append.mp distinct).2.2 _ member _ (by simp) rfl
    have grown : (seen ++ [share.participantPublicId] ++ rest.map CanonicalShare.participantPublicId).Nodup := by
      rwa [append_assoc]
    have tail := ih grown fun later member => included later (by simp [member])
    rw [map_cons, foldlM_cons]
    dsimp only [materialParticipant]
    rw [require, if_pos fresh, require, if_pos (included share (by simp))]
    rw [append_assoc] at tail
    exact tail

theorem allocationParticipants_written (once : IncludedOnce members shares) :
    allocationParticipants (shares.map materialParticipant) (includedMembers members) owner =
      .ok (shares.map CanonicalShare.participantPublicId) := by
  have listed : shares.map materialParticipant ≠ [] := by simpa using once.someone
  rw [allocationParticipants, require, if_pos listed]
  exact allocationParticipants_run (by simpa using once.once) once.included

/-- Stated shares map onto the text of each participant in order. -/
theorem manualShareMap_written (owner : FactOwner) (once : IncludedOnce members shares)
    (stated : StatedShares ctx unit shares amount) :
    ∃ mapped, manualShareMap (shares.map materialParticipant) (includedMembers members) owner = .ok mapped ∧
      mapped.entries = shares.map fun share => (share.participantPublicId, share.shareText.getD "") := by
  have listed : shares.map materialParticipant ≠ [] := by simpa using once.someone
  rw [manualShareMap, require, if_pos listed, foldlM_map]
  have distinct : ((empty : Dict String String).keys ++
      shares.map CanonicalShare.participantPublicId).Nodup := once.once
  refine foldlM_set_fresh (fun mapped share member fresh => ?_) distinct
  obtain ⟨text, states, nonempty, _⟩ := stated.each share member
  have kept : (materialParticipant share).shareAmount.filter (· ≠ "") = some text := by
    simp [materialParticipant, states, Option.filter, nonempty]
  have included : (materialParticipant share).participantPublicId ∈ includedMembers members :=
    once.included share member
  have absent : (materialParticipant share).participantPublicId ∉ mapped.keys := fresh
  dsimp only
  rw [require, if_pos absent, require, if_pos included, kept, states]
  rfl

variable {people : List String}

/-- Mapped manual shares are sound for the calculator. -/
theorem manualShares_written {mapped : Dict String String} (once : IncludedOnce members shares)
    (stated : StatedShares ctx unit shares amount)
    (inside : ∀ person ∈ includedMembers members, person ∈ people)
    (held : ctx.Holds (minorUnits unit) amount)
    (entries : mapped.entries = shares.map fun share => (share.participantPublicId, share.shareText.getD "")) :
    ManualShares ctx unit people (textShares mapped) amount := by
  have listed : (textShares mapped).entries =
      shares.map fun share => (share.participantPublicId, .text (share.shareText.getD "")) := by
    simp [textShares, Dict.map, entries, Function.comp_def]
  refine ⟨?_, ?_, ?_, ?_, held⟩
  · rw [listed]
    simpa using once.someone
  · intro person member
    rw [Dict.keys, listed, map_map] at member
    obtain ⟨share, found, rfl⟩ := mem_map.mp member
    exact inside _ (once.included share found)
  · intro entry member
    rw [listed] at member
    obtain ⟨share, found, rfl⟩ := mem_map.mp member
    obtain ⟨text, states, _, accepted⟩ := stated.each share found
    rw [states]
    exact accepted
  · rw [← stated.total, values, listed, map_map, map_map]
    rfl

variable {facts : CanonicalFacts}

/-- Every written line finds its own allocation. -/
theorem allocationsByLine_written (written : WrittenFacts ctx unit members facts) :
    ∃ byLine, allocationsByLine (inputMaterial facts).allocations = .ok byLine ∧
      ∀ allocation ∈ (inputMaterial facts).allocations, byLine.get? allocation.lineNumber = some allocation := by
  have lines : ((empty : Dict ℤ FactAllocation).keys ++
      (inputMaterial facts).allocations.map FactAllocation.lineNumber).Nodup := by
    have same : (inputMaterial facts).allocations.map FactAllocation.lineNumber =
        facts.allocations.map CanonicalAllocation.lineNumber := by
      rw [inputMaterial, map_map]
      rfl
    rw [same]
    exact written.lines
  have listed : ∃ byLine, allocationsByLine (inputMaterial facts).allocations = .ok byLine ∧
      byLine.entries = [] ++ (inputMaterial facts).allocations.map fun entry => (entry.lineNumber, entry) := by
    refine foldlM_set_fresh (fun byLine entry _ fresh => ?_) lines
    rw [require, if_pos fresh]
    rfl
  obtain ⟨byLine, run, entries⟩ := listed
  refine ⟨byLine, run, fun allocation member => get?_of_mem_entries ?_⟩
  rw [entries]
  exact mem_append_right _ (mem_map_of_mem member)

theorem projectItem_written (written : WrittenFacts ctx unit members facts)
    (inside : ∀ person ∈ includedMembers members, person ∈ people) {byLine : Dict ℤ FactAllocation}
    (found : ∀ allocation ∈ (inputMaterial facts).allocations,
      byLine.get? allocation.lineNumber = some allocation) {item : FactItem}
    (member : item ∈ (inputMaterial facts).items) :
    ∃ projected, projectItem byLine (includedMembers members) item = .ok projected ∧
      SoundItem ctx unit people projected := by
  obtain ⟨canonical, listed, rfl⟩ := mem_map.mp member
  obtain ⟨allocation, allocated, line⟩ := mem_map.mp (written.covered canonical listed)
  have money := written.money canonical listed
  have once := written.participants allocation allocated
  have looked := found _ (mem_map_of_mem allocated)
  rw [line] at looked
  rcases written.methods allocation allocated with equal | ⟨manual, stated⟩
  · refine ⟨{ itemName := some canonical.itemName, amount := some (.text canonical.lineAmountText)
              allocationMethod := some .equal
              participants := some (allocation.participants.map CanonicalShare.participantPublicId) }, ?_, ?_⟩
    · rw [projectItem, looked, expect, ok_bind]
      dsimp only
      rw [equal]
      rw [allocationParticipants_written once]
      rfl
    · have consumers : ∀ shares : List CanonicalShare, shares ≠ [] →
          itemParticipants { participants := some (shares.map CanonicalShare.participantPublicId) } =
            shares.map CanonicalShare.participantPublicId := by
        intro shares someone
        cases shares with
        | nil => exact absurd rfl someone
        | cons share rest => rfl
      refine ⟨money, .inl ⟨rfl, ?_⟩⟩
      change itemParticipants { participants := some _ } ≠ [] ∧ (itemParticipants { participants := some _ }).Nodup ∧
        ∀ consumer ∈ itemParticipants { participants := some _ }, consumer ∈ people
      rw [consumers _ once.someone]
      refine ⟨by simpa using once.someone, once.once, fun consumer listed => ?_⟩
      obtain ⟨share, found, rfl⟩ := mem_map.mp listed
      exact inside _ (once.included share found)
  · have shares := stated canonical listed line.symm
    obtain ⟨mapped, run, entries⟩ := manualShareMap_written (.itemLine canonical.lineNumber) once shares
    refine ⟨{ itemName := some canonical.itemName, amount := some (.text canonical.lineAmountText)
              allocationMethod := some .manual, allocations := some (textShares mapped) }, ?_, ?_⟩
    · rw [projectItem, looked, expect, ok_bind]
      dsimp only
      rw [manual]
      rw [allocationParticipants_written once, run]
      rfl
    · exact ⟨money, .inr ⟨rfl, _, rfl, manualShares_written once shares inside money.held entries⟩⟩

theorem projectAdjustment_written (raw : String) (written : WrittenFacts ctx unit members facts)
    (inside : ∀ person ∈ includedMembers members, person ∈ people) {entry : FactAdjustment}
    (member : entry ∈ (inputMaterial facts).adjustments) :
    ∃ projected, projectAdjustment (includedMembers members) raw entry = .ok projected ∧
      SoundAdjustment ctx unit people projected := by
  obtain ⟨canonical, listed, rfl⟩ := mem_map.mp member
  obtain ⟨source, sound, distinct⟩ := written.adjustments canonical listed
  have named : canonical.adjustmentType ≠ "" := by
    intro empty
    have known := sound.type
    rw [empty] at known
    exact absurd known (by decide)
  have direction : canonical.direction = .add ∨ canonical.direction = .subtract := by
    simpa [adjustmentDirections] using sound.direction
  have directed : some canonical.direction = some .add ∨ some canonical.direction = some .subtract := by
    simpa using direction
  rcases sound.shares with ⟨other, none⟩ | ⟨manual, entries, shares, stated, kept, each, sums⟩
  · refine ⟨{ type := some canonical.adjustmentType, direction := some canonical.direction
              allocationMethod := some canonical.allocationMethod
              amount := some (.text canonical.amountText), currency := some raw }, ?_,
      ⟨_, rfl, named⟩, directed, ⟨_, rfl, sound.money⟩, rfl, ?_⟩
    · rw [projectAdjustment]
      rw [require, if_pos sound.method, if_neg other, none]
      rfl
    · have method := sound.method
      simp only [adjustmentAllocationMethods, mem_cons, not_mem_nil, or_false] at method
      rcases method with same | same | same | same
      · exact .inr (.inl (congrArg some same))
      · exact .inr (.inr (.inl (congrArg some same)))
      · exact absurd same other
      · exact .inl (congrArg some same)
  · have once := includedOnce_of_written (distinct entries stated) each
    obtain ⟨mapped, run, listedShares⟩ :=
      manualShareMap_written (.adjustment canonical.adjustmentIndex) once sums
    refine ⟨{ type := some canonical.adjustmentType, direction := some canonical.direction
              allocationMethod := some canonical.allocationMethod
              amount := some (.text canonical.amountText), currency := some raw
              allocations := some (textShares mapped) }, ?_,
      ⟨_, rfl, named⟩, directed, ⟨_, rfl, sound.money⟩, rfl, .inr (.inr (.inr ⟨congrArg some manual, _, rfl, ?_⟩))⟩
    · rw [projectAdjustment]
      rw [require, if_pos sound.method, if_pos manual, kept]
      dsimp only [Option.map_some, Option.getD_some]
      rw [run]
      rfl
    · exact manualShares_written once sums inside sound.money.held listedShares

/-- Written facts map onto a calculator receipt that states them. -/
theorem buildCalculatorReceipt_written {receipt : ConvertedReceipt} (payer : String)
    (written : WrittenFacts ctx unit members facts)
    (net : AcceptedMoney ctx unit (.text receipt.netPaidAmountCanonicalText)) :
    ∃ calculatorReceipt items adjustments,
      buildCalculatorReceipt receipt.publicId receipt.merchant receipt.currency payer
        receipt.netPaidAmountCanonicalText (inputMaterial facts) (includedMembers members) = .ok calculatorReceipt ∧
      StatedReceipt ctx unit (buildParticipantList (includedMembers members) payer) payer
        calculatorReceipt items adjustments (.text receipt.netPaidAmountCanonicalText) := by
  have inside : ∀ person ∈ includedMembers members, person ∈ buildParticipantList (includedMembers members) payer :=
    fun person member => mem_buildParticipantList.mpr (.inr member)
  obtain ⟨byLine, indexed, found⟩ := allocationsByLine_written written
  obtain ⟨items, projected, count, soundItems⟩ := mapM_succeeds_with fun item member =>
    projectItem_written written inside found
      ((mem_insertionSort fun first second => first.lineNumber ≤ second.lineNumber).mp member)
  obtain ⟨adjustments, projectedToo, _, soundAdjustments⟩ := mapM_succeeds_with fun entry member =>
    projectAdjustment_written receipt.currency written inside
      ((mem_insertionSort fun first second => first.adjustmentIndex ≤ second.adjustmentIndex).mp member)
  have someItem : items ≠ [] := by
    intro empty
    rw [empty, length_insertionSort, inputMaterial, length_map] at count
    exact written.someItem (length_eq_zero_iff.mp count.symm)
  rw [buildCalculatorReceipt, projectItems, indexed, ok_bind, projected, projectAdjustments, projectedToo]
  exact ⟨_, items, adjustments, rfl, rfl, someItem, soundItems, rfl, soundAdjustments, rfl,
    mem_buildParticipantList.mpr (.inl rfl), rfl, net, rfl, ⟨rfl, rfl, rfl⟩, rfl, rfl⟩

end Mapping

/-- The facts of a payload split among the included members and the payer of the receipt. -/
def PayloadSplits (context : Context) (receipt : ReceiptRow) (payload : FactSetPayload)
    (members : Dict String Member) : Prop :=
  ∃ payer currency calculatorReceipt, payerMembers members = [payer] ∧
    normalizeCurrency (L := FieldLabel) receipt.currency = .ok currency ∧
    buildCalculatorReceipt receipt.publicId receipt.merchant receipt.currency payer
      receipt.netPaidAmountCanonicalText payload (includedMembers members) = .ok calculatorReceipt ∧
    FactsSplit context currency (buildParticipantList (includedMembers members) payer) payer
      (calculatorReceipt.items.getD []) ((calculatorReceipt.adjustments.getD []).map statedAdjustment)
      (moneyValue (.text receipt.netPaidAmountCanonicalText))

/-- The preflight accepts facts of the guarded write path exactly when they split. -/
theorem preflight_accepts_written_iff {castNumeric : String → SqliteValue} {command : FactsCommand}
    {spec : FactsSpec} {receipt : ConvertedReceipt} {rawCount : ℕ} {rows : List MembershipRow}
    {facts : CanonicalFacts} (validated : validateCommand command = .ok spec)
    (loaded : loadMembership receipt.payerParticipantId rawCount rows = .ok members)
    (accepted : requireCompleteFacts context castNumeric spec receipt members = .ok facts) :
    calculatorPreflight context receipt.toReceiptRow (inputMaterial facts) members = .ok () ↔
      PayloadSplits context receipt.toReceiptRow (inputMaterial facts) members := by
  obtain ⟨payer, payers⟩ := loadMembership_payer loaded
  obtain ⟨currency, code, net, written⟩ :=
    requireCompleteFacts_written (validateCommand_wellFormed validated) accepted
  have known (L : Type) : normalizeCurrency (L := L) receipt.currency = .ok currency :=
    code ▸ normalizeCurrency_code currency
  obtain ⟨calculatorReceipt, items, adjustments, mapped, stated⟩ :=
    buildCalculatorReceipt_written payer written net
  have nodup := nodup_buildParticipantList (nodup_includedMembers members) payer
  have split := computeExactReceiptShares_stated nodup stated
  have passes : calculatorPreflight context receipt.toReceiptRow (inputMaterial facts) members = .ok () ↔
      ∃ exact, computeExactReceiptShares context calculatorReceipt
        (buildParticipantList (includedMembers members) payer) currency = .ok exact := by
    unfold calculatorPreflight preflightShares
    simp only [payers, mapped, known, Except.mapError, ok_bind]
    cases computeExactReceiptShares context calculatorReceipt
      (buildParticipantList (includedMembers members) payer) currency with
    | ok exact => simp [pure, Except.pure]
    | error failure => simp [bind, Except.bind]
  rw [passes, split]
  constructor
  · intro holds
    refine ⟨payer, currency, calculatorReceipt, payers, known _, mapped, ?_⟩
    rw [stated.listedItems, stated.listedAdjustments]
    exact holds
  · rintro ⟨other, otherCurrency, otherReceipt, otherPayers, otherKnown, otherMapped, holds⟩
    obtain rfl := List.singleton_inj.mp (payers.symm.trans otherPayers)
    obtain rfl := Except.ok.inj ((known _).symm.trans otherKnown)
    obtain rfl := Except.ok.inj (mapped.symm.trans otherMapped)
    rw [stated.listedItems, stated.listedAdjustments] at holds
    exact holds

/-- SQLite stores a whole amount as an integer. -/
def wholeCast (text : String) : SqliteValue :=
  match decimalOf text with
  | some value => if value.den = 1 then .integer value.num else .null
  | none => .null

/-- Ana and Ben each consume one item, and a voucher is taken off in equal parts. -/
def voucherCommand (anaAmount benAmount voucher : String) : FactsCommand where
  items := [⟨1, "Soup", none, none, anaAmount, "SGD"⟩, ⟨2, "Tea", none, none, benAmount, "SGD"⟩]
  allocations := [⟨1, .equalAmount, [⟨"ana", none, none⟩]⟩, ⟨2, .equalAmount, [⟨"ben", none, none⟩]⟩]
  adjustments := [⟨1, "voucher", .subtract, .equalPerParticipant, voucher, "SGD", none, none⟩]

def cafeReceipt (netPaid : String) (mirror : ℤ) : ConvertedReceipt :=
  ⟨⟨"rcpt_1", "Cafe", "SGD", netPaid⟩, .integer mirror, some 1⟩

def cafeRows : List MembershipRow := [⟨1, .payer, 1, "ana"⟩, ⟨2, .participant, 1, "ben"⟩]

theorem preflight_accepts_written_small_voucher :
    ∃ spec members facts, validateCommand (voucherCommand "10.00" "5.00" "4.00") = .ok spec ∧
      loadMembership (cafeReceipt "11.00" 11).payerParticipantId 2 cafeRows = .ok members ∧
      requireCompleteFacts Context.standard wholeCast spec (cafeReceipt "11.00" 11) members = .ok facts ∧
      PayloadSplits Context.standard (cafeReceipt "11.00" 11).toReceiptRow (inputMaterial facts) members := by
  obtain ⟨spec, validated, members, loaded, facts, accepted, passes⟩ :
      ∃ spec, validateCommand (voucherCommand "10.00" "5.00" "4.00") = .ok spec ∧
      ∃ members, loadMembership (cafeReceipt "11.00" 11).payerParticipantId 2 cafeRows = .ok members ∧
      ∃ facts, requireCompleteFacts Context.standard wholeCast spec (cafeReceipt "11.00" 11) members = .ok facts ∧
        calculatorPreflight Context.standard (cafeReceipt "11.00" 11).toReceiptRow (inputMaterial facts) members =
          .ok () := by
    decide +kernel
  exact ⟨spec, members, facts, validated, loaded, accepted,
    (preflight_accepts_written_iff validated loaded accepted).mp passes⟩

/-- The write path accepts a voucher that is larger for Ben than what Ben consumed, and the preflight refuses it. -/
theorem written_voucher_refused :
    ∃ spec members facts, validateCommand (voucherCommand "10.00" "1.00" "5.00") = .ok spec ∧
      loadMembership (cafeReceipt "6.00" 6).payerParticipantId 2 cafeRows = .ok members ∧
      requireCompleteFacts Context.standard wholeCast spec (cafeReceipt "6.00" 6) members = .ok facts ∧
      calculatorPreflight Context.standard (cafeReceipt "6.00" 6).toReceiptRow (inputMaterial facts) members =
        .error (.precondition (.negativeExactShare "Cafe" "ben" (-3 / 2))) := by
  obtain ⟨spec, validated, members, loaded, facts, accepted, refused⟩ :
      ∃ spec, validateCommand (voucherCommand "10.00" "1.00" "5.00") = .ok spec ∧
      ∃ members, loadMembership (cafeReceipt "6.00" 6).payerParticipantId 2 cafeRows = .ok members ∧
      ∃ facts, requireCompleteFacts Context.standard wholeCast spec (cafeReceipt "6.00" 6) members = .ok facts ∧
        calculatorPreflight Context.standard (cafeReceipt "6.00" 6).toReceiptRow (inputMaterial facts) members =
          .error (.precondition (.negativeExactShare "Cafe" "ben" (-3 / 2))) := by
    decide +kernel
  exact ⟨spec, members, facts, validated, loaded, accepted, refused⟩

end FinanceCore.ParserProposals

import FinanceCore.ParserProposals.WriterGap

namespace FinanceCore.ParserProposals

open Calculators Decimal Exceptions Money Text List

variable {context : Context} {castNumeric : String → SqliteValue} {currency : Currency}

/-- Stripped text that is not empty has a visible character. -/
theorem strip_not_blank {text : String} (nonempty : strip text ≠ "") : ¬ isBlank (strip text) := by
  intro blank
  have kept : stripChars text.toList ≠ [] := by
    intro empty
    exact nonempty (by rw [strip, empty])
  have last := rdropWhile_last_not isSpace (text.toList.dropWhile isSpace) kept
  rw [strip, isBlank, String.toList_ofList, all_eq_true] at blank
  exact last (blank _ (getLast_mem kept))

theorem sort_eq_of_perm {first second : List ℤ} (perm : first.Perm second) :
    first.insertionSort (· ≤ ·) = second.insertionSort (· ≤ ·) := by
  refine Perm.eq_of_pairwise' (pairwise_insertionSort _ _) (pairwise_insertionSort _ _) ?_
  exact (perm_insertionSort _ _).trans (perm.trans (perm_insertionSort _ _).symm)

/-- A validated item has a visible name and a canonical quantity. -/
def ReadableItem (item : SpecItem) : Prop :=
  ¬ isBlank item.itemName ∧ ∀ quantity ∈ item.quantityText, quantityText quantity

theorem validateItem_readable {entry : ItemEntry} {item : SpecItem}
    (run : validateItem entry = .ok item) :
    ReadableItem item := by
  simp only [validateItem, bind_ok, pure_ok, require_ok] at run
  obtain ⟨_, _, _, named, _, _, quantity, counted, price, _, amount, _, _, _, rfl⟩ := run
  refine ⟨strip_not_blank named, fun text member => ?_⟩
  cases stated : entry.quantity with
  | none =>
    rw [stated] at counted
    obtain rfl := Except.ok.inj counted
    cases member
  | some input =>
    rw [stated] at counted
    cases input with
    | integer value =>
      obtain ⟨_, checked, counted⟩ := bind_ok.mp counted
      obtain rfl := pure_ok.mp counted
      obtain rfl := Option.mem_some_iff.mp member
      exact (require_ok.mp checked).2
    | text value =>
      obtain ⟨_, checked, counted⟩ := bind_ok.mp counted
      obtain rfl := pure_ok.mp counted
      obtain rfl := Option.mem_some_iff.mp member
      exact require_ok.mp checked

theorem validateItems_readable {items : List ItemEntry} {validated : List SpecItem}
    (run : validateItems items = .ok validated) :
    (∀ item ∈ validated, ReadableItem item) ∧
      (validated.map SpecItem.lineNumber).insertionSort (· ≤ ·) = lineRange validated.length := by
  simp only [validateItems, bind_ok, pure_ok, require_ok] at run
  obtain ⟨_, _, _, _, unsorted, checked, _, contiguous, rfl⟩ := run
  have sorted := perm_insertionSort (fun first second : SpecItem => first.lineNumber ≤ second.lineNumber) unsorted
  constructor
  · intro item member
    exact forall_mem_of_mapM (fun _ _ => validateItem_readable) checked item (sorted.mem_iff.mp member)
  · rw [sorted.length_eq, ← contiguous]
    exact sort_eq_of_perm (sorted.map _)

theorem validateAdjustments_contiguous {adjustments : List AdjustmentEntry}
    {validated : List SpecAdjustment} (run : validateAdjustments adjustments = .ok validated) :
    (validated.map SpecAdjustment.adjustmentIndex).insertionSort (· ≤ ·) = lineRange validated.length := by
  simp only [validateAdjustments, bind_ok, pure_ok, require_ok] at run
  obtain ⟨_, _, unsorted, _, _, contiguous, rfl⟩ := run
  have sorted := perm_insertionSort
    (fun first second : SpecAdjustment => first.adjustmentIndex ≤ second.adjustmentIndex) unsorted
  rw [sorted.length_eq, ← contiguous]
  exact sort_eq_of_perm (sorted.map _)

theorem validateAllocations_known {allocations : List AllocationEntry} {items : List SpecItem}
    {validated : List SpecAllocation} (run : validateAllocations allocations items = .ok validated) :
    ∀ allocation ∈ validated, allocation.lineNumber ∈ items.map SpecItem.lineNumber := by
  obtain ⟨byLine, folded, run⟩ := bind_ok.mp run
  obtain ⟨_, _, run⟩ := bind_ok.mp run
  obtain rfl := pure_ok.mp run
  have known : byLine.All fun allocation => allocation.lineNumber ∈ items.map SpecItem.lineNumber := by
    refine foldlM_invariant (Dict.All fun allocation => allocation.lineNumber ∈ items.map SpecItem.lineNumber)
      (fun state entry next _ all step => ?_) ?_ folded
    · obtain ⟨_, inside, step⟩ := bind_ok.mp step
      obtain ⟨_, _, step⟩ := bind_ok.mp step
      split at step
      · cases step
      · obtain ⟨people, _, step⟩ := bind_ok.mp step
        obtain rfl := pure_ok.mp step
        exact all.set (require_ok.mp inside) entry.lineNumber
    · intro line allocation found
      cases found
  intro allocation member
  exact known.mem_values ((perm_insertionSort _ _).mem_iff.mp member)

section Amounts

variable {receiptCurrency : String} (code : currency.code = receiptCurrency)

include code

/-- The reader accepts every text that the writer made canonical, with the same amount. -/
theorem requireCanonicalPositiveAmount_written {raw : String} {label : FactLabel}
    {amount : ℚ × String}
    (run : canonicalAmount context castNumeric raw currency label = .ok amount)
    (readLabel : FactLabel) :
    requireCanonicalPositiveAmount context receiptCurrency (some amount.2) readLabel = .ok amount.1 := by
  simp only [canonicalAmount, bind_ok, pure_ok] at run
  obtain ⟨number, _, _, held, _, positive, text, written, exact, read, _, _, rfl⟩ := run
  have held := validateAmountForCurrency_ok.mp (mapError_ok.mp held)
  have positive := require_ok.mp positive
  have read := mapError_ok.mp read
  have written := mapError_ok.mp written
  obtain ⟨same, _⟩ := value_of_canonicalMoneyStr held written read
  have sign : exact.negative = number.negative := Number.negative_of_value same (same ▸ positive.ne')
  have again : canonicalMoneyStr (L := FactLabel) context exact currency = .ok text := by
    rw [← written, canonicalMoneyStr, canonicalMoneyStr, same, sign]
  have valid : validateAmountForCurrency context exact.value currency readLabel = .ok () :=
    validateAmountForCurrency_ok.mpr (same ▸ held)
  subst code
  simp only [requireCanonicalPositiveAmount, expect, ok_bind, moneyDecimal_relabel read readLabel, Except.mapError,
    normalizeCurrency_code, valid, require, if_pos (show 0 < exact.value from same ▸ positive), again, if_true]
  rfl

/-- The reader checks the quantity against the same unit price. -/
theorem verifyItem_written {state next : List CanonicalItem × Dict ℤ ℚ} {entry : SpecItem}
    (readable : ReadableItem entry) (fresh : entry.lineNumber ∉ state.2.keys)
    (step : completeItem context castNumeric receiptCurrency state entry = .ok next) :
    ∃ item amount, next = (state.1 ++ [item], state.2.set entry.lineNumber amount) ∧
      verifyItem context receiptCurrency state.2
        ⟨item.lineNumber, item.itemName, item.quantityText, item.unitPriceText, item.lineAmountText⟩ =
          .ok (state.2.set entry.lineNumber amount) := by
  simp only [completeItem, bind_ok, pure_ok] at step
  obtain ⟨declared, _, lineAmount, written, _, same, price, priced, _, counted, rfl⟩ := step
  obtain rfl := declared_eq code same
  refine ⟨_, lineAmount.1, rfl, ?_⟩
  have amount := requireCanonicalPositiveAmount_written code written (.lineAmount entry.lineNumber)
  unfold verifyItem
  dsimp only
  rw [require, if_pos fresh, ok_bind, require, if_pos readable.1, ok_bind, amount, ok_bind, require,
    if_pos readable.2, ok_bind]
  cases stated : entry.unitPriceRaw with
  | none =>
    rw [stated] at priced
    obtain rfl := Except.ok.inj priced
    rfl
  | some raw =>
    rw [stated] at priced
    obtain ⟨unitPrice, made, rfl⟩ := map_ok.mp priced
    have unitAmount := requireCanonicalPositiveAmount_written code made (.unitPrice entry.lineNumber)
    dsimp only [Option.map_some]
    rw [unitAmount, ok_bind]
    cases quantity : entry.quantityText with
    | none => rfl
    | some text =>
      rw [quantity] at counted
      obtain ⟨count, parsed, counted⟩ := bind_ok.mp counted
      dsimp only
      rw [expect_ok.mp parsed, expect, ok_bind, require, if_pos (require_ok.mp counted)]
      rfl

/-- The payload entry of a canonical item. -/
def materialItem (item : CanonicalItem) : FactItem :=
  ⟨item.lineNumber, item.itemName, item.quantityText, item.unitPriceText, item.lineAmountText⟩

/-- The reader's item loop rebuilds the line amounts of the writer. -/
theorem verifyItems_written {entries : List SpecItem} {final : List CanonicalItem × Dict ℤ ℚ}
    (readable : ∀ entry ∈ entries, ReadableItem entry) (lines : (entries.map SpecItem.lineNumber).Nodup)
    (run : entries.foldlM (completeItem context castNumeric receiptCurrency) ([], Dict.empty) = .ok final) :
    final.2.keys = entries.map SpecItem.lineNumber ∧ final.1.length = entries.length ∧
      (final.1.map materialItem).foldlM (verifyItem context receiptCurrency) Dict.empty = .ok final.2 := by
  refine foldlM_visited (fun before state => state.2.keys = before.map SpecItem.lineNumber ∧
      state.1.length = before.length ∧
      (state.1.map materialItem).foldlM (verifyItem context receiptCurrency) Dict.empty = .ok state.2)
    (fun before entry after state next same held step => ?_) ⟨rfl, rfl, rfl⟩ run
  obtain ⟨keys, length, shadow⟩ := held
  have fresh : entry.lineNumber ∉ state.2.keys := by
    rw [keys]
    intro member
    rw [same, map_append] at lines
    exact (nodup_append.mp lines).2.2 _ member _ (by simp) rfl
  obtain ⟨item, amount, rfl, verified⟩ := verifyItem_written code (readable entry (by simp [same])) fresh step
  refine ⟨?_, by simp [length], ?_⟩
  · rw [Dict.keys_set, if_neg fresh, keys, map_append]
    rfl
  · rw [map_append, foldlM_append, shadow, ok_bind, map_singleton, foldlM_cons]
    rw [materialItem, verified]
    rfl

variable {members : Dict String Member} {lineAmounts : Dict ℤ ℚ}

section Shares

variable {owner : FactOwner} {manual : Bool} {entry : SpecParticipant} {state next : ShareState}

variable (context receiptCurrency members owner manual entry state next) in
/-- The reader accepts the share that a step of the writer appends, with the sum of the writer. -/
def ReadsShare : Prop :=
  ∃ share, next.1 = state.1 ++ [share] ∧ ∀ seen, entry.participantPublicId ∉ seen →
    verifyParticipant context receiptCurrency (includedMembers members) owner manual (seen, state.2)
      (materialParticipant share) = .ok (seen ++ [entry.participantPublicId], next.2)

omit code in
theorem completeEqualParticipant_reads (step : completeEqualParticipant members owner state entry = .ok next) :
    ReadsShare context receiptCurrency members owner false entry state next := by
  simp only [completeEqualParticipant, bind_ok, pure_ok] at step
  obtain ⟨id, resolved, _, _, rfl⟩ := step
  exact ⟨_, rfl, fun seen fresh => bind_ok.mpr ⟨(), require_ok.mpr fresh,
    bind_ok.mpr ⟨(), require_ok.mpr (mem_included_of_resolve resolved), rfl⟩⟩⟩

theorem completeManualParticipant_reads
    (step : completeManualParticipant context castNumeric receiptCurrency members owner state entry = .ok next) :
    ReadsShare context receiptCurrency members owner true entry state next := by
  simp only [completeManualParticipant, bind_ok, pure_ok] at step
  obtain ⟨id, resolved, shareRaw, _, currencyRaw, _, share, explicit, rfl⟩ := step
  obtain ⟨declared, _, explicit⟩ := bind_ok.mp explicit
  iterate 4 obtain ⟨_, _, explicit⟩ := bind_ok.mp explicit
  obtain ⟨_, declaredSame, explicit⟩ := bind_ok.mp explicit
  obtain rfl := declared_eq code declaredSame
  have amount := requireCanonicalPositiveAmount_written code explicit (.share owner entry.participantPublicId)
  exact ⟨_, rfl, fun seen fresh => bind_ok.mpr ⟨(), require_ok.mpr fresh, bind_ok.mpr
    ⟨(), require_ok.mpr (mem_included_of_resolve resolved), bind_ok.mpr ⟨share.1, amount, rfl⟩⟩⟩⟩

omit code in
/-- The reader adds the shares in the order of the writer. -/
theorem verifyParticipants_written {complete : ShareState → SpecParticipant → Except FactsError ShareState}
    {entries : List SpecParticipant} {final : ShareState}
    (reads : ∀ {entry state next}, complete state entry = .ok next →
      ReadsShare context receiptCurrency members owner manual entry state next)
    (distinct : (entries.map SpecParticipant.participantPublicId).Nodup)
    (run : entries.foldlM complete ([], 0) = .ok final) :
    final.1.length = entries.length ∧ (final.1.map materialParticipant).foldlM
        (verifyParticipant context receiptCurrency (includedMembers members) owner manual) ([], 0) =
      .ok (entries.map SpecParticipant.participantPublicId, final.2) := by
  refine foldlM_visited (fun before state => state.1.length = before.length ∧ (state.1.map materialParticipant).foldlM
        (verifyParticipant context receiptCurrency (includedMembers members) owner manual) ([], 0) =
      .ok (before.map SpecParticipant.participantPublicId, state.2))
    (fun before entry after state next same held step => ?_) ⟨rfl, rfl⟩ run
  have fresh : entry.participantPublicId ∉ before.map SpecParticipant.participantPublicId := by
    intro member
    rw [same, map_append] at distinct
    exact (nodup_append.mp distinct).2.2 _ member _ (by simp) rfl
  obtain ⟨share, appended, verified⟩ := reads step
  refine ⟨by simp [appended, held.1], ?_⟩
  rw [appended, map_append, foldlM_append, held.2, ok_bind, map_singleton, foldlM_cons, verified _ fresh, map_append]
  rfl

end Shares

omit code in
theorem material_ne_nil {entries : List SpecParticipant} {shares : List CanonicalShare}
    (someone : entries ≠ [])
    (length : shares.length = entries.length) : shares.map materialParticipant ≠ [] := by
  intro empty
  rw [map_eq_nil_iff.mp empty] at length
  exact someone (length_eq_zero_iff.mp length.symm)

/-- The payload entry of a canonical allocation. -/
def materialAllocation (entry : CanonicalAllocation) : FactAllocation :=
  ⟨entry.lineNumber, entry.allocationMethod, entry.participants.map materialParticipant⟩

theorem verifyAllocation_written {entry : SpecAllocation}
    {allocation : CanonicalAllocation} {state : ℕ × List ℤ}
    (distinct : DistinctParticipants entry.participants)
    (known : entry.lineNumber ∈ lineAmounts.keys) (fresh : entry.lineNumber ∉ state.2)
    (run : completeAllocation context castNumeric receiptCurrency members lineAmounts entry = .ok allocation) :
    ∃ count, verifyAllocation context receiptCurrency (includedMembers members) lineAmounts state
      (materialAllocation allocation) = .ok (count, state.2 ++ [entry.lineNumber]) := by
  obtain ⟨amount, found⟩ := Option.isSome_iff_exists.mp (Dict.get?_isSome.mpr known)
  unfold completeAllocation at run
  split at run
  · cases run
  · obtain ⟨shares, folded, run⟩ := bind_ok.mp run
    obtain rfl := pure_ok.mp run
    obtain ⟨length, checked⟩ := verifyParticipants_written completeEqualParticipant_reads distinct.2 folded
    refine ⟨_, bind_ok.mpr ⟨amount, expect_ok.mpr found, bind_ok.mpr ⟨(), require_ok.mpr fresh,
      bind_ok.mpr ⟨false, rfl, bind_ok.mpr ⟨(), require_ok.mpr ?_, bind_ok.mpr
        ⟨_, checked, bind_ok.mpr ⟨(), require_ok.mpr ?_, rfl⟩⟩⟩⟩⟩⟩⟩
    · exact material_ne_nil distinct.1 length
    · exact fun manual => absurd manual Bool.false_ne_true
  · simp only [bind_ok, pure_ok, require_ok, expect_ok] at run
    obtain ⟨shares, folded, lineAmount, looked, _, same, rfl⟩ := run
    obtain rfl := Option.some.inj (found.symm.trans looked)
    obtain ⟨length, checked⟩ := verifyParticipants_written (completeManualParticipant_reads code) distinct.2 folded
    refine ⟨_, bind_ok.mpr ⟨amount, expect_ok.mpr found, bind_ok.mpr ⟨(), require_ok.mpr fresh,
      bind_ok.mpr ⟨true, rfl, bind_ok.mpr ⟨(), require_ok.mpr ?_, bind_ok.mpr
        ⟨_, checked, bind_ok.mpr ⟨(), require_ok.mpr ?_, rfl⟩⟩⟩⟩⟩⟩⟩
    · exact material_ne_nil distinct.1 length
    · exact fun _ => same

/-- The reader's allocation loop covers the lines of the allocations in order. -/
theorem verifyAllocations_written {entries : List SpecAllocation}
    {allocations : List CanonicalAllocation}
    (distinct : ∀ entry ∈ entries, DistinctParticipants entry.participants)
    (known : ∀ entry ∈ entries, entry.lineNumber ∈ lineAmounts.keys)
    (run : Forall₂ (fun entry allocation =>
      completeAllocation context castNumeric receiptCurrency members lineAmounts entry = .ok allocation)
      entries allocations) (state : ℕ × List ℤ)
    (fresh : (state.2 ++ entries.map SpecAllocation.lineNumber).Nodup) :
    ∃ count, (allocations.map materialAllocation).foldlM
      (verifyAllocation context receiptCurrency (includedMembers members) lineAmounts) state =
        .ok (count, state.2 ++ entries.map SpecAllocation.lineNumber) := by
  induction run generalizing state with
  | nil => exact ⟨state.1, by simp [pure, Except.pure]⟩
  | cons first rest ih =>
    rename_i entry allocation entries allocations
    have new : entry.lineNumber ∉ state.2 := by
      intro member
      exact (nodup_append.mp fresh).2.2 _ member _ (by simp) rfl
    obtain ⟨count, verified⟩ := verifyAllocation_written code (distinct entry (by simp)) (known entry (by simp))
      new first
    obtain ⟨total, later⟩ := ih (fun next member => distinct next (by simp [member]))
      (fun next member => known next (by simp [member])) (count, state.2 ++ [entry.lineNumber])
      (by simpa using fresh)
    refine ⟨total, ?_⟩
    exact bind_ok.mpr ⟨_, verified, by simpa using later⟩

/-- The payload entry of a canonical adjustment. -/
def materialAdjustment (entry : CanonicalAdjustment) : FactAdjustment :=
  ⟨entry.adjustmentIndex, entry.adjustmentType, entry.direction, entry.allocationMethod, entry.amountText,
    entry.participants.map fun shares => shares.map materialParticipant⟩

/-- The totals that the reader keeps after the adjustments of the writer. -/
def readTotals (before : List SpecAdjustment) (state : AdjustmentState) : AdjustmentTotals :=
  ⟨state.addTotal, state.subtractTotal, before.map SpecAdjustment.adjustmentIndex⟩

theorem verifyAdjustment_written {before : List SpecAdjustment} {state next : AdjustmentState}
    {entry : SpecAdjustment}
    (distinct : ∀ people, entry.participants = some people → DistinctParticipants people)
    (step : completeAdjustment context castNumeric receiptCurrency members state entry = .ok next) :
    ∃ adjustment, next.adjustments = state.adjustments ++ [adjustment] ∧
      verifyAdjustment context receiptCurrency (includedMembers members) (readTotals before state)
        (materialAdjustment adjustment) = .ok (readTotals (before ++ [entry]) next) := by
  simp only [completeAdjustment, bind_ok, require_ok] at step
  obtain ⟨_, type, _, direction, _, method, declared, _, amount, written, _, same, people, shared, step⟩ := step
  obtain rfl := declared_eq code same
  have read := requireCanonicalPositiveAmount_written code written (.adjustmentAmount entry.adjustmentIndex)
  refine ⟨⟨entry.adjustmentIndex, entry.adjustmentType, entry.direction, amount.2, entry.allocationMethod,
    entry.description, people⟩, ?_, ?_⟩
  · split_ifs at step
    · obtain rfl := pure_ok.mp step
      rfl
    · obtain rfl := pure_ok.mp step
      rfl
  · refine bind_ok.mpr ⟨(), require_ok.mpr type, bind_ok.mpr
      ⟨(), require_ok.mpr direction, bind_ok.mpr ⟨(), require_ok.mpr method, bind_ok.mpr ⟨amount.1, read, ?_⟩⟩⟩⟩
    have totals : (if entry.direction = .add then
        pure ⟨context.add state.addTotal amount.1, state.subtractTotal,
          before.map SpecAdjustment.adjustmentIndex ++ [entry.adjustmentIndex]⟩
      else
        pure ⟨state.addTotal, context.add state.subtractTotal amount.1,
          before.map SpecAdjustment.adjustmentIndex ++ [entry.adjustmentIndex]⟩) =
        (.ok (readTotals (before ++ [entry]) next) : Except ReadinessError AdjustmentTotals) := by
      rw [readTotals, map_append]
      split_ifs at step ⊢
      · obtain rfl := pure_ok.mp step
        rfl
      · obtain rfl := pure_ok.mp step
        rfl
    unfold completeAdjustmentShares at shared
    by_cases manual : entry.allocationMethod = .manual
    · rw [if_pos manual] at shared
      simp only [bind_ok, pure_ok, require_ok, expect_ok] at shared
      obtain ⟨listed, stated, shares, folded, _, reconciled, rfl⟩ := shared
      have distinct := distinct listed stated
      obtain ⟨length, checked⟩ := verifyParticipants_written (completeManualParticipant_reads code) distinct.2 folded
      refine (if_pos manual).trans (bind_ok.mpr ⟨(), require_ok.mpr (material_ne_nil distinct.1 length), ?_⟩)
      exact bind_ok.mpr ⟨_, checked, bind_ok.mpr ⟨(), require_ok.mpr reconciled, totals⟩⟩
    · rw [if_neg manual] at shared
      obtain ⟨_, _, shared⟩ := bind_ok.mp shared
      obtain rfl := pure_ok.mp shared
      exact (if_neg manual).trans (bind_ok.mpr ⟨(), require_ok.mpr rfl, totals⟩)

/-- The reader's adjustment loop reaches the totals of the writer. -/
theorem verifyAdjustments_written {entries : List SpecAdjustment} {final : AdjustmentState}
    (distinct : ∀ entry ∈ entries, ∀ people, entry.participants = some people → DistinctParticipants people)
    (run : entries.foldlM (completeAdjustment context castNumeric receiptCurrency members) ⟨[], 0, 0⟩ = .ok final) :
    (final.adjustments.map materialAdjustment).foldlM
      (verifyAdjustment context receiptCurrency (includedMembers members)) ⟨0, 0, []⟩ =
        .ok (readTotals entries final) := by
  refine foldlM_visited (fun before state => (state.adjustments.map materialAdjustment).foldlM
      (verifyAdjustment context receiptCurrency (includedMembers members)) ⟨0, 0, []⟩ = .ok (readTotals before state))
    (fun before entry after state next same held step => ?_) rfl run
  obtain ⟨adjustment, appended, verified⟩ := verifyAdjustment_written code (distinct entry (by simp [same])) step
  rw [appended, map_append, foldlM_append, held, ok_bind]
  exact bind_ok.mpr ⟨_, verified, rfl⟩

end Amounts

/-- The reader accepts the payload of every fact set that the writer accepts. -/
theorem verifyFactSetContent_accepts_written {command : FactsCommand} {spec : FactsSpec}
    {receipt : ConvertedReceipt} {members : Dict String Member} {facts : CanonicalFacts}
    (validated : validateCommand command = .ok spec)
    (accepted : requireCompleteFacts context castNumeric spec receipt members = .ok facts) :
    ∃ counts, verifyFactSetContent context (inputMaterial facts) receipt.toReceiptRow members = .ok counts := by
  have wellFormed := validateCommand_wellFormed validated
  simp only [validateCommand, bind_ok, pure_ok] at validated
  obtain ⟨items, listed, allocations, allocated, adjustments, adjusted, rfl⟩ := validated
  simp only [requireCompleteFacts, bind_ok, pure_ok, require_ok, mapError_ok] at accepted
  obtain ⟨_, integrity, netPaid, net, writtenItems, completed, writtenAllocations, each, totals, folded, _,
    reconciled, rfl⟩ := accepted
  obtain ⟨currency, code, _⟩ := requireReceiptMonetaryIntegrity_sound integrity
  obtain ⟨readable, lines⟩ := validateItems_readable listed
  obtain ⟨keys, length, itemsRead⟩ := verifyItems_written code readable wellFormed.itemLines completed
  have known : ∀ entry ∈ allocations, entry.lineNumber ∈ writtenItems.2.keys := by
    rw [keys]
    exact validateAllocations_known allocated
  obtain ⟨count, allocationsRead⟩ := verifyAllocations_written code wellFormed.allocated known (mapM_ok.mp each)
    (0, []) wellFormed.allocationLines
  have adjustmentsRead := verifyAdjustments_written code wellFormed.adjusted folded
  have contiguous := validateAdjustments_contiguous adjusted
  refine ⟨_, bind_ok.mpr ⟨(), require_ok.mpr ⟨rfl, rfl⟩, bind_ok.mpr ⟨(), require_ok.mpr ?_, bind_ok.mpr
    ⟨_, itemsRead, bind_ok.mpr ⟨(), require_ok.mpr ?_, bind_ok.mpr ⟨_, allocationsRead, bind_ok.mpr
      ⟨(), require_ok.mpr ?_, bind_ok.mpr ⟨_, adjustmentsRead, bind_ok.mpr ⟨(), require_ok.mpr ?_,
        bind_ok.mpr ⟨netPaid, mapError_ok.mpr net, bind_ok.mpr ⟨(), require_ok.mpr reconciled, rfl⟩⟩⟩⟩⟩⟩⟩⟩⟩⟩⟩
  · intro empty
    have none : writtenItems.1 = [] := List.map_eq_nil_iff.mp empty
    rw [none] at length
    exact wellFormed.someItem (List.length_eq_zero_iff.mp length.symm)
  · rw [keys, lines, inputMaterial, List.length_map, length]
  · constructor
    · exact forall_mem_map.mpr known
    · intro line member
      rw [keys] at member
      obtain ⟨item, inside, rfl⟩ := List.mem_map.mp member
      exact wellFormed.covered item inside
  · rw [readTotals, contiguous, List.length_map]

/-- Ana takes three dollars of the soup and Ben seven, the tea is shared, and Ben pays the service charge. -/
def sharedMealCommand : FactsCommand where
  items := [⟨2, "Tea", none, none, "5.00", "SGD"⟩, ⟨1, " Soup ", some (.text "2"), some "5.00", "10.00", "SGD"⟩]
  allocations := [⟨2, .equalAmount, [⟨"ana", none, none⟩, ⟨"ben", none, none⟩]⟩,
    ⟨1, .manual, [⟨"ana", some "3.00", some "SGD"⟩, ⟨"ben", some "7.00", some "SGD"⟩]⟩]
  adjustments := [⟨1, "service_charge", .add, .manual, "1.00", "SGD", none,
    some [⟨"ben", some "1.00", some "SGD"⟩]⟩]

theorem verifyFactSetContent_accepts_shared_meal :
    ∃ spec members facts counts, validateCommand sharedMealCommand = .ok spec ∧
      loadMembership (cafeReceipt "16.00" 16).payerParticipantId 2 cafeRows = .ok members ∧
      requireCompleteFacts Context.standard wholeCast spec (cafeReceipt "16.00" 16) members = .ok facts ∧
      verifyFactSetContent Context.standard (inputMaterial facts) (cafeReceipt "16.00" 16).toReceiptRow members =
        .ok counts := by
  obtain ⟨spec, validated, members, loaded, facts, accepted⟩ : ∃ spec, validateCommand sharedMealCommand = .ok spec ∧
      ∃ members, loadMembership (cafeReceipt "16.00" 16).payerParticipantId 2 cafeRows = .ok members ∧
      ∃ facts, requireCompleteFacts Context.standard wholeCast spec (cafeReceipt "16.00" 16) members = .ok facts := by
    decide +kernel
  obtain ⟨counts, verified⟩ := verifyFactSetContent_accepts_written validated accepted
  exact ⟨spec, members, facts, counts, validated, loaded, accepted, verified⟩

end FinanceCore.ParserProposals

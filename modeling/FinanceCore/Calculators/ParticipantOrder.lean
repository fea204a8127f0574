import FinanceCore.Calculators.ReceiptSplit

namespace FinanceCore.Calculators

open Decimal Exceptions Money Settlement List Context
open Dict (Agree)

section Order

variable {people permuted : List String} {unit : Currency}

variable (perm : people.Perm permuted)

include perm in
theorem emptyShares_agree : Agree (emptyShares people) (emptyShares permuted) := by
  intro key
  simp only [emptyShares, Dict.get?_fromKeys, perm.mem_iff]

variable {shares others matched : Dict String ℚ} {floors : Dict String ℤ} {payers : List String}

variable (agree : Agree shares others) {allocations others' : Dict String ℚ}

include agree in
theorem sum_agree : unlimited.sumFrom 0 shares.values = unlimited.sumFrom 0 others.values := by
  rw [sumFrom_unlimited, sumFrom_unlimited, agree.values_perm.sum_eq]

include agree in
theorem manualAllocations_agree {label : String → FieldLabel} {manual : Dict String RawMoney} :
    Carries Agree (manualAllocations .unlimited unit label shares manual)
      (manualAllocations .unlimited unit label others manual) := by
  refine Carries.foldlM (fun entry _ state matched held => ?_) agree
  refine (Carries.require (held.mem_keys entry.1).mp).bind fun _ _ _ => ?_
  refine Carries.rfl.bind fun amount same equal => ?_
  subst equal
  exact Carries.ok (held.set entry.1 amount)

include perm in
theorem itemAllocations_agree (item : Item) (amount : ℚ) (method : ItemMethod) (label : String) :
    Carries Agree (itemAllocations .unlimited item amount method people label unit)
      (itemAllocations .unlimited item amount method permuted label unit) := by
  have empty := emptyShares_agree perm
  have equally : Carries Agree (itemAllocations .unlimited item amount .equal people label unit)
      (itemAllocations .unlimited item amount .equal permuted label unit) := by
    refine (Carries.require id).bind fun _ _ _ => (Carries.require id).bind fun _ _ _ => ?_
    refine Carries.foldlM (fun person _ state matched held => ?_) empty
    exact Carries.expect fun result done => held.modify? person _ done
  cases method with
  | equal => exact equally
  | equalAmongConsumers => exact equally
  | manual =>
    refine Carries.rfl.bind fun manual same equal => ?_
    subst equal
    refine (manualAllocations_agree empty).bind fun shares others agree => ?_
    exact (Carries.require fun sum => (sum_agree agree).symm.trans sum).bind fun _ _ _ => Carries.ok agree
  | unsupported name =>
    intro result run
    cases run

include agree in
theorem addAllocations_agree (same : Agree allocations others') :
    Carries Agree (addAllocations .unlimited shares allocations) (addAllocations .unlimited others others') :=
  Agree.foldlM_modify (fun amount share => unlimited.add share amount)
    (fun entry => SplitError.missingKey entry.1) agree same

variable (receipt : Receipt) {paid paidToo : Dict String ℚ} {remainders : Dict String ℚ} {listed : List String}
  {caseData : CaseData}

include perm in
/-- The item shares agree. -/
theorem itemShares_agree :
    Carries (fun first second => Agree first.1 second.1) (itemShares .unlimited receipt people unit)
      (itemShares .unlimited receipt permuted unit) := by
  refine Carries.rfl.bind fun items same equal => ?_
  subst equal
  refine Carries.foldlM (fun item _ state matched held => ?_) (emptyShares_agree perm)
  refine Carries.rfl.bind fun amount same equal => ?_
  subst equal
  refine (itemAllocations_agree perm item amount _ _).bind fun allocations others agree => ?_
  exact (addAllocations_agree held agree).bind fun shares others agree => Carries.ok agree

include agree in
theorem proportionalAllocations_agree {amount : ℚ} :
    Carries Agree (proportionalAllocations .unlimited amount shares)
      (proportionalAllocations .unlimited amount others) := by
  unfold proportionalAllocations
  rw [sum_agree agree]
  exact (Carries.require id).bind fun _ _ _ => Carries.ok (agree.map _)

include perm in
theorem activeAdjustmentParticipants_perm (explicit : Option (List String))
    (agree : Agree shares others) :
    Carries Perm (activeAdjustmentParticipants explicit shares people)
      (activeAdjustmentParticipants explicit others permuted) := by
  have derived : Carries Perm (activeAdjustmentParticipants none shares people)
      (activeAdjustmentParticipants none others permuted) := by
    have lookup : (fun person => (person, ·) <$>
        expect (shares.get? person) (SplitError.missingKey person)) =
          fun person => (person, ·) <$> expect (others.get? person) (SplitError.missingKey person) := by
      funext person
      rw [agree person]
    unfold activeAdjustmentParticipants
    rw [lookup]
    refine (Carries.mapM_perm perm).bind fun entries matched held => ?_
    have active := (held.filter fun entry => entry.2 ≠ 0).map Prod.fst
    refine (Carries.require fun nonempty empty => nonempty ?_).bind fun _ _ _ => Carries.ok active
    rw [empty] at active
    exact perm_nil.mp active
  match explicit with
  | none => exact derived
  | some [] => exact derived
  | some (head :: rest) =>
    refine (Carries.forM_subset (List.Subset.refl _) fun person _ =>
      Carries.require (agree.mem_keys person).mp).bind fun _ _ _ => ?_
    exact Carries.ok (Perm.refl _)

include perm in
/-- The allocations of an adjustment agree. -/
theorem adjustmentAllocations_agree (adjustment : NormalizedAdjustment) (paidBy : Option String)
    {items current : Dict String ℚ} (agree : Agree items others) (same : Agree current matched) :
    Carries Agree (adjustmentAllocations .unlimited adjustment paidBy items current people unit)
      (adjustmentAllocations .unlimited adjustment paidBy others matched permuted unit) := by
  have empty := emptyShares_agree perm
  unfold adjustmentAllocations
  split_ifs with manual zero
  · refine Carries.rfl.bind fun allocations same equal => ?_
    subst equal
    refine (manualAllocations_agree empty).bind fun shares others agree => ?_
    exact (Carries.require fun sum => (sum_agree agree).symm.trans sum).bind fun _ _ _ => Carries.ok agree
  · exact Carries.ok empty
  · match adjustment.allocationMethod with
    | none =>
      intro result run
      cases run
    | some .payerOnly =>
      refine Carries.rfl.bind fun payer same equal => ?_
      subst equal
      exact Carries.ok (empty.set payer adjustment.amount)
    | some .equalPerParticipant =>
      refine (activeAdjustmentParticipants_perm perm _ same).bind fun active others perm => ?_
      refine (Carries.require perm.nodup_iff.mp).bind fun _ _ _ => ?_
      rw [perm.length_eq]
      refine Carries.ok fun key => ?_
      rw [Dict.foldl_set, Dict.foldl_set, empty key]
      simp only [perm.mem_iff]
    | some .proportionalByItemAmount => exact proportionalAllocations_agree agree
    | some .proportionalByNetAmount => exact proportionalAllocations_agree same
    | some .manual => exact Carries.ok empty
    | some (.unsupported name) =>
      intro result run
      cases run

theorem applyAllocations_agree (direction : Direction)
    (agree : Agree shares others) (same : Agree allocations others') :
    Carries Agree (applyAllocations .unlimited direction shares allocations)
      (applyAllocations .unlimited direction others others') := by
  have added := Agree.foldlM_modify (fun amount share => unlimited.add share amount)
    (fun entry => SplitError.missingKey entry.1) agree same
  have subtracted := Agree.foldlM_modify (fun amount share => unlimited.sub share amount)
    (fun entry => SplitError.missingKey entry.1) agree same
  cases direction with
  | add => exact added
  | charge => exact added
  | subtract => exact subtracted
  | discount => exact subtracted
  | unsupported name =>
    have perm := same.entries_perm
    unfold applyAllocations
    cases listed : allocations.entries with
    | nil =>
      rw [listed] at perm
      rw [nil_perm.mp perm]
      exact Carries.ok agree
    | cons head rest =>
      intro result run
      cases run

include perm in
theorem adjustmentStep_agree (paidBy : Option String) (adjustment : NormalizedAdjustment)
    {items : Dict String ℚ}
    (agree : Agree items others) (state matched : Dict String ℚ × List AdjustmentDetail)
    (held : Agree state.1 matched.1) :
    Carries (fun first second => Agree first.1 second.1)
      (adjustmentStep .unlimited paidBy items people unit state adjustment)
      (adjustmentStep .unlimited paidBy others permuted unit matched adjustment) := by
  refine (adjustmentAllocations_agree perm adjustment _ agree held).bind fun allocations others same => ?_
  exact (applyAllocations_agree _ held same).bind fun shares others agree => Carries.ok agree

include agree in
theorem validateExactReconciliation_agree (exactTotal : ℚ) (label : String) :
    validateExactReconciliation .unlimited shares exactTotal label =
      validateExactReconciliation .unlimited others exactTotal label := by
  unfold validateExactReconciliation
  rw [sum_agree agree]

include perm in
/-- Stage A gives every participant the same exact share in any order. -/
theorem computeExactReceiptShares_agree :
    Carries (fun first second => first.netPaid = second.netPaid ∧
        Agree first.participantShares second.participantShares)
      (computeExactReceiptShares .unlimited receipt people currency)
      (computeExactReceiptShares .unlimited receipt permuted currency) := by
  refine (itemShares_agree perm receipt).bind fun items others agree => ?_
  rw [sum_agree agree]
  refine Carries.rfl.bind fun itemTotal same equal => ?_
  subst equal
  refine Carries.rfl.bind fun adjustments same equal => ?_
  subst equal
  refine (Carries.foldlM (fun adjustment _ => adjustmentStep_agree perm _ adjustment agree) agree).bind
    fun running matched held => ?_
  refine Carries.rfl.bind fun netPaid same equal => ?_
  subst equal
  rw [validateExactReconciliation_agree held]
  refine Carries.rfl.bind fun _ _ _ => ?_
  refine (Carries.forM_subset perm.symm.subset fun person _ => ?_).bind fun _ _ _ => ?_
  · rw [held person]
    exact Carries.require id
  · exact Carries.ok ⟨rfl, held⟩

/-- Ranked entries do not depend on the order in which they were listed. -/
theorem ranked_perm {entries others : List BalanceEntry} (perm : entries.Perm others) :
    sortEntries .unlimited entries = sortEntries .unlimited others := by
  have order (first second : BalanceEntry) : entryBefore .unlimited first second ↔
      toLex (-first.2, first.1) ≤ toLex (-second.2, second.1) := by
    rw [Prod.Lex.toLex_le_toLex]
    rfl
  have total : Std.Total (entryBefore .unlimited) := ⟨fun _ _ => by simpa only [order] using le_total _ _⟩
  have transitive : IsTrans _ (entryBefore .unlimited) := ⟨fun _ _ _ => by simpa only [order] using le_trans⟩
  have antisymmetric : Std.Antisymm (entryBefore .unlimited) := ⟨fun first second before after => by
    rw [order] at before after
    simpa [Prod.ext_iff, and_comm] using toLex.injective (before.antisymm after)⟩
  refine Perm.eq_of_pairwise' (pairwise_insertionSort _ _) (pairwise_insertionSort _ _) ?_
  exact (sortEntries_perm _ entries).trans (perm.trans (sortEntries_perm _ others).symm)

include agree in
theorem shareOf_agree : shareOf shares = shareOf others := by
  funext person
  rw [shareOf, shareOf, agree person]

include perm in
include agree in
theorem validateAllocatorInputs_perm (exactTotal : ℚ) (policy : RemainderPolicy)
    (payer : Option String) :
    Carries (fun _ _ => people.Nodup) (validateAllocatorInputs .unlimited shares exactTotal unit people policy payer)
      (validateAllocatorInputs .unlimited others exactTotal unit permuted policy payer) := by
  have nonempty : people ≠ [] → permuted ≠ [] := fun nonempty empty =>
    nonempty (perm_nil.mp (empty ▸ perm))
  unfold validateAllocatorInputs
  rw [shareOf_agree agree]
  refine (Carries.require nonempty).bind fun _ _ _ => ?_
  have distinct : Carries (fun _ _ => people.Nodup) (require people.Nodup SplitError.allocationDuplicates)
      (require permuted.Nodup SplitError.allocationDuplicates) := by
    intro value done
    have nodup := require_ok.mp done
    exact ⟨(), require_ok.mpr (perm.nodup_iff.mp nodup), nodup⟩
  refine distinct.bind fun _ _ nodup => ?_
  refine Carries.rfl.bind fun _ _ _ => Carries.rfl.bind fun _ _ _ => ?_
  refine (Carries.forM_subset perm.symm.subset fun person _ => Carries.rfl.weaken fun _ _ _ => trivial).bind
    fun _ _ _ => ?_
  match policy, payer with
  | .unsupported name, _ =>
    intro result run
    cases run
  | .largestRemainder, _ => exact Carries.ok nodup
  | .payer, none =>
    intro result run
    cases run
  | .payer, some payer => exact (Carries.require perm.mem_iff.mp).weaken fun _ _ _ => nodup

theorem absorbRemainder_agree {others : Dict String ℤ} (agree : Agree floors others)
    (payer : String) (remaining : ℤ) :
    Carries Agree (absorbRemainder floors payer remaining) (absorbRemainder others payer remaining) := by
  unfold absorbRemainder
  rw [agree payer]
  split_ifs with none
  · exact Carries.ok agree
  · refine Carries.rfl.bind fun units same equal => ?_
    subst equal
    exact (Carries.require id).bind fun _ _ _ => Carries.ok (agree.set payer _)

theorem distributeRemainder_agree {others : Dict String ℤ}
    (agree : Agree floors others) (same : Agree remainders matched) (remaining : ℤ) :
    Carries Agree (distributeRemainder .unlimited floors remainders remaining)
      (distributeRemainder .unlimited others matched remaining) := by
  have ranked : remainders.entries.insertionSort (remainderBefore .unlimited) =
      matched.entries.insertionSort (remainderBefore .unlimited) := ranked_perm same.entries_perm
  unfold distributeRemainder
  rw [ranked]
  refine Carries.foldlM (fun index _ state matched held => ?_) agree
  refine Carries.rfl.bind fun entry same equal => ?_
  subst equal
  exact Carries.expect fun result done => held.modify? entry.1 _ done

/-- The remainder goes to the same people. -/
theorem spreadRemainder_agree (policy : RemainderPolicy) (payer : Option String)
    {others : Dict String ℤ}
    (agree : Agree floors others) (same : Agree remainders matched) (remaining : ℤ) :
    Carries Agree (spreadRemainder .unlimited policy payer floors remainders remaining)
      (spreadRemainder .unlimited policy payer others matched remaining) := by
  cases policy with
  | payer =>
    refine Carries.rfl.bind fun payer same equal => ?_
    subst equal
    exact absorbRemainder_agree agree payer remaining
  | largestRemainder => exact distributeRemainder_agree agree same remaining
  | unsupported name =>
    intro result run
    cases run

theorem amountOfUnits_label (person : String) (image : String × ℚ)
    (run : amountOfUnits .unlimited floors unit person = .ok image) : image.1 = id person := by
  simp only [amountOfUnits, bind_ok] at run
  obtain ⟨units, _, amount, _, run⟩ := run
  exact (pure_ok.mp run) ▸ rfl

include perm in
include agree in
/-- Stage B gives every participant the same minor units in any order. -/
theorem allocateMinorUnits_agree (exactTotal : ℚ) (policy : RemainderPolicy)
    (payer : Option String) :
    Carries Agree (allocateMinorUnits .unlimited shares exactTotal currency people policy payer)
      (allocateMinorUnits .unlimited others exactTotal currency permuted policy payer) := by
  refine (validateAllocatorInputs_perm perm agree exactTotal policy payer).bind fun _ _ nodup => ?_
  have units : baseUnits .unlimited shares (10 ^ minorUnits currency) policy =
      baseUnits .unlimited others (10 ^ minorUnits currency) policy := by
    funext person
    rw [baseUnits, baseUnits, shareOf_agree agree]
  dsimp only
  rw [units]
  have bases := perm.map (baseUnits .unlimited others (10 ^ minorUnits currency) policy)
  have labels : ∀ {ω : Type} (read : BaseUnits → ω),
      ((people.map (baseUnits .unlimited others (10 ^ minorUnits currency) policy)).map
        fun units => (units.participant, read units)).map Prod.fst = people := by
    intro ω read
    rw [map_map, map_map]
    exact map_id people
  have floors := Dict.agree_ofList_perm ((labels BaseUnits.base).symm ▸ nodup)
    (bases.map fun units => (units.participant, units.base))
  have remainders := Dict.agree_ofList_perm ((labels BaseUnits.remainder).symm ▸ nodup)
    (bases.map fun units => (units.participant, units.remainder))
  rw [(bases.map BaseUnits.base).sum_eq, perm.length_eq]
  refine Carries.rfl.bind fun _ _ _ => ?_
  refine (spreadRemainder_agree policy payer floors remainders _).bind fun floors matched held => ?_
  have amounts : amountOfUnits .unlimited floors currency = amountOfUnits .unlimited matched currency := by
    funext person
    rw [amountOfUnits, amountOfUnits, held person]
  rw [amounts]
  refine (Dict.agree_ofList_mapM amountOfUnits_label ((map_id people).symm ▸ nodup) perm).bind
    fun first second agree => ?_
  rw [sum_agree agree]
  exact (Carries.require id).bind fun _ _ _ => Carries.ok agree

theorem roundingAdjustmentOf_agree {exact final : Dict String ℚ} (agree : Agree exact others)
    (same : Agree final matched) (policy : RemainderPolicy) :
    roundingAdjustmentOf .unlimited exact final policy unit =
      roundingAdjustmentOf .unlimited others matched policy unit := by
  funext person
  rw [roundingAdjustmentOf, roundingAdjustmentOf, agree person, same person]

/-- Two results for one receipt name the same payer, total and shares. -/
structure ReceiptResult.Agrees (first second : ReceiptResult) : Prop where
  paidBy : first.paidBy = second.paidBy
  netPaid : first.netPaid = second.netPaid
  participantShares : Agree first.participantShares second.participantShares

theorem netPaid_agrees {first second : List ReceiptResult}
    (agree : Forall₂ ReceiptResult.Agrees first second) :
    first.map ReceiptResult.netPaid = second.map ReceiptResult.netPaid := by
  induction agree with
  | nil => rfl
  | cons head _ ih => rw [map_cons, map_cons, head.netPaid, ih]

include perm in
/-- The results of a receipt agree. -/
theorem calculateReceipt_agrees :
    Carries ReceiptResult.Agrees (calculateReceipt .unlimited receipt people unit)
      (calculateReceipt .unlimited receipt permuted unit) := by
  refine Carries.rfl.bind fun payer same equal => ?_
  subst equal
  refine (Carries.require perm.mem_iff.mp).bind fun _ _ _ => ?_
  refine Carries.rfl.bind fun _ _ _ => Carries.rfl.bind fun _ _ _ => ?_
  refine (itemShares_agree perm receipt).bind fun items others itemsAgree => ?_
  refine (computeExactReceiptShares_agree perm receipt).bind fun exact matched held => ?_
  obtain ⟨netPaid, agree⟩ := held
  rw [← netPaid]
  refine (allocateMinorUnits_agree perm agree exact.netPaid _ _).bind fun final finalToo same => ?_
  rw [roundingAdjustmentOf_agree agree same]
  refine (Carries.mapM_perm perm).bind fun roundings roundingsToo permuted => ?_
  refine itemsAgree.mapM.bind fun _ _ _ => ?_
  exact Carries.ok ⟨rfl, rfl, same⟩

/-- Two accumulated states hold the same shares, payments and receipt results. -/
structure Accumulated.Agrees (first second : Accumulated) : Prop where
  participantShares : Agree first.participantShares second.participantShares
  payerPaidAmounts : Agree first.payerPaidAmounts second.payerPaidAmounts
  receiptResults : List.Forall₂ ReceiptResult.Agrees first.receiptResults second.receiptResults

include perm in
theorem receiptStep_agrees (state matched : Accumulated) (held : state.Agrees matched) :
    Carries Accumulated.Agrees (receiptStep .unlimited people unit state receipt)
      (receiptStep .unlimited permuted unit matched receipt) := by
  refine Carries.rfl.bind fun _ _ _ => ?_
  refine (calculateReceipt_agrees perm receipt).bind fun result other agrees => ?_
  rw [← agrees.paidBy, ← agrees.netPaid]
  refine (Carries.expect fun paid done => held.payerPaidAmounts.modify? _ _ done).bind
    fun paid paidToo paidAgree => ?_
  refine (addAllocations_agree held.participantShares agrees.participantShares).bind
    fun shares sharesToo sharesAgree => ?_
  exact Carries.ok ⟨sharesAgree, paidAgree, rel_append held.receiptResults (.cons agrees .nil)⟩

/-- Permuted lists of one element have the same first element. -/
theorem head_of_single_perm {others : List String} (same : payers.Perm others)
    (single : payers.length = 1) :
    payers.head? = others.head? := by
  obtain ⟨only, rfl⟩ := length_eq_one_iff.mp single
  rw [singleton_perm.mp same]

include perm in
theorem validatePrimaryPayer_perm (primary : String) {others : List String}
    (same : payers.Perm others) :
    Carries (fun _ _ => True) (validatePrimaryPayer primary people payers)
      (validatePrimaryPayer primary permuted others) := by
  refine (Carries.require id).bind fun _ _ _ => ?_
  refine (Carries.require perm.mem_iff.mp).bind fun _ _ _ => ?_
  refine (Carries.require same.mem_iff.mp).bind fun _ _ _ => ?_
  refine Carries.require fun sole single => ?_
  have single := same.length_eq.trans single
  rw [← head_of_single_perm same single]
  exact sole single

include perm in
theorem resolvePrimaryPayer_perm (payer : Option String) {others : List String}
    (same : payers.Perm others) :
    Carries Eq (resolvePrimaryPayer payer people payers) (resolvePrimaryPayer payer permuted others) := by
  cases payer with
  | some primary => exact (validatePrimaryPayer_perm perm primary same).bind fun _ _ _ => Carries.ok rfl
  | none =>
    refine Carries.ok ?_
    rw [same.length_eq]
    split_ifs with single
    · exact head_of_single_perm same (same.length_eq.trans single)
    · rfl

include perm in
/-- The obligations are the same. -/
theorem settlementObligations_perm (fuel : ℕ) (agree : Agree shares others)
    (same : Agree paid paidToo) :
    Carries Eq (settlementObligations .unlimited unit fuel people shares paid)
      (settlementObligations .unlimited unit fuel permuted others paidToo) := by
  have balance : participantBalance .unlimited unit shares paid =
      participantBalance .unlimited unit others paidToo := by
    funext person
    rw [participantBalance, participantBalance, agree person, same person]
  unfold settlementObligations
  rw [balance]
  refine (Carries.mapM_perm perm).bind fun balances matched held => ?_
  have debtors : (debitEntries .unlimited balances).Perm (debitEntries .unlimited matched) :=
    (held.filter _).map _
  have creditors : (creditEntries balances).Perm (creditEntries matched) := held.filter _
  rw [ranked_perm debtors, ranked_perm creditors]
  exact Carries.rfl

include agree in
theorem payerSummaryOf_agree (same : Agree paid paidToo) (primary : String)
    (debts : List Obligation) :
    payerSummaryOf .unlimited primary shares paid debts unit =
      payerSummaryOf .unlimited primary others paidToo debts unit := by
  rw [payerSummaryOf, payerSummaryOf, agree primary, same primary]

theorem caseParticipants_perm (given : caseData.participants = some listed)
    (perm : listed.Perm permuted) :
    Carries Perm (caseParticipants caseData)
      (caseParticipants { caseData with participants := some permuted }) := by
  have nonempty : listed ≠ [] → permuted ≠ [] := fun nonempty empty =>
    nonempty (perm_nil.mp (empty ▸ perm))
  by_cases empty : listed = []
  · subst empty
    obtain rfl := nil_perm.mp perm
    rw [← given]
    exact Carries.rfl.weaken fun _ _ same => same ▸ Perm.refl _
  · simp only [caseParticipants, given, Option.getD_some, empty, nonempty empty, if_false]
    exact Carries.ok perm

/-- Two results hold the same shares, payments, receipt results and obligations. -/
structure SplitResult.Agrees (first second : SplitResult) : Prop where
  participantShares : Agree first.participantShares second.participantShares
  payerPaidAmounts : Agree first.payerPaidAmounts second.payerPaidAmounts
  receipts : List.Forall₂ ReceiptResult.Agrees first.receipts second.receipts
  settlementObligations : first.settlementObligations = second.settlementObligations

/-- The results of a case agree for permuted participants. -/
theorem calculateReceiptSplit_agrees (fuel : ℕ)
    (given : caseData.participants = some listed) (perm : listed.Perm permuted) :
    Carries SplitResult.Agrees (calculateReceiptSplit .unlimited fuel caseData)
      (calculateReceiptSplit .unlimited fuel { caseData with participants := some permuted }) := by
  refine (Carries.require id).bind fun _ _ _ => ?_
  refine (caseParticipants_perm given perm).bind fun people others perm => ?_
  refine (Carries.require perm.nodup_iff.mp).bind fun _ _ _ => ?_
  refine Carries.rfl.bind fun unit same equal => ?_
  subst equal
  have empty := emptyShares_agree perm
  refine (Carries.foldlM (fun receipt _ => receiptStep_agrees perm receipt) ⟨empty, empty, .nil⟩).bind
    fun state matched held => ?_
  refine held.participantShares.mapM.bind fun shares sharesToo sharesAgree => ?_
  refine held.payerPaidAmounts.mapM.bind fun paid paidToo paidAgree => ?_
  have payers := (paidAgree.entries_perm.filter fun entry => entry.2 ≠ 0).map Prod.fst
  refine (resolvePrimaryPayer_perm perm _ payers).bind fun primary same equal => ?_
  subst equal
  refine (settlementObligations_perm perm fuel sharesAgree paidAgree).bind fun debts same equal => ?_
  subst equal
  rw [sum_agree sharesAgree, sum_agree paidAgree]
  refine Carries.rfl.bind fun totalPaid same equal => ?_
  subst equal
  refine Carries.rfl.bind fun totalShares same equal => ?_
  subst equal
  refine (Carries.require id).bind fun _ _ _ => ?_
  have lookup : (fun payer => (payer, ·) <$> expect (shares.get? payer) (SplitError.missingKey payer)) =
      fun payer => (payer, ·) <$> expect (sharesToo.get? payer) (SplitError.missingKey payer) := by
    funext payer
    rw [sharesAgree payer]
  rw [lookup]
  refine (Carries.mapM_perm payers).bind fun _ _ _ => ?_
  cases primary with
  | none =>
    exact Carries.ok ⟨sharesAgree, paidAgree, held.receiptResults, rfl⟩
  | some primary =>
    dsimp only
    rw [payerSummaryOf_agree sharesAgree paidAgree]
    refine Carries.rfl.bind fun _ _ _ => ?_
    exact Carries.ok ⟨sharesAgree, paidAgree, held.receiptResults, rfl⟩

end Order

/-- A permuted participant list is accepted with the same shares, payments and obligations. -/
theorem calculateReceiptSplit_order_free {fuel : ℕ} {caseData : CaseData}
    {listed permuted : List String}
    {result : SplitResult} (given : caseData.participants = some listed)
    (perm : listed.Perm permuted)
    (accepted : calculateReceiptSplit Context.unlimited fuel caseData = .ok result) :
    ∃ matched,
      calculateReceiptSplit Context.unlimited fuel { caseData with participants := some permuted } =
        .ok matched ∧
      (∀ participant, matched.participantShares.get? participant = result.participantShares.get? participant) ∧
      (∀ participant, matched.payerPaidAmounts.get? participant = result.payerPaidAmounts.get? participant) ∧
      matched.receipts.map ReceiptResult.netPaid = result.receipts.map ReceiptResult.netPaid ∧
      matched.settlementObligations = result.settlementObligations := by
  obtain ⟨matched, acceptedToo, agrees⟩ := calculateReceiptSplit_agrees fuel given perm result accepted
  exact ⟨matched, acceptedToo, fun participant => (agrees.participantShares participant).symm,
    fun participant => (agrees.payerPaidAmounts participant).symm, (netPaid_agrees agrees.receipts).symm,
    agrees.settlementObligations.symm⟩

/-- One receipt with an item for two people, a service charge for everyone and no exact cent split. -/
def lunchCase : CaseData where
  currency := some "SGD"
  participants := some ["ana", "ben", "eve"]
  receipts := [{
    paidBy := some "ana"
    items := some [{ amount := some (.text "10.01"), participants := some ["ana", "ben"] }]
    serviceChargeAmount := some (.text "1.00")
    serviceChargeAllocationMethod := some (some .equalPerParticipant)
    serviceChargeParticipants := some ["eve", "ana", "ben"] }]

/-- A lunch whose participants are listed in two orders. -/
theorem calculateReceiptSplit_order_free_lunch :
    ∃ result matched,
      calculateReceiptSplit Context.unlimited 3 lunchCase = .ok result ∧
      calculateReceiptSplit Context.unlimited 3
        { lunchCase with participants := some ["eve", "ben", "ana"] } = .ok matched ∧
      (∀ participant, matched.participantShares.get? participant = result.participantShares.get? participant) ∧
      matched.settlementObligations = result.settlementObligations := by
  have perm : List.Perm ["ana", "ben", "eve"] ["eve", "ben", "ana"] := by decide
  obtain ⟨result, accepted⟩ : ∃ result, calculateReceiptSplit Context.unlimited 3 lunchCase = .ok result := by
    decide +kernel
  obtain ⟨matched, acceptedToo, shares, _, _, obligations⟩ :=
    calculateReceiptSplit_order_free rfl perm accepted
  exact ⟨result, matched, accepted, acceptedToo, shares, obligations⟩

end FinanceCore.Calculators

import FinanceCore.ReceiptFinalization.SinglePayer

namespace FinanceCore.ReceiptFinalization

open Decimal Exceptions Money List Dict Context
open Calculators (moneyValue)
open Settlement (filter_only)

variable {currency unit : Currency} {context : Context}

section Amounts

/-- The raw value is read as the amount whatever field it stands in. -/
def ReadsAs (context : Context) (currency : Currency) (raw : RawMoney) (amount : ℚ) : Prop :=
  ∀ label, validatedAmount context currency raw label = .ok amount

variable {raw : RawMoney} {amount : ℚ} {check : String → Except FinalizationError Unit}
  {mapping : Dict String RawMoney}

theorem ReadsAs.held (reads : ReadsAs context unit raw amount) : context.Holds (minorUnits unit) amount :=
  (validatedAmount_value (reads .totalPaid)).2

theorem ReadsAs.stated (reads : ReadsAs context unit raw amount) : raw ≠ .missing := by
  rintro rfl
  cases reads .totalPaid

variable (held : context.Holds (minorUnits unit) amount)
include held

theorem roundForCurrency_held : roundForCurrency context unit amount = .ok amount :=
  roundForCurrency_ok.mpr (held.quantize halfUp)

theorem requireRoundedEqual_self (failure : FinalizationError) :
    requireRoundedEqual context unit amount amount failure = .ok () := by
  have rounded := roundForCurrency_held held
  exact bind_ok.mpr ⟨_, rounded, bind_ok.mpr ⟨_, rounded, require_ok.mpr rfl⟩⟩

omit held

/-- The amount loop adds the amounts of the entries in their order. -/
theorem amountLoop_eq (label : String → AmountLabel) {amount : String → ℚ}
    {entries : List (String × RawMoney)} (checked : ∀ entry ∈ entries, check entry.1 = .ok ())
    (reads : ∀ entry ∈ entries, ReadsAs context unit entry.2 (amount entry.1)) (start : ℚ) :
    (entries.foldlM (fun sum entry => do
      check entry.1
      let read ← validatedAmount context unit entry.2 (label entry.1)
      return context.add sum read) start : Except FinalizationError ℚ) =
        .ok (context.sumFrom start (entries.map fun entry => amount entry.1)) := by
  induction entries generalizing start with
  | nil => rfl
  | cons entry rest ih =>
    simp only [foldlM_cons, checked entry (by simp), reads entry (by simp) _, ok_bind, pure_bind]
    exact ih (fun later member => checked later (by simp [member]))
      (fun later member => reads later (by simp [member])) _

/-- A mapping of non-negative amounts has its held total as its sum. -/
theorem amountSum_eq {label : String → AmountLabel} (amount : String → ℚ) {total : ℚ}
    (checked : ∀ key ∈ mapping.keys, check key = .ok ())
    (reads : ∀ entry ∈ mapping.entries, ReadsAs context unit entry.2 (amount entry.1))
    (nonneg : ∀ key ∈ mapping.keys, 0 ≤ amount key) (sum : (mapping.keys.map amount).sum = total)
    (held : context.Holds (minorUnits unit) total) : amountSum context unit mapping check label = .ok total := by
  have loop := amountLoop_eq label (fun entry member => checked entry.1 (mem_map_of_mem member)) reads 0
  have amounts : (mapping.entries.map fun entry => amount entry.1) = mapping.keys.map amount := by
    rw [Dict.keys, map_map]
    rfl
  have each : ∀ value ∈ mapping.keys.map amount, AtScale (minorUnits unit) value ∧ 0 ≤ value := by
    refine forall_mem_map.mpr fun key inside => ⟨?_, nonneg key inside⟩
    obtain ⟨entry, listed, rfl⟩ := mem_map.mp inside
    exact (reads entry listed).held.atScale
  rw [amounts, sumFrom_eq_of_held each sum held] at loop
  exact bind_ok.mpr ⟨total, loop, roundForCurrency_held held⟩

theorem amountOf_entry {entry : String × RawMoney} (member : entry ∈ mapping.entries) :
    amountOf mapping entry.1 = entry.2 := by
  rw [amountOf, get?_of_mem_entries member, Option.getD_some]

end Amounts

section Settled

variable (context : Context) (currency unit : Currency)

/-- An obligation entry of a snapshot that asks a debtor for an amount in favour of the payer. -/
structure Asks (payer : String) (entry : String × ℚ) (obligation : SnapshotObligation) : Prop where
  debtor : obligation.debtor = some entry.1
  creditor : obligation.creditor = some payer
  inCurrency : obligation.currency = some currency.code
  amount : ∃ raw, obligation.amount = some raw ∧ ReadsAs context currency raw entry.2

/-- A decoded snapshot that states a single-payer split together with its debts. -/
structure Settled (snapshot : CalculationSnapshot) (payer : String) (total : ℚ) (share : String → ℚ)
    (debtors : List (String × ℚ)) : Prop where
  nodup : snapshot.participants.Nodup
  named : ∀ participant ∈ snapshot.participants, participant ≠ ""
  payerIn : payer ∈ snapshot.participants
  payerNamed : snapshot.payer = some payer
  shareKeys : snapshot.participantShares.keys.Perm snapshot.participants
  shares : ∀ participant ∈ snapshot.participants,
    ReadsAs context currency (amountOf snapshot.participantShares participant) (share participant)
  totalShares : snapshot.totalParticipantShares = some snapshot.participantShares
  paid : ∃ paid, snapshot.payerPaidAmounts = some paid ∧ paid.keys.Perm snapshot.participants ∧
    ∀ participant ∈ snapshot.participants,
      ReadsAs context currency (amountOf paid participant) (if participant = payer then total else 0)
  totalRead : ReadsAs context currency snapshot.totalPaid total
  own : ReadsAs context currency snapshot.payerOwnShare (share payer)
  nonneg : ∀ participant ∈ snapshot.participants, 0 ≤ share participant
  sum : (snapshot.participants.map share).sum = total
  debtorsNodup : (debtors.map Prod.fst).Nodup
  debtor : ∀ entry, entry ∈ debtors ↔ entry.1 ∈ snapshot.participants ∧ entry.1 ≠ payer ∧ 0 < share entry.1 ∧
    entry.2 = share entry.1
  collected : (debtors.map Prod.snd).sum = total - share payer
  asked : List.Forall₂ (Asks context currency payer) debtors snapshot.settlementObligations

variable {context unit}

theorem Asks.obligation_eq {payer : String} {entry : String × ℚ} {debt : SnapshotObligation}
    (asks : Asks context unit payer entry debt) :
    debt.debtor.getD "" = entry.1 ∧ moneyValue (debt.amount.getD .missing) = entry.2 := by
  obtain ⟨raw, stated, reads⟩ := asks.amount
  rw [asks.debtor, stated]
  exact ⟨rfl, (validatedAmount_value (reads .totalPaid)).1.symm⟩

/-- A submitted obligation for an entry of the debts. -/
structure Submits (currency : Currency) (payer : String) (entry : String × ℚ)
    (obligation : SettlementObligation context) : Prop where
  debtor : obligation.debtor = entry.1
  creditor : obligation.creditor = payer
  amount : obligation.amount = entry.2
  inCurrency : obligation.currency = currency

/-- The tuple that a debt is compared as. -/
def debtTuple (currency : Currency) (payer : String) (entry : String × ℚ) : CanonicalObligation :=
  (entry.1, payer, entry.2, currency.code)

theorem code_ne_empty (unit : Currency) : unit.code ≠ "" := by
  cases unit <;> decide

end Settled

section Checks

variable {snapshot : CalculationSnapshot} {payer : String} {total : ℚ} {share : String → ℚ}
  {debtors : List (String × ℚ)} (settled : Settled context unit snapshot payer total share debtors)
include settled

theorem Settled.entry_reads {entry : String × RawMoney}
    (member : entry ∈ snapshot.participantShares.entries) :
    ReadsAs context unit entry.2 (share entry.1) := by
  have reads := settled.shares entry.1 (settled.shareKeys.subset (mem_map_of_mem member))
  rwa [amountOf_entry member] at reads

/-- The total is not negative. -/
theorem Settled.total_nonneg : 0 ≤ total := by
  rw [← settled.sum]
  exact sum_nonneg (forall_mem_map.mpr settled.nonneg)

variable {visited : List String} {person : String} {entry : String × ℚ}

variable (perm : visited.Perm snapshot.participants)

include perm in
/-- What was paid adds up to the total. -/
theorem Settled.sum_paid : (visited.map fun person => if person = payer then total else 0).sum = total := by
  rw [sum_map_ite_eq, perm.count_eq, count_eq_one_of_mem settled.nodup settled.payerIn]
  simp

/-- The total is reconciled. -/
theorem Settled.reconcileTotal_ok : reconcileTotal context unit snapshot = .ok (some total) := by
  have sum : amountSum context unit snapshot.participantShares (fun _ => .ok ()) .share = .ok total := by
    apply amountSum_eq share (fun _ _ => rfl) (fun entry member => settled.entry_reads member)
    · intro key member
      exact settled.nonneg key (settled.shareKeys.subset member)
    · rw [(settled.shareKeys.map share).sum_eq, settled.sum]
    · exact settled.totalRead.held
  have rounded := roundForCurrency_held settled.totalRead.held
  refine (if_neg settled.totalRead.stated).trans ?_
  exact bind_ok.mpr ⟨total, settled.totalRead _, bind_ok.mpr ⟨total, sum, bind_ok.mpr ⟨total, rounded,
    bind_ok.mpr ⟨(), require_ok.mpr rfl, rfl⟩⟩⟩⟩

variable (member : person ∈ snapshot.participants)

include member in
theorem Settled.get_share :
    ∃ raw, snapshot.participantShares.get? person = some raw ∧
      ReadsAs context unit raw (share person) := by
  have present := get?_isSome.mpr (settled.shareKeys.symm.subset member)
  obtain ⟨raw, found⟩ := Option.isSome_iff_exists.mp present
  have reads := settled.shares person member
  rw [amountOf, found] at reads
  exact ⟨raw, found, reads⟩

/-- The payer's own share is reconciled. -/
theorem Settled.reconcileOwnShare_ok : reconcileOwnShare context unit snapshot payer = .ok () := by
  obtain ⟨raw, found, reads⟩ := settled.get_share settled.payerIn
  unfold reconcileOwnShare
  rw [found]
  refine (if_neg settled.own.stated).trans ?_
  exact bind_ok.mpr ⟨_, settled.own _, bind_ok.mpr ⟨_, reads _, requireRoundedEqual_self reads.held _⟩⟩

theorem Settled.reconcileTotalShares_ok (inside : visited ⊆ snapshot.participants) :
    reconcileTotalShares context unit snapshot visited = .ok () := by
  unfold reconcileTotalShares
  rw [settled.totalShares]
  dsimp only
  split
  · rfl
  · apply forM_ok.mpr
    intro person member
    have reads := settled.shares person (inside member)
    exact bind_ok.mpr ⟨_, reads _, bind_ok.mpr ⟨_, reads _, requireRoundedEqual_self reads.held _⟩⟩

include perm in
theorem Settled.reconcilePaidAmounts_ok :
    reconcilePaidAmounts context unit snapshot (some total) visited payer = .ok () := by
  obtain ⟨paid, stated, keys, reads⟩ := settled.paid
  have sum : amountSum context unit paid
      (fun key => require (key ∈ visited) (.unknownParticipant (.nestedKey .payerPaidAmounts) key)) .paid =
        .ok total := by
    apply amountSum_eq fun person => if person = payer then total else 0
    · intro key member
      exact require_ok.mpr (perm.symm.subset (keys.subset member))
    · intro entry member
      have read := reads entry.1 (keys.subset (mem_map_of_mem member))
      rwa [amountOf_entry member] at read
    · intro key _
      split_ifs
      · exact settled.total_nonneg
      · exact le_rfl
    · exact settled.sum_paid keys
    · exact settled.totalRead.held
  have rounded := roundForCurrency_held settled.totalRead.held
  unfold reconcilePaidAmounts
  rw [stated]
  refine bind_ok.mpr ⟨total, sum, bind_ok.mpr ⟨(), bind_ok.mpr ⟨total, rounded, require_ok.mpr rfl⟩, ?_⟩⟩
  apply forM_ok.mpr
  intro person member
  have read := reads person (perm.subset member)
  refine bind_ok.mpr ⟨_, read _, ?_⟩
  split_ifs with same
  · exact requireRoundedEqual_self settled.totalRead.held _
  · exact bind_ok.mpr ⟨0, roundForCurrency_held (context.holds_zero _), require_ok.mpr rfl⟩

include perm in
/-- All totals of a settled snapshot are reconciled. -/
theorem Settled.shareTotalReconciliation :
    validateShareTotalReconciliation context unit snapshot visited payer = .ok () :=
  bind_ok.mpr ⟨_, settled.reconcileTotal_ok, bind_ok.mpr ⟨(), settled.reconcileOwnShare_ok,
    bind_ok.mpr ⟨(), settled.reconcileTotalShares_ok perm.subset, settled.reconcilePaidAmounts_ok perm⟩⟩⟩

/-- What a participant paid minus the share. -/
def settledBalance (payer : String) (total : ℚ) (share : String → ℚ) (participant : String) : ℚ :=
  (if participant = payer then total else 0) - share participant

abbrev settledEntries (payer : String) (total : ℚ) (share : String → ℚ) (visited : List String) : List (String × ℚ) :=
  visited.map fun person => (person, settledBalance payer total share person)

namespace Settled

include member in
/-- No share exceeds the total. -/
theorem share_le : share person ≤ total := by
  rw [← settled.sum]
  exact single_le_sum (forall_mem_map.mpr settled.nonneg) _ (mem_map_of_mem member)

include member in
theorem balance_held : context.Holds (minorUnits unit) (settledBalance payer total share person) := by
  have nonneg := settled.nonneg person member
  have below := settled.share_le member
  have scaled := (settled.shares person member).held.atScale
  have totalScaled := settled.totalRead.held.atScale
  unfold settledBalance
  split_ifs
  · apply settled.totalRead.held.of_abs_le (totalScaled.sub scaled)
    rw [abs_of_nonneg (by linarith), abs_of_nonneg settled.total_nonneg]
    linarith
  · rw [zero_sub]
    exact (settled.shares person member).held.neg

include member in
theorem participantBalance_ok :
    participantBalance context unit snapshot person = .ok (person, settledBalance payer total share person) := by
  obtain ⟨paid, stated, _, reads⟩ := settled.paid
  have read := reads person member
  have held := settled.balance_held member
  refine bind_ok.mpr ⟨if person = payer then total else 0, ?_, bind_ok.mpr
    ⟨_, settled.shares person member _, bind_ok.mpr ⟨settledBalance payer total share person, ?_, rfl⟩⟩⟩
  · rw [stated]
    exact read _
  · change roundForCurrency context unit (context.fix (settledBalance payer total share person)) = _
    rw [held.fix]
    exact roundForCurrency_held held

include perm in
/-- The balances cancel. -/
theorem sum_balances : (visited.map (settledBalance payer total share)).sum = 0 := by
  have whole : (visited.map (settledBalance payer total share)).sum + (visited.map share).sum =
      (visited.map fun person => if person = payer then total else 0).sum := by
    rw [← sum_map_add]
    simp [settledBalance]
  rw [(perm.map share).sum_eq, settled.sum, settled.sum_paid perm] at whole
  linarith

include perm in
/-- The balances add up to zero without rounding in any order. -/
theorem balances_exactly : context.sumFrom 0 (visited.map (settledBalance payer total share)) = 0 := by
  have gains : ((visited.map (settledBalance payer total share)).map (max · 0)).sum ≤ total := by
    rw [map_map]
    refine (sum_le_sum fun person member => ?_).trans (settled.sum_paid perm).le
    have nonneg := settled.nonneg person (perm.subset member)
    have positive := settled.total_nonneg
    simp only [Function.comp_apply, settledBalance]
    split_ifs <;> apply max_le <;> linarith
  have losses : -total ≤ ((visited.map (settledBalance payer total share)).map (min · 0)).sum := by
    have below : (visited.map fun person => -share person).sum = -total := by
      have whole : (visited.map fun person => -share person).sum + (visited.map share).sum = 0 := by
        rw [← sum_map_add]
        simp
      rw [(perm.map share).sum_eq, settled.sum] at whole
      linarith
    rw [← below, map_map]
    refine sum_le_sum fun person member => ?_
    have nonneg := settled.nonneg person (perm.subset member)
    have positive := settled.total_nonneg
    simp only [Function.comp_apply, settledBalance]
    split_ifs <;> apply le_min <;> linarith
  have scaled : ∀ value ∈ visited.map (settledBalance payer total share), AtScale (minorUnits unit) value :=
    forall_mem_map.mpr fun person inside => (settled.balance_held (perm.subset inside)).atScale
  have exactly := Context.sumsExactly_of_bounded settled.totalRead.held (AtScale.zero (minorUnits unit)) scaled
    (by rwa [zero_add]) (by rwa [zero_add])
  rw [exactly.1.sumFrom_eq, zero_add, settled.sum_balances perm]

theorem payer_gain : 0 ≤ settledBalance payer total share payer := by
  have below := settled.share_le settled.payerIn
  rw [settledBalance, if_pos rfl]
  linarith

/-- Whoever has a loss is not the payer and loses the share. -/
theorem loss (negative : settledBalance payer total share person < 0) :
    person ≠ payer ∧ settledBalance payer total share person = -share person := by
  have other : person ≠ payer := by
    rintro rfl
    exact absurd negative (not_lt.mpr settled.payer_gain)
  exact ⟨other, by rw [settledBalance, if_neg other, zero_sub]⟩

include perm in
/-- The debtors are those with a share to pay. -/
theorem debtors_perm :
    (debtorsOf context (settledEntries payer total share visited)).Perm debtors := by
  have listed : debtorsOf context (settledEntries payer total share visited) =
      (visited.filter fun person => settledBalance payer total share person < 0).map
        fun person => (person, share person) := by
    rw [debtorsOf, filter_map, map_map]
    apply map_congr_left
    intro person member
    obtain ⟨inside, negative⟩ := mem_filter.mp member
    change (person, context.neg (settledBalance payer total share person)) = _
    rw [(settled.loss (of_decide_eq_true negative)).2, neg, neg_neg, (settled.shares person (perm.subset inside)).held.fix]
  have visitedNodup := perm.nodup_iff.mpr settled.nodup
  have names : ((visited.filter fun person => settledBalance payer total share person < 0).map
      fun person => (person, share person)).Nodup :=
    (visitedNodup.filter _).map fun _ _ same => (Prod.mk.inj same).1
  rw [listed, perm_ext_iff_of_nodup names (List.Nodup.of_map _ settled.debtorsNodup)]
  rintro ⟨person, amount⟩
  rw [settled.debtor, mem_map]
  constructor
  · rintro ⟨name, member, same⟩
    obtain ⟨rfl, rfl⟩ := Prod.mk.inj same
    obtain ⟨inside, negative⟩ := mem_filter.mp member
    obtain ⟨other, amount⟩ := settled.loss (of_decide_eq_true negative)
    rw [decide_eq_true_eq, amount, neg_lt_zero] at negative
    exact ⟨perm.subset inside, other, negative, rfl⟩
  · rintro ⟨inside, other, positive, same⟩
    refine ⟨person, mem_filter.mpr ⟨perm.symm.subset inside, decide_eq_true ?_⟩, by rw [← same]⟩
    rw [settledBalance, if_neg other, zero_sub, neg_lt_zero]
    exact positive

include perm in
/-- The payer is the only creditor. -/
theorem creditors_eq :
    creditorsOf (settledEntries payer total share visited) =
      if 0 < settledBalance payer total share payer then [(payer, settledBalance payer total share payer)] else [] := by
  have only : ∀ other ∈ visited, decide (0 < settledBalance payer total share other) = true → other = payer := by
    intro other member positive
    by_contra different
    have gain := of_decide_eq_true positive
    rw [settledBalance, if_neg different] at gain
    linarith [settled.nonneg other (perm.subset member)]
  rw [creditorsOf, filter_map]
  change (visited.filter fun person => decide (0 < settledBalance payer total share person)).map _ = _
  rw [filter_only (perm.nodup_iff.mpr settled.nodup) (perm.symm.subset settled.payerIn) only]
  simp only [decide_eq_true_eq]
  split_ifs <;> rfl

theorem debtor_named (member : entry ∈ debtors) : entry.1 ≠ "" :=
  settled.named entry.1 ((settled.debtor entry).mp member).1

variable {debt : SnapshotObligation}

/-- The first debt of a debtor is recorded as it stands. -/
theorem addDebt_fresh {amounts : Dict String ℚ} (member : entry ∈ debtors)
    (asks : Asks context unit payer entry debt) (fresh : entry.1 ∉ amounts.keys) :
    addDebt context unit amounts debt = .ok (amounts.set entry.1 entry.2) := by
  obtain ⟨raw, stated, reads⟩ := asks.amount
  unfold addDebt
  rw [asks.debtor, asks.creditor, stated]
  dsimp only
  rw [if_pos ⟨settled.debtor_named member, settled.named payer settled.payerIn, reads.stated⟩]
  refine bind_ok.mpr ⟨_, reads _, bind_ok.mpr ⟨entry.2, ?_, rfl⟩⟩
  rw [get?_eq_none.mpr fresh, Option.getD_none, add, zero_add, reads.held.fix]
  exact roundForCurrency_held reads.held

/-- The obligations of the snapshot add each debt once. -/
theorem addDebts : ∃ amounts, snapshot.settlementObligations.foldlM (addDebt context unit) empty =
    .ok amounts ∧ amounts.entries = debtors := by
  have pairs : (snapshot.settlementObligations.map fun debt =>
      (debt.debtor.getD "", moneyValue (debt.amount.getD .missing))) = debtors := by
    have same : ∀ entry debt, Asks context unit payer entry debt →
        (debt.debtor.getD "", moneyValue (debt.amount.getD .missing)) = id entry :=
      fun entry debt asks => Prod.ext asks.obligation_eq.1 asks.obligation_eq.2
    rw [map_eq_of_forall₂ same settled.asked, map_id]
  have keys : (snapshot.settlementObligations.map fun debt => debt.debtor.getD "") = debtors.map Prod.fst := by
    rw [← pairs, map_map]
    rfl
  have fresh : ∀ amounts debt, debt ∈ snapshot.settlementObligations →
      debt.debtor.getD "" ∉ amounts.keys → addDebt context unit amounts debt =
        .ok (amounts.set (debt.debtor.getD "") (moneyValue (debt.amount.getD .missing))) := by
    intro amounts debt member fresh
    obtain ⟨entry, inside, asks⟩ := exists_of_mem_forall₂ settled.asked member
    rw [asks.obligation_eq.1] at fresh ⊢
    rw [asks.obligation_eq.2]
    exact settled.addDebt_fresh inside asks fresh
  have nodup : ((empty : Dict String ℚ).keys ++ snapshot.settlementObligations.map fun debt =>
      debt.debtor.getD "").Nodup := by
    rw [keys]
    exact settled.debtorsNodup
  obtain ⟨amounts, run, entries⟩ := foldlM_set_fresh fresh nodup
  exact ⟨amounts, run, entries.trans pairs⟩

theorem no_debtors (nobody : debtors = []) : snapshot.settlementObligations = [] := by
  have asked := settled.asked
  rw [nobody] at asked
  exact forall₂_nil_left_iff.mp asked

theorem gain_of_debtors (somebody : debtors ≠ []) : 0 < settledBalance payer total share payer := by
  obtain ⟨entry, rest, rfl⟩ := exists_cons_of_ne_nil somebody
  have positive (later : String × ℚ) (member : later ∈ entry :: rest) : 0 < later.2 := by
    obtain ⟨_, _, owes, same⟩ := (settled.debtor later).mp member
    rwa [same]
  have sum := settled.collected
  rw [map_cons, sum_cons] at sum
  have others : 0 ≤ (rest.map Prod.snd).sum :=
    sum_nonneg (forall_mem_map.mpr fun later inside => (positive later (mem_cons_of_mem _ inside)).le)
  rw [settledBalance, if_pos rfl]
  linarith [positive entry (mem_cons_self ..)]

include perm in
theorem expected :
    ∃ expected, expectedDebtorAmounts context unit (debtorsOf context (settledEntries payer total share visited)) =
      .ok expected ∧ expected.Perm debtors := by
  have listed := settled.debtors_perm perm
  have sorted := perm_insertionSort (fun entry other : String × ℚ => entry.1 ≤ other.1)
    (debtorsOf context (settledEntries payer total share visited))
  refine ⟨_, mapM_ok.mpr (forall₂_same.mpr fun entry member => ?_), sorted.trans listed⟩
  obtain ⟨inside, _, _, same⟩ := (settled.debtor entry).mp (listed.subset (sorted.subset member))
  have held := (settled.shares entry.1 inside).held
  rw [← same] at held
  exact map_ok.mpr ⟨entry.2, roundForCurrency_held held, rfl⟩

include perm in
/-- The obligations agree with the balances. -/
theorem balanceConsistency : validateBalanceObligationConsistency context unit snapshot visited payer = .ok () := by
  have balances : visited.mapM (participantBalance context unit snapshot) =
      .ok (settledEntries payer total share visited) := by
    rw [mapM_ok, forall₂_map_right_iff, forall₂_same]
    exact fun person member => settled.participantBalance_ok (perm.subset member)
  have sum : roundForCurrency context unit
      (context.sumFrom 0 ((settledEntries payer total share visited).map Prod.snd)) = .ok 0 := by
    rw [map_map]
    change roundForCurrency context unit (context.sumFrom 0 (visited.map (settledBalance payer total share))) = _
    rw [settled.balances_exactly perm]
    exact roundForCurrency_held (context.holds_zero _)
  refine bind_ok.mpr ⟨_, balances, bind_ok.mpr ⟨0, sum, bind_ok.mpr ⟨(), require_ok.mpr rfl, ?_⟩⟩⟩
  dsimp only
  split_ifs with nobody
  · exact require_ok.mpr (settled.no_debtors (perm_nil.mp (nobody.1 ▸ (settled.debtors_perm perm).symm)))
  · have gain : 0 < settledBalance payer total share payer := by
      by_contra none
      have creditors := settled.creditors_eq perm
      rw [if_neg none] at creditors
      apply nobody
      refine ⟨?_, creditors⟩
      by_contra somebody
      have owed : debtors ≠ [] := by
        rintro rfl
        exact somebody (perm_nil.mp (settled.debtors_perm perm))
      exact none (settled.gain_of_debtors owed)
    obtain ⟨expected, computed, expectedPerm⟩ := settled.expected perm
    obtain ⟨amounts, added, entries⟩ := settled.addDebts
    have sole : (creditorsOf (settledEntries payer total share visited)).map Prod.fst = [payer] := by
      rw [settled.creditors_eq perm, if_pos gain]
      rfl
    refine bind_ok.mpr ⟨(), require_ok.mpr sole, bind_ok.mpr ⟨expected, computed,
      bind_ok.mpr ⟨amounts, added, require_ok.mpr ?_⟩⟩⟩
    rw [entries]
    exact expectedPerm

theorem canonicalFromMapping_ok (index : ℕ) (member : entry ∈ debtors)
    (asks : Asks context unit payer entry debt) :
    canonicalFromMapping (debt, index) = .ok (debtTuple unit payer entry) := by
  obtain ⟨raw, stated, reads⟩ := asks.amount
  obtain ⟨number, read, rest⟩ := bind_ok.mp (reads (.snapshotObligation index))
  obtain ⟨_, _, rest⟩ := bind_ok.mp rest
  have value := pure_ok.mp rest
  simp only [canonicalFromMapping, debtTuple, asks.debtor, asks.creditor, asks.inCurrency, stated, ← value, bind_ok,
    expect_ok, require_ok, pure_ok]
  exact ⟨_, rfl, _, rfl, _, rfl, _, rfl, (), settled.debtor_named member, (), settled.named payer settled.payerIn, (),
    code_ne_empty unit, number, read, rfl⟩

variable {obligations : List (SettlementObligation context)}
  (submitted : Forall₂ (Submits unit payer) debtors obligations)
include submitted

/-- The obligations of the case match the snapshot. -/
theorem obligationsMatch : validateObligationsMatchSnapshot obligations snapshot.settlementObligations = .ok () := by
  have lengths : obligations.length = snapshot.settlementObligations.length :=
    submitted.length_eq.symm.trans settled.asked.length_eq
  have actual : obligations.map canonicalFromObligation = debtors.map (debtTuple unit payer) := by
    apply map_eq_of_forall₂ _ submitted
    intro entry debt submits
    rw [canonicalFromObligation, debtTuple, submits.debtor, submits.creditor, submits.amount, submits.inCurrency]
  have expected : snapshot.settlementObligations.zipIdx.mapM canonicalFromMapping =
      .ok (debtors.map (debtTuple unit payer)) := by
    apply mapM_zipIdx_of_forall₂ settled.asked
    intro index entry debt member asks
    exact settled.canonicalFromMapping_ok index member asks
  refine bind_ok.mpr ⟨(), require_ok.mpr lengths, bind_ok.mpr ⟨_, expected, require_ok.mpr ?_⟩⟩
  rw [actual]

omit submitted in
theorem collection_held : context.Holds (minorUnits unit) (total - share payer) := by
  have gain := settled.balance_held settled.payerIn
  rwa [settledBalance, if_pos rfl] at gain

/-- The submitted obligations add up to the total without the payer's own share. -/
theorem sum_submitted : context.sumFrom 0 (obligations.map SettlementObligation.amount) = total - share payer := by
  have amounts : obligations.map SettlementObligation.amount = debtors.map Prod.snd :=
    map_eq_of_forall₂ (fun _ _ submits => Submits.amount submits) submitted
  rw [amounts]
  refine sumFrom_eq_of_held (forall_mem_map.mpr fun entry inside => ?_) settled.collected
    settled.collection_held
  obtain ⟨listed, _, positive, same⟩ := (settled.debtor entry).mp inside
  rw [same]
  exact ⟨(settled.shares entry.1 listed).held.atScale, positive.le⟩

theorem reconcileCollection_ok : reconcileCollection unit snapshot obligations = .ok () := by
  refine (if_neg (by simp [settled.totalRead.stated, settled.own.stated])).trans ?_
  refine bind_ok.mpr ⟨_, settled.totalRead _, bind_ok.mpr ⟨_, settled.own _, require_ok.mpr ?_⟩⟩
  rw [settled.sum_submitted submitted, sub, settled.collection_held.fix]

/-- Every check of the snapshot passes for a settled split and its obligations. -/
theorem validateCalculationSnapshot_ok (order : SetOrder) :
    validateCalculationSnapshot order unit payer obligations snapshot = .ok () := by
  have perm := order.perm snapshot.participants
  have nonempty : snapshot.participants ≠ [] := ne_nil_of_mem settled.payerIn
  have payerNamed := settled.named payer settled.payerIn
  have missing : ((order.visit snapshot.participants).filter fun person =>
      person ∉ snapshot.participantShares.keys) = [] := by
    rw [filter_eq_nil_iff]
    intro person member outside
    exact of_decide_eq_true outside (settled.shareKeys.symm.subset (perm.subset member))
  have extra : (snapshot.participantShares.keys.filter fun key => key ∉ order.visit snapshot.participants) = [] := by
    rw [filter_eq_nil_iff]
    intro key member outside
    exact of_decide_eq_true outside (perm.symm.subset (settled.shareKeys.subset member))
  have known : ∀ entry ∈ snapshot.settlementObligations.zipIdx,
      requireKnownParties (order.visit snapshot.participants) entry = .ok () := by
    intro entry member
    obtain ⟨debt, inside, asks⟩ := exists_of_mem_forall₂ settled.asked (fst_mem_of_mem_zipIdx member)
    have debtorIn := perm.symm.subset ((settled.debtor debt).mp inside).1
    unfold requireKnownParties
    rw [asks.debtor, asks.creditor]
    exact bind_ok.mpr ⟨(), require_ok.mpr (Or.inr debtorIn),
      require_ok.mpr (Or.inr (perm.symm.subset settled.payerIn))⟩
  simp only [validateCalculationSnapshot, bind_ok, expect_ok, require_ok, forM_ok]
  exact ⟨(), settled.obligationsMatch submitted, payer, settled.payerNamed, (), payerNamed, (), rfl, (), nonempty, (),
    settled.nodup, (), fun entry member => require_ok.mpr (settled.named entry.1 (fst_mem_of_mem_zipIdx member)), (),
    perm.symm.subset settled.payerIn, (), ⟨missing, extra⟩, (), settled.shareTotalReconciliation perm, (),
    settled.balanceConsistency perm, (), known, settled.reconcileCollection_ok submitted⟩

end Settled

end Checks

end FinanceCore.ReceiptFinalization

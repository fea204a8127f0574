import FinanceCore.Calculators.StatedShares
import FinanceCore.Foundation.SignedSums
import FinanceCore.ReceiptFinalization.Models
import FinanceCore.Settlement.Entries

namespace FinanceCore.ReceiptFinalization

open Calculators (moneyValue moneyValue_of_read)
open Decimal Exceptions Money List Context Dict

variable {context ctx : Context} {unit : Currency} {snapshot : CalculationSnapshot} {result : Unit}

section Abstract

variable {κ : Type} [DecidableEq κ]

/-- A split in which one payer paid everything and is owed the shares of the others. -/
structure SinglePayerSplit (participants : List κ) (payer : κ) (total : ℚ)
    (share debt : κ → ℚ) : Prop where
  nodup : participants.Nodup
  payerIn : payer ∈ participants
  nonneg : ∀ participant ∈ participants, participant ≠ payer → 0 ≤ share participant
  covered : share payer ≤ total
  balanced : (participants.map share).sum = total
  asked : ∀ participant ∈ participants, participant ≠ payer → debt participant = share participant

variable {people : List κ} {payer : κ} {total : ℚ} {share debt : κ → ℚ}

section

variable (split : SinglePayerSplit people payer total share debt)
include split

/-- The debts of the others collect what the payer did not consume. -/
theorem SinglePayerSplit.collected : ((people.erase payer).map debt).sum = total - share payer := by
  have same : (people.erase payer).map debt = (people.erase payer).map share := by
    apply map_congr_left
    intro person member
    have inside := (split.nodup.mem_erase_iff).mp member
    exact split.asked person inside.2 inside.1
  have whole := sum_map_erase share split.payerIn
  rw [split.balanced] at whole
  rw [same]
  linarith

/-- Nobody but the payer is asked for more than the payer laid out for the others. -/
theorem SinglePayerSplit.share_le {person : κ} (member : person ∈ people)
    (other : person ≠ payer) : share person ≤ total - share payer := by
  have inside : person ∈ people.erase payer := (split.nodup.mem_erase_iff).mpr ⟨other, member⟩
  rw [← split.collected, ← split.asked person member other]
  refine single_le_sum ?_ _ (mem_map_of_mem inside)
  intro amount listed
  obtain ⟨debtor, among, rfl⟩ := mem_map.mp listed
  have known := (split.nodup.mem_erase_iff).mp among
  rw [split.asked debtor known.2 known.1]
  exact split.nonneg debtor known.2 known.1

/-- The participants, the payer, the total and the debts determine every share. -/
theorem SinglePayerSplit.determined {others : List κ} {otherShare otherDebt : κ → ℚ}
    (other : SinglePayerSplit others payer total otherShare otherDebt) (same : people.Perm others)
    (debts : ∀ debtor, debt debtor = otherDebt debtor) : ∀ person ∈ people, share person = otherShare person := by
  intro person member
  by_cases own : person = payer
  · have collected := split.collected
    have otherCollected := other.collected
    rw [map_congr_left fun debtor _ => debts debtor, ((same.erase payer).map otherDebt).sum_eq] at collected
    rw [own]
    linarith
  · rw [← split.asked person member own, ← other.asked person (same.mem_iff.mp member) own, debts]

end

/-- Amounts grouped by their labels add up to all amounts. -/
theorem sum_by_label {α : Type} {label : α → κ} {amount : α → ℚ} {labels : List κ}
    (nodup : labels.Nodup) {values : List α} (labelled : ∀ value ∈ values, label value ∈ labels) :
    (labels.map fun key => ((values.filter fun value => label value = key).map amount).sum).sum =
      (values.map amount).sum := by
  induction values with
  | nil => simp
  | cons head rest ih =>
    have step (key : κ) : (((head :: rest).filter fun value => label value = key).map amount).sum =
        (if key = label head then amount head else 0) +
          ((rest.filter fun value => label value = key).map amount).sum := by
      by_cases same : label head = key
      · simp [same]
      · simp [same, Ne.symm same]
    have single : (labels.map fun key => if key = label head then amount head else 0).sum = amount head := by
      rw [sum_map_ite_eq, count_eq_one_of_mem nodup (labelled head (by simp))]
      simp
    simp only [step]
    rw [sum_map_add, single, ih fun value member => labelled value (by simp [member]), map_cons, sum_cons]

end Abstract

section Amounts

theorem validatedAmount_value {raw : RawMoney} {label : AmountLabel} {amount : ℚ}
    (run : validatedAmount ctx unit raw label = .ok amount) :
    amount = moneyValue raw ∧ ctx.Holds (minorUnits unit) amount := by
  simp only [validatedAmount, bind_ok] at run
  obtain ⟨number, read, _, scale, run⟩ := run
  obtain rfl := pure_ok.mp run
  exact ⟨(moneyValue_of_read (mapError_ok.mp read)).symm, validateAmountForCurrency_ok.mp (mapError_ok.mp scale)⟩

@[simp] theorem roundForCurrency_ok {value result : ℚ} :
    roundForCurrency ctx unit value = .ok result ↔ ctx.quantize halfUp (minorUnits unit) value = some result := by
  rw [roundForCurrency, mapError_ok, quantizeForCurrency_eq_ok]

variable {person : String}

theorem requireRoundedEqual_held {first second : ℚ} {failure : FinalizationError}
    (firstHeld : ctx.Holds (minorUnits unit) first)
    (secondHeld : ctx.Holds (minorUnits unit) second)
    (run : requireRoundedEqual ctx unit first second failure = .ok result) : first = second := by
  obtain ⟨left, leftRun, run⟩ := bind_ok.mp run
  obtain ⟨right, rightRun, run⟩ := bind_ok.mp run
  rw [roundForCurrency_ok, firstHeld.quantize] at leftRun
  rw [roundForCurrency_ok, secondHeld.quantize] at rightRun
  rw [Option.some.inj leftRun, Option.some.inj rightRun]
  exact require_ok.mp run

theorem reconcileTotal_stated {found : Option ℚ} (stated : snapshot.totalPaid ≠ .missing)
    (run : reconcileTotal ctx unit snapshot = .ok found) :
    found = some (moneyValue snapshot.totalPaid) ∧ ctx.Holds (minorUnits unit) (moneyValue snapshot.totalPaid) := by
  rw [reconcileTotal, if_neg stated] at run
  simp only [bind_ok, pure_ok] at run
  obtain ⟨total, read, _, _, _, _, _, _, rfl⟩ := run
  obtain ⟨rfl, held⟩ := validatedAmount_value read
  exact ⟨rfl, held⟩

/-- The payer paid the total and nobody else paid. -/
theorem reconcilePaid_value {total : ℚ} {paidAmounts : Dict String RawMoney} {payer : String}
    (held : ctx.Holds (minorUnits unit) total)
    (run : reconcilePaid ctx unit (some total) paidAmounts payer person = .ok result) :
    moneyValue (amountOf paidAmounts person) = if person = payer then total else 0 := by
  obtain ⟨paid, read, run⟩ := bind_ok.mp run
  obtain ⟨rfl, paidHeld⟩ := validatedAmount_value read
  split_ifs at run ⊢ with same
  · exact requireRoundedEqual_held paidHeld held run
  · obtain ⟨rounded, roundedRun, run⟩ := bind_ok.mp run
    rw [roundForCurrency_ok, paidHeld.quantize] at roundedRun
    rw [Option.some.inj roundedRun]
    exact require_ok.mp run

theorem participantBalance_value {entry : String × ℚ}
    (run : participantBalance ctx unit snapshot person = .ok entry) :
    entry = (person, moneyValue (amountOf (snapshot.payerPaidAmounts.getD empty) person) -
        moneyValue (amountOf snapshot.participantShares person)) ∧
        ctx.Holds (minorUnits unit) entry.2 := by
  simp only [participantBalance, bind_ok, pure_ok] at run
  obtain ⟨paid, paidRead, share, shareRead, balance, rounded, rfl⟩ := run
  obtain ⟨rfl, paidHeld⟩ := validatedAmount_value paidRead
  obtain ⟨rfl, shareHeld⟩ := validatedAmount_value shareRead
  obtain ⟨rfl, held⟩ := quantize_fix (paidHeld.atScale.sub shareHeld.atScale) (roundForCurrency_ok.mp rounded)
  exact ⟨rfl, held⟩

end Amounts

/-- What the complete entries of a snapshot ask of one debtor. -/
def snapshotDebt (obligations : List SnapshotObligation) (debtor : String) : ℚ :=
  ((obligations.filter fun obligation => obligation.debtor = some debtor).map fun obligation =>
    moneyValue (obligation.amount.getD .missing)).sum

/-- An entry with both parties and a stated amount. -/
def SnapshotObligation.Complete (obligation : SnapshotObligation) : Prop :=
  ∃ debtor creditor amount, obligation.debtor = some debtor ∧ obligation.creditor = some creditor ∧
    obligation.amount = some amount ∧ debtor ≠ "" ∧ creditor ≠ "" ∧ amount ≠ .missing

theorem addDebt_value {amounts next : Dict String ℚ} {debt : SnapshotObligation}
    (complete : debt.Complete)
    (scaled : ∀ debtor, ctx.Holds (minorUnits unit) ((amounts.get? debtor).getD 0))
    (run : addDebt ctx unit amounts debt = .ok next) (debtor : String) :
    (next.get? debtor).getD 0 = (amounts.get? debtor).getD 0 + snapshotDebt [debt] debtor ∧
      ctx.Holds (minorUnits unit) ((next.get? debtor).getD 0) := by
  obtain ⟨owner, creditor, amount, ownerIs, creditorIs, amountIs, someOwner, someCreditor, someAmount⟩ := complete
  rw [addDebt, ownerIs, creditorIs, amountIs] at run
  dsimp only at run
  rw [if_pos ⟨someOwner, someCreditor, someAmount⟩] at run
  obtain ⟨value, read, run⟩ := bind_ok.mp run
  obtain ⟨sum, rounded, run⟩ := bind_ok.mp run
  obtain rfl := pure_ok.mp run
  obtain ⟨rfl, held⟩ := validatedAmount_value read
  obtain ⟨rfl, sumHeld⟩ := quantize_fix ((scaled owner).atScale.add held.atScale) (roundForCurrency_ok.mp rounded)
  rw [get?_set]
  by_cases same : debtor = owner
  · subst same
    rw [if_pos rfl]
    exact ⟨by simp [snapshotDebt, ownerIs, amountIs], sumHeld⟩
  · rw [if_neg same]
    refine ⟨?_, scaled debtor⟩
    simp [snapshotDebt, ownerIs, Ne.symm same]

theorem snapshotDebt_append (first second : List SnapshotObligation) (debtor : String) :
    snapshotDebt (first ++ second) debtor = snapshotDebt first debtor + snapshotDebt second debtor := by
  simp [snapshotDebt]

/-- The loop over the obligations adds up what every debtor owes. -/
theorem addDebts_value {debts : List SnapshotObligation} {amounts : Dict String ℚ}
    (complete : ∀ debt ∈ debts, debt.Complete)
    (run : debts.foldlM (addDebt ctx unit) empty = .ok amounts) (debtor : String) :
    (amounts.get? debtor).getD 0 = snapshotDebt debts debtor := by
  refine (foldlM_visited (fun before state => ∀ debtor, (state.get? debtor).getD 0 = snapshotDebt before debtor ∧
        ctx.Holds (minorUnits unit) ((state.get? debtor).getD 0))
    (fun before debt after state next same held step => ?_) (fun debtor => ?_) run debtor).1
  · intro debtor
    have added := addDebt_value (complete debt (by simp [same])) (fun debtor => (held debtor).2) step debtor
    rw [snapshotDebt_append, ← (held debtor).1]
    exact added
  · exact ⟨rfl, holds_zero _ _⟩

section Balances

section

variable (snapshot : CalculationSnapshot)

def shareValue (participant : String) : ℚ :=
  moneyValue (amountOf snapshot.participantShares participant)

def paidValue (participant : String) : ℚ :=
  moneyValue (amountOf (snapshot.payerPaidAmounts.getD Dict.empty) participant)

def balanceValue (participant : String) : ℚ :=
  paidValue snapshot participant - shareValue snapshot participant

end

variable {people : List String} {payer : String}

variable {balances : List (String × ℚ)}

theorem balances_value (run : people.mapM (participantBalance ctx unit snapshot) = .ok balances) :
    balances = people.map (fun person => (person, balanceValue snapshot person)) ∧
      ∀ person ∈ people, ctx.Holds (minorUnits unit) (balanceValue snapshot person) := by
  have each := (mapM_ok.mp run).imp fun _ _ done => participantBalance_value done
  have same : balances.map id = people.map fun person =>
      (person, balanceValue snapshot person) := map_eq_of_forall₂ (fun _ _ held => held.1) each
  rw [map_id] at same
  refine ⟨same, fun person member => ?_⟩
  have listed : (person, balanceValue snapshot person) ∈ balances := by
    rw [same]
    exact mem_map_of_mem member
  obtain ⟨_, _, held⟩ := exists_of_mem_forall₂ each listed
  exact held.2

/-- Only the payer has a positive balance in an accepted snapshot. -/
theorem balance_signs (single : (people.filter fun person => 0 < balanceValue snapshot person) = [payer] ∨
      ∀ person ∈ people, balanceValue snapshot person = 0) (payerIn : payer ∈ people) :
    0 ≤ balanceValue snapshot payer ∧ ∀ person ∈ people, person ≠ payer →
      balanceValue snapshot person ≤ 0 := by
  rcases single with creditor | zero
  · constructor
    · have listed : payer ∈ people.filter fun person => 0 < balanceValue snapshot person := by
        rw [creditor]
        exact mem_singleton_self payer
      exact (of_decide_eq_true (mem_filter.mp listed).2).le
    · intro person member other
      by_contra positive
      have listed : person ∈ people.filter fun person => 0 < balanceValue snapshot person :=
        mem_filter.mpr ⟨member, decide_eq_true (not_le.mp positive)⟩
      rw [creditor, mem_singleton] at listed
      exact other listed
  · exact ⟨(zero payer payerIn).ge, fun person member _ => (zero person member).le⟩

/-- Balances of one creditor that round to zero are exactly zero in total. -/
theorem balances_zero (nodup : people.Nodup) (payerIn : payer ∈ people)
    (held : ∀ person ∈ people, ctx.Holds (minorUnits unit) (balanceValue snapshot person))
    (gain : 0 ≤ balanceValue snapshot payer)
    (losses : ∀ person ∈ people, person ≠ payer → balanceValue snapshot person ≤ 0)
    (zero : ctx.quantize halfUp (minorUnits unit) (ctx.sumFrom 0 (people.map (balanceValue snapshot))) = some 0) :
    (people.map (balanceValue snapshot)).sum = 0 := by
  have scaled : ∀ value ∈ people.map (balanceValue snapshot), AtScale (minorUnits unit) value := by
    exact forall_mem_map.mpr fun person inside => (held person inside).atScale
  have final := (quantize_atScale (sumFrom_atScale (AtScale.zero _) scaled) zero).1
  obtain ⟨before, after, rfl⟩ := append_of_mem payerIn
  have order : (before ++ payer :: after).Perm (payer :: (before ++ after)) := perm_middle
  have others : ∀ value ∈ (before ++ after).map (balanceValue snapshot), AtScale (minorUnits unit) value ∧ value ≤ 0 := by
    refine forall_mem_map.mpr fun person inside => ?_
    have listed := order.mem_iff.mpr (mem_cons_of_mem _ inside)
    have distinct := (nodup_cons.mp (order.nodup_iff.mp nodup)).1
    exact ⟨(held person listed).atScale, losses person listed fun same => distinct (same ▸ inside)⟩
  rw [map_append] at others
  rw [map_append, map_cons] at final ⊢
  have exactly := sumsExactly_of_one_gain (holds_zero _ _) le_rfl (held payer payerIn) gain
    (fun value member => (others value member).1) (fun value member => (others value member).2) final.le
  rw [exactly.sumFrom_eq, zero_add] at final
  exact final.symm

/-- Held debts are not changed by the rounding. -/
theorem expectedDebtorAmounts_perm {expected : List (String × ℚ)}
    (held : ∀ entry ∈ balances, ctx.Holds (minorUnits unit) entry.2)
    (run : expectedDebtorAmounts ctx unit (debtorsOf ctx balances) = .ok expected) :
    expected.Perm ((balances.filter fun entry => entry.2 < 0).map fun entry => (entry.1, -entry.2)) := by
  have exact : debtorsOf ctx balances =
      (balances.filter fun entry => entry.2 < 0).map fun entry => (entry.1, -entry.2) := by
    refine map_congr_left fun entry member => ?_
    rw [Context.neg, (held entry (mem_of_mem_filter member)).neg.fix]
  have debtorsHeld : ∀ entry ∈ debtorsOf ctx balances, ctx.Holds (minorUnits unit) entry.2 := by
    rw [exact]
    exact forall_mem_map.mpr fun balance inside => (held balance (mem_of_mem_filter inside)).neg
  have sorted := perm_insertionSort (fun entry other : String × ℚ => entry.1 ≤ other.1) (debtorsOf ctx balances)
  have success : expectedDebtorAmounts ctx unit (debtorsOf ctx balances) =
      .ok ((debtorsOf ctx balances).insertionSort fun entry other => entry.1 ≤ other.1) := by
    rw [expectedDebtorAmounts, mapM_ok, forall₂_same]
    intro entry member
    rw [map_ok]
    refine ⟨entry.2, roundForCurrency_ok.mpr ?_, rfl⟩
    exact (debtorsHeld entry (sorted.mem_iff.mp member)).quantize halfUp
  rw [Except.ok.inj (run.symm.trans success), ← exact]
  exact sorted

/-- What the comparison of the balances with the obligations establishes. -/
structure BalanceOutcome (snapshot : CalculationSnapshot) (participants : List String)
    (payer : String) : Prop where
  creditor : (participants.filter fun participant => 0 < balanceValue snapshot participant) = [payer] ∨
    ∀ participant ∈ participants, balanceValue snapshot participant = 0
  debts : ∀ participant ∈ participants, balanceValue snapshot participant ≤ 0 →
    snapshotDebt snapshot.settlementObligations participant = -balanceValue snapshot participant

theorem balanceOutcome_of_run (complete : ∀ debt ∈ snapshot.settlementObligations, debt.Complete)
    (held : ∀ person ∈ people, ctx.Holds (minorUnits unit) (balanceValue snapshot person))
    (run : (let balances := people.map fun person => (person, balanceValue snapshot person)
      if debtorsOf ctx balances = [] ∧ creditorsOf balances = [] then
        require (snapshot.settlementObligations = []) .obligationsWithoutBalance
      else do
        require ((creditorsOf balances).map Prod.fst = [payer]) (.notSoleCreditor ((creditorsOf balances).map Prod.fst))
        let expected ← expectedDebtorAmounts ctx unit (debtorsOf ctx balances)
        let actual ← snapshot.settlementObligations.foldlM (addDebt ctx unit) empty
        require (expected.Perm actual.entries) .debtorAmountsDiffer) = .ok result) :
    BalanceOutcome snapshot people payer := by
  dsimp only at run
  have creditors : (creditorsOf (people.map fun person =>
      (person, balanceValue snapshot person))).map Prod.fst =
      people.filter fun person => 0 < balanceValue snapshot person := by
    rw [creditorsOf, filter_map, map_map]
    exact map_id _
  have entriesHeld : ∀ entry ∈ people.map fun person => (person, balanceValue snapshot person),
      ctx.Holds (minorUnits unit) entry.2 := by
    exact forall_mem_map.mpr held
  split at run
  · next nobody =>
    have empty := require_ok.mp run
    have zero : ∀ person ∈ people, balanceValue snapshot person = 0 := by
      intro person member
      have noDebtor := filter_eq_nil_iff.mp (map_eq_nil_iff.mp nobody.1)
        (person, balanceValue snapshot person) (mem_map_of_mem member)
      have noCreditor := filter_eq_nil_iff.mp nobody.2 (person, balanceValue snapshot person) (mem_map_of_mem member)
      rw [decide_eq_true_iff, not_lt] at noDebtor noCreditor
      exact le_antisymm noCreditor noDebtor
    refine ⟨.inr zero, fun person member _ => ?_⟩
    rw [empty, zero person member]
    simp [snapshotDebt]
  · simp only [bind_ok, require_ok] at run
    obtain ⟨_, sole, expected, debts, actual, added, run⟩ := run
    have same := run
    have listed := expectedDebtorAmounts_perm entriesHeld debts
    refine ⟨.inl (creditors ▸ sole), fun person member loss => ?_⟩
    rw [← addDebts_value complete added person]
    have iff (amount : ℚ) : (person, amount) ∈ actual.entries ↔
        balanceValue snapshot person < 0 ∧ amount = -balanceValue snapshot person := by
      rw [← same.mem_iff, listed.mem_iff]
      simp only [mem_map, mem_filter, decide_eq_true_eq]
      constructor
      · rintro ⟨_, ⟨⟨owner, _, rfl⟩, negative⟩, equal⟩
        obtain ⟨rfl, rfl⟩ := Prod.mk.inj equal
        exact ⟨negative, rfl⟩
      · rintro ⟨negative, rfl⟩
        exact ⟨_, ⟨⟨person, member, rfl⟩, negative⟩, rfl⟩
    rcases loss.lt_or_eq with negative | zero
    · rw [get?_of_mem_entries ((iff _).mpr ⟨negative, rfl⟩), Option.getD_some]
    · cases found : actual.get? person with
      | none => rw [Option.getD_none, zero, neg_zero]
      | some amount =>
        have owed := ((iff amount).mp (mem_entries_of_get? found)).1
        exact absurd owed (by rw [zero]; exact lt_irrefl 0)

/-- The balance checks leave a split in which the payer is owed the shares of the others. -/
theorem validateBalance_split {total : ℚ} (nodup : people.Nodup) (payerIn : payer ∈ people)
    (paid : ∀ person ∈ people, paidValue snapshot person = if person = payer then total else 0)
    (complete : ∀ debt ∈ snapshot.settlementObligations, debt.Complete)
    (run : validateBalanceObligationConsistency ctx unit snapshot people payer = .ok result) :
    SinglePayerSplit people payer total (shareValue snapshot) (snapshotDebt snapshot.settlementObligations) := by
  simp only [validateBalanceObligationConsistency, bind_ok, require_ok] at run
  obtain ⟨balances, balanced, rounded, summed, _, zero, run⟩ := run
  obtain ⟨rfl, held⟩ := balances_value balanced
  obtain rfl := zero
  have summed := roundForCurrency_ok.mp summed
  rw [map_map] at summed
  have outcome := balanceOutcome_of_run complete held run
  obtain ⟨gain, losses⟩ := balance_signs outcome.creditor payerIn
  have closed := balances_zero nodup payerIn held gain losses summed
  have paidSum : (people.map (paidValue snapshot)).sum = total := by
    rw [Settlement.sum_single nodup payerIn fun person member other => (paid person member).trans (if_neg other),
      paid payer payerIn, if_pos rfl]
  have split : (people.map (balanceValue snapshot)).sum + (people.map (shareValue snapshot)).sum =
      (people.map (paidValue snapshot)).sum := by
    rw [← sum_map_add]
    simp [balanceValue]
  have payerPaid := paid payer payerIn
  rw [if_pos rfl] at payerPaid
  refine ⟨nodup, payerIn, ?_, ?_, by linarith, ?_⟩
  · intro person member other
    have loss := losses person member other
    rw [balanceValue, paid person member, if_neg other] at loss
    linarith
  · rw [balanceValue] at gain
    linarith
  · intro person member other
    have loss := losses person member other
    rw [outcome.debts person member loss, balanceValue, paid person member, if_neg other]
    ring

end Balances

/-- What a list of obligations asks of one debtor. -/
def owed (obligations : List (SettlementObligation context)) (debtor : String) : ℚ :=
  ((obligations.filter fun obligation => obligation.debtor = debtor).map SettlementObligation.amount).sum

def canonicalDebt (obligations : List CanonicalObligation) (debtor : String) : ℚ :=
  ((obligations.filter fun obligation => obligation.1 = debtor).map fun obligation => obligation.2.2.1).sum

/-- A snapshot entry and the tuple that it is compared as. -/
structure Describes (obligation : SnapshotObligation) (canonical : CanonicalObligation) : Prop where
  complete : obligation.Complete
  debtor : obligation.debtor = some canonical.1
  amount : moneyValue (obligation.amount.getD .missing) = canonical.2.2.1

theorem canonicalFromMapping_describes {entry : SnapshotObligation × ℕ}
    {canonical : CanonicalObligation}
    (run : canonicalFromMapping entry = .ok canonical) : Describes entry.1 canonical := by
  simp only [canonicalFromMapping, bind_ok] at run
  obtain ⟨debtor, debtorIs, creditor, creditorIs, amount, amountIs, unit, currencyIs, _, someDebtor, _,
    someCreditor, _, _, number, read, run⟩ := run
  obtain rfl := pure_ok.mp run
  have read := mapError_ok.mp read
  have amountIs := expect_ok.mp amountIs
  refine ⟨⟨debtor, creditor, amount, expect_ok.mp debtorIs, expect_ok.mp creditorIs, amountIs,
    require_ok.mp someDebtor, require_ok.mp someCreditor, ?_⟩, expect_ok.mp debtorIs, ?_⟩
  · rintro rfl
    cases read
  · rw [amountIs]
    exact moneyValue_of_read read

theorem snapshotDebt_eq {debts : List SnapshotObligation} {canonical : List CanonicalObligation}
    (described : Forall₂ Describes debts canonical) (debtor : String) :
    snapshotDebt debts debtor = canonicalDebt canonical debtor := by
  induction described with
  | nil => rfl
  | cons head _ ih =>
    unfold snapshotDebt canonicalDebt at ih ⊢
    simp only [filter_cons, head.debtor, Option.some.injEq]
    split_ifs
    · rw [map_cons, map_cons, sum_cons, sum_cons, ih, head.amount]
    · exact ih

theorem canonicalDebt_map (debts : List (SettlementObligation ctx)) (debtor : String) :
    canonicalDebt (debts.map canonicalFromObligation) debtor = owed debts debtor := by
  rw [canonicalDebt, filter_map, map_map]
  rfl

/-- Matching the snapshot means asking every debtor for the same amount. -/
theorem validateObligationsMatch_debts {debts : List (SettlementObligation ctx)}
    {expected : List SnapshotObligation}
    (run : validateObligationsMatchSnapshot debts expected = .ok result) :
    (∀ debt ∈ expected, debt.Complete) ∧ (∀ debtor, owed debts debtor = snapshotDebt expected debtor) ∧
      ∀ debt ∈ debts, ∃ entry ∈ expected, entry.debtor = some debt.debtor := by
  obtain ⟨_, _, run⟩ := bind_ok.mp run
  obtain ⟨canonical, mapped, run⟩ := bind_ok.mp run
  have same := require_ok.mp run
  have described : Forall₂ Describes expected canonical := by
    have each := (mapM_ok.mp mapped).imp fun _ _ done => canonicalFromMapping_describes done
    rw [← forall₂_map_left_iff, zipIdx_map_fst] at each
    exact each
  have perm : (debts.map canonicalFromObligation).Perm canonical := by
    have left := perm_insertionSort obligationBefore (debts.map canonicalFromObligation)
    rw [same] at left
    exact left.symm.trans (perm_insertionSort obligationBefore canonical)
  refine ⟨?_, ?_, ?_⟩
  · intro debt member
    obtain ⟨_, _, held⟩ := exists_of_mem_forall₂ described.flip member
    exact held.complete
  · intro debtor
    rw [snapshotDebt_eq described, ← canonicalDebt_map]
    exact ((perm.filter _).map _).sum_eq
  · intro debt member
    obtain ⟨entry, inside, held⟩ := exists_of_mem_forall₂ described (perm.subset (mem_map_of_mem member))
    exact ⟨entry, inside, held.debtor⟩

/-- What the construction of an input establishes about its snapshot. -/
structure AcceptedFacts (input : FinalizationInput context) : Prop where
  nodup : input.snapshot.participants.Nodup
  payerIn : input.request.payerParticipantPublicId ∈ input.snapshot.participants
  creditor : ∀ obligation ∈ input.request.settlementObligations,
    obligation.creditor = input.request.payerParticipantPublicId
  complete : ∀ obligation ∈ input.snapshot.settlementObligations, obligation.Complete
  debts : ∀ debtor, owed input.request.settlementObligations debtor =
    snapshotDebt input.snapshot.settlementObligations debtor
  debtorIn : ∀ obligation ∈ input.request.settlementObligations, obligation.debtor ∈ input.snapshot.participants
  reconciled : validateShareTotalReconciliation context input.currency input.snapshot
    (input.order.visit input.snapshot.participants) input.request.payerParticipantPublicId = .ok ()
  consistent : validateBalanceObligationConsistency context input.currency input.snapshot
    (input.order.visit input.snapshot.participants) input.request.payerParticipantPublicId = .ok ()

section

variable (input : FinalizationInput ctx)
include input

theorem FinalizationInput.facts : AcceptedFacts input := by
  have run := input.accepted
  simp only [acceptRequest, bind_ok, pure_ok, Prod.mk.injEq] at run
  obtain ⟨_, _, _, _, snapshot, _, unit, _, _, headers, _, validated, rfl, rfl⟩ := run
  simp only [validateCalculationSnapshot, bind_ok, require_ok] at validated
  obtain ⟨_, matched, payer, _, _, _, _, samePayer, _, _, _, nodup, _, _, _, payerIn, _, _, _, reconciled, _,
    consistent, _, known, validated⟩ := validated
  obtain rfl := samePayer
  obtain ⟨complete, debts, listed⟩ := validateObligationsMatch_debts matched
  refine ⟨nodup, (input.order.perm _).subset payerIn, ?_, complete, debts, ?_, reconciled, consistent⟩
  · intro debt member
    obtain ⟨_, _, last⟩ := bind_ok.mp (forM_ok.mp headers debt member)
    exact require_ok.mp last
  · intro debt member
    obtain ⟨entry, inside, debtor⟩ := listed debt member
    rw [← zipIdx_map_fst 0 input.snapshot.settlementObligations] at inside
    obtain ⟨indexed, pair, rfl⟩ := mem_map.mp inside
    obtain ⟨_, member, _⟩ := bind_ok.mp (forM_ok.mp known indexed pair)
    have member := require_ok.mp member
    obtain ⟨_, _, _, owner, _, _, someOwner, _⟩ := complete indexed.1 (fst_mem_of_mem_zipIdx pair)
    rw [debtor] at owner
    obtain rfl := Option.some.inj owner
    rw [debtor] at member
    exact (input.order.perm _).subset (member.resolve_left someOwner)

section

variable (total : input.snapshot.totalPaid ≠ .missing) (paid : input.snapshot.payerPaidAmounts.isSome)
include total paid

/-- In an accepted input with a stated total and stated payments the payer paid the total and nobody else paid. -/
theorem FinalizationInput.paid_value {person : String} (member : person ∈ input.snapshot.participants) :
    paidValue input.snapshot person =
      if person = input.request.payerParticipantPublicId then moneyValue input.snapshot.totalPaid else 0 := by
  have facts := input.facts
  obtain ⟨paidAmounts, paidIs⟩ := Option.isSome_iff_exists.mp paid
  obtain ⟨found, totalRun, run⟩ := bind_ok.mp facts.reconciled
  obtain ⟨_, _, run⟩ := bind_ok.mp run
  obtain ⟨_, _, run⟩ := bind_ok.mp run
  obtain ⟨rfl, held⟩ := reconcileTotal_stated total totalRun
  rw [reconcilePaidAmounts, paidIs] at run
  obtain ⟨_, _, run⟩ := bind_ok.mp run
  obtain ⟨_, _, run⟩ := bind_ok.mp run
  have visited := (input.order.perm input.snapshot.participants).mem_iff.mpr member
  rw [paidValue, paidIs]
  exact reconcilePaid_value held (forM_ok.mp run person visited)

/-- An accepted input with a stated total and stated payments is a single-payer split. -/
theorem FinalizationInput.split :
    SinglePayerSplit input.snapshot.participants input.request.payerParticipantPublicId
      (moneyValue input.snapshot.totalPaid) (shareValue input.snapshot)
      (owed input.request.settlementObligations) := by
  have facts := input.facts
  have visited := input.order.perm input.snapshot.participants
  have split : SinglePayerSplit (input.order.visit input.snapshot.participants)
      input.request.payerParticipantPublicId (moneyValue input.snapshot.totalPaid) (shareValue input.snapshot)
      (snapshotDebt input.snapshot.settlementObligations) := by
    apply validateBalance_split (visited.nodup_iff.mpr facts.nodup) (visited.mem_iff.mpr facts.payerIn) _
      facts.complete facts.consistent
    intro person member
    exact input.paid_value total paid (visited.mem_iff.mp member)
  refine ⟨facts.nodup, facts.payerIn, ?_, split.covered, ?_, ?_⟩
  · intro person member
    exact split.nonneg person (visited.mem_iff.mpr member)
  · rw [← split.balanced]
    exact (visited.map _).sum_eq.symm
  · intro person member other
    rw [facts.debts]
    exact split.asked person (visited.mem_iff.mpr member) other

/-- Together the obligations ask for what the payer did not consume. -/
theorem FinalizationInput.collected_value :
    (input.request.settlementObligations.map SettlementObligation.amount).sum =
      moneyValue input.snapshot.totalPaid - shareValue input.snapshot input.request.payerParticipantPublicId := by
  have facts := input.facts
  rw [← (input.split total paid).collected]
  refine (sum_by_label (facts.nodup.erase _) fun debt member => ?_).symm
  refine (facts.nodup.mem_erase_iff).mpr ⟨?_, facts.debtorIn debt member⟩
  rw [← facts.creditor debt member]
  exact debt.parties

end

end

/-- The shares of the others are not negative and are exactly what they owe; together they owe what the payer did
not consume. Every share lies between zero and the total as soon as the payer's own share is not negative. -/
theorem accepted_share_bounds (input : FinalizationInput context)
    (total : input.snapshot.totalPaid ≠ .missing) (paid : input.snapshot.payerPaidAmounts.isSome) :
    let payer := input.request.payerParticipantPublicId
    let totalPaid := moneyValue input.snapshot.totalPaid
    let share := shareValue input.snapshot
    (∀ participant ∈ input.snapshot.participants, participant ≠ payer → 0 ≤ share participant) ∧
      share payer ≤ totalPaid ∧
      (0 ≤ share payer → ∀ participant ∈ input.snapshot.participants,
        0 ≤ share participant ∧ share participant ≤ totalPaid) ∧
      (∀ participant ∈ input.snapshot.participants, participant ≠ payer →
        owed input.request.settlementObligations participant = share participant) ∧
      (input.request.settlementObligations.map SettlementObligation.amount).sum = totalPaid - share payer := by
  have split := input.split total paid
  refine ⟨split.nonneg, split.covered, fun own participant member => ?_, split.asked, input.collected_value total paid⟩
  by_cases same : participant = input.request.payerParticipantPublicId
  · subst same
    exact ⟨own, split.covered⟩
  · have bound := split.share_le member same
    exact ⟨split.nonneg participant member same, by linarith⟩

/-- Ana paid a receipt and Ben owes his share. -/
def dinnerSnapshot (anaShare benShare totalPaid : String) : CalculationSnapshot where
  participants := ["ana", "ben"]
  payer := some "ana"
  participantShares := Dict.ofList [("ana", .text anaShare), ("ben", .text benShare)]
  totalParticipantShares := none
  payerPaidAmounts := some (Dict.ofList [("ana", .text totalPaid)])
  payerOwnShares := none
  settlementObligations := [⟨some "ben", some "ana", some (.text benShare), some "SGD"⟩]
  totalPaid := .text totalPaid
  payerOwnShare := .text anaShare
  totalToCollect := none
  receipts := []

def dinnerRequest (anaShare benShare totalPaid : String)
    (owed : SettlementObligation Context.standard) :
    FinalizationRequest Context.standard where
  calculationRunPublicId := "run_1"
  receiptGroupPublicId := "group_1"
  currency := "SGD"
  payerParticipantPublicId := "ana"
  settlementObligations := [owed]
  calculationSnapshot := dinnerSnapshot anaShare benShare totalPaid

def benOwes (amount : ℚ) (positive : 0 < amount) (held : Context.standard.Holds 2 amount) :
    SettlementObligation Context.standard :=
  ⟨"ben", "ana", amount, .sgd, by decide, positive, held⟩

theorem accepted_share_bounds_dinner :
    ∃ input : FinalizationInput Context.standard, input.snapshot.totalPaid ≠ .missing ∧
      input.snapshot.payerPaidAmounts.isSome ∧
      shareValue input.snapshot "ben" ≤ moneyValue input.snapshot.totalPaid := by
  obtain ⟨input, -, -, total, paid, own, member⟩ : ∃ input : FinalizationInput Context.standard,
      input.request = dinnerRequest "6.00" "4.00" "10.00" (benOwes 4 (by norm_num) (by decide +kernel)) ∧
        input.order = .listed ∧ input.snapshot.totalPaid ≠ .missing ∧ input.snapshot.payerPaidAmounts.isSome ∧
        0 ≤ shareValue input.snapshot input.request.payerParticipantPublicId ∧ "ben" ∈ input.snapshot.participants := by
    decide +kernel
  exact ⟨input, total, paid, ((accepted_share_bounds input total paid).2.2.1 own "ben" member).2⟩

/-- A negative share of the payer is accepted, and then a debtor owes more than the receipt total. -/
theorem negative_own_share_accepted :
    ∃ input : FinalizationInput Context.standard, input.snapshot.totalPaid ≠ .missing ∧
      input.snapshot.payerPaidAmounts.isSome ∧ "ana" ∈ input.snapshot.participants ∧
      shareValue input.snapshot "ana" = -5 ∧ "ben" ∈ input.snapshot.participants ∧
      shareValue input.snapshot "ben" = 15 ∧ moneyValue input.snapshot.totalPaid = 10 := by
  obtain ⟨input, -, -, found⟩ : ∃ input : FinalizationInput Context.standard,
      input.request = dinnerRequest "-5.00" "15.00" "10.00" (benOwes 15 (by norm_num) (by decide +kernel)) ∧
        input.order = .listed ∧ input.snapshot.totalPaid ≠ .missing ∧ input.snapshot.payerPaidAmounts.isSome ∧
        "ana" ∈ input.snapshot.participants ∧ shareValue input.snapshot "ana" = -5 ∧
        "ben" ∈ input.snapshot.participants ∧ shareValue input.snapshot "ben" = 15 ∧
        moneyValue input.snapshot.totalPaid = 10 := by
    decide +kernel
  exact ⟨input, found⟩

end FinanceCore.ReceiptFinalization

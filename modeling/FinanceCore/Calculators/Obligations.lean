import FinanceCore.Calculators.Case
import FinanceCore.Foundation.Loop
import FinanceCore.Settlement.Entries

namespace FinanceCore.Calculators

open Decimal Exceptions Matching Money Settlement List

/-- An obligation of the calculator names its parties, its amount and its currency. -/
structure Obligation where
  (debtor creditor : String)
  amount : ℚ
  currency : Currency
deriving DecidableEq

/-- The debtors and creditors that the two pointers have not passed. -/
structure Pointers where
  (debtors creditors : List BalanceEntry)
  obligations : List Obligation

def Pointers.done (pointers : Pointers) : Bool := pointers.debtors.isEmpty || pointers.creditors.isEmpty

section Loop

variable (context ctx : Context) (currency unit : Currency)

/-- The balance of a participant is what was paid minus the share, at the scale of the currency. -/
def participantBalance (participantShares payerPaidAmounts : Dict String ℚ) (participant : String) :
    Except SplitError BalanceEntry := do
  let paid ← expect (payerPaidAmounts.get? participant) (.missingKey participant)
  let share ← expect (participantShares.get? participant) (.missingKey participant)
  let balance ← roundForCurrency context (context.sub paid share) currency
  return (participant, balance)

/-- One pass settles the smaller amount and moves every pointer whose amount is spent. -/
def Pointers.pass (pointers : Pointers) : Except SplitError Pointers :=
  match pointers.debtors, pointers.creditors with
  | (debtor, debt) :: debtors, (creditor, due) :: creditors => do
    let amount := min debt due
    let obligations ←
      if amount ≠ 0 then do
        let rounded ← roundForCurrency context amount currency
        pure (pointers.obligations ++ [⟨debtor, creditor, rounded, currency⟩])
      else pure pointers.obligations
    let debtLeft ← roundForCurrency context (context.sub debt amount) currency
    let dueLeft ← roundForCurrency context (context.sub due amount) currency
    return ⟨advance (debtor, debtLeft) debtors, advance (creditor, dueLeft) creditors, obligations⟩
  | _, _ => .ok pointers

/-- The calculator settles its balances and requires that both lists end together. -/
def settlementObligations (fuel : ℕ) (participants : List String)
    (participantShares payerPaidAmounts : Dict String ℚ) : Except SplitError (List Obligation) := do
  let balances ← participants.mapM (participantBalance context currency participantShares payerPaidAmounts)
  let debtors := sortEntries context (debitEntries context balances)
  let creditors := sortEntries context (creditEntries balances)
  let pointers ← Loop.run Pointers.done (Pointers.pass context currency) SplitError.diverged fuel
    ⟨debtors, creditors, []⟩
  require (pointers.debtors = [] ∧ pointers.creditors = []) .obligationsUnbalanced
  forM pointers.obligations fun obligation =>
    require (obligation.currency = currency)
      (.money (.currencyMismatch .authoritativeCurrency obligation.currency .authoritativeCurrency currency))
  return pointers.obligations

end Loop

def obligationOf (currency : Currency) (transfer : Transfer String ℚ) : Obligation :=
  ⟨transfer.debtor, transfer.creditor, transfer.amount, currency⟩

section Correct

variable {context ctx : Context} {currency unit : Currency}

/-- The obligations so far and the settlement of what remains make up the plan, and both sides balance. -/
structure Pointers.Sound (context : Context) (currency : Currency) (plan : List (Transfer String ℚ))
    (pointers : Pointers) : Prop where
  debt : Open context (minorUnits currency) pointers.debtors
  due : Open context (minorUnits currency) pointers.creditors
  balanced : total pointers.creditors = total pointers.debtors
  planned : pointers.obligations ++
    (settle pointers.creditors pointers.debtors).map (obligationOf currency) = plan.map (obligationOf currency)

theorem Pointers.pass_sound {plan : List (Transfer String ℚ)} {pointers : Pointers}
    (sound : pointers.Sound ctx unit plan) (unfinished : pointers.done = false) :
    ∃ next, pointers.pass ctx unit = .ok next ∧ next.Sound ctx unit plan ∧
      next.creditors.length + next.debtors.length < pointers.creditors.length + pointers.debtors.length := by
  obtain ⟨debtors, creditors, debts⟩ := pointers
  cases debtors with
  | nil => simp [Pointers.done] at unfinished
  | cons first debtors =>
    cases creditors with
    | nil => simp [Pointers.done] at unfinished
    | cons second creditors =>
      obtain ⟨debtor, debt⟩ := first
      obtain ⟨creditor, due⟩ := second
      obtain ⟨debtOpen, dueOpen, balanced, planned⟩ := sound
      have amountHeld : ctx.Holds (minorUnits unit) (min due debt) := dueOpen.min_held debtOpen
      have amountPositive : 0 < min due debt := lt_min dueOpen.1.head debtOpen.1.head
      have dueLeft := held_sub (dueOpen.2 (creditor, due) (by simp)) amountHeld amountPositive.le
        (min_le_left due debt)
      have debtLeft := held_sub (debtOpen.2 (debtor, debt) (by simp)) amountHeld amountPositive.le
        (min_le_right due debt)
      refine ⟨⟨advance (debtor, debt - min due debt) debtors, advance (creditor, due - min due debt) creditors,
        debts ++ [⟨debtor, creditor, min due debt, unit⟩]⟩, ?_,
        ⟨debtOpen.advance amountHeld amountPositive.le (min_le_right due debt),
          dueOpen.advance amountHeld amountPositive.le (min_le_left due debt), ?_, ?_⟩,
        length_advance_lt creditor debtor due debt creditors debtors⟩
      · unfold Pointers.pass
        simp only [min_comm debt due, if_pos amountPositive.ne', roundForCurrency_held amountHeld, ok_bind,
          pure_bind, Context.sub, dueLeft.fix, debtLeft.fix, roundForCurrency_held dueLeft,
          roundForCurrency_held debtLeft]
        rfl
      · simp only [total_cons] at balanced
        rw [total_advance, total_advance]
        linarith
      · rw [settle_step] at planned
        rw [← planned, append_assoc]
        rfl

variable {fuel : ℕ} {participantShares payerPaidAmounts : Dict String ℚ}

/-- Balanced open entries are settled completely and in the order of the plan. -/
theorem pointers_record_plan {creditors debtors : List BalanceEntry}
    (due : Open ctx (minorUnits unit) creditors) (debt : Open ctx (minorUnits unit) debtors)
    (balanced : total creditors = total debtors) (enough : creditors.length + debtors.length ≤ fuel) :
    Loop.run Pointers.done (Pointers.pass ctx unit) SplitError.diverged fuel
        ⟨debtors, creditors, []⟩ = .ok ⟨[], [], (settle creditors debtors).map (obligationOf unit)⟩ := by
  have initial : (Pointers.mk debtors creditors []).Sound ctx unit (settle creditors debtors) :=
    ⟨debt, due, balanced, rfl⟩
  obtain ⟨⟨leftDebtors, leftCreditors, debts⟩, ended, sound, finished⟩ :=
    Loop.run_terminates (fun pointers sound => Pointers.pass_sound sound) initial enough
  obtain ⟨debtOpen, dueOpen, equal, planned⟩ := sound
  dsimp only at debtOpen dueOpen equal planned
  have closed : leftDebtors = [] ∧ leftCreditors = [] := by
    rcases Bool.or_eq_true_iff.mp finished with empty | empty
    · have none := isEmpty_iff.mp empty
      dsimp only at none
      rw [none] at equal
      exact ⟨none, dueOpen.1.eq_nil equal⟩
    · have none := isEmpty_iff.mp empty
      dsimp only at none
      rw [none] at equal
      exact ⟨debtOpen.1.eq_nil equal.symm, none⟩
  rw [closed.1, closed.2] at ended planned
  rw [settle_nil_left, map_nil, append_nil] at planned
  rw [ended, planned]

theorem participantBalance_held {paid share : ℚ} {person : String}
    (paidAmount : payerPaidAmounts.get? person = some paid)
    (shareAmount : participantShares.get? person = some share)
    (held : ctx.Holds (minorUnits unit) (paid - share)) :
    participantBalance ctx unit participantShares payerPaidAmounts person = .ok (person, paid - share) := by
  unfold participantBalance
  simp only [paidAmount, shareAmount, expect, ok_bind, Context.sub, held.fix, roundForCurrency_held held]
  rfl

/-- Held zero-sum balances make the calculator return its plan. -/
theorem settlementObligations_eq_plan {people : List String} {balance : String → ℚ}
    (computed : ∀ person ∈ people,
      participantBalance ctx unit participantShares payerPaidAmounts person = .ok (person, balance person))
    (scaled : ∀ person ∈ people, ctx.Holds (minorUnits unit) (balance person))
    (balanced : (people.map balance).sum = 0) (enough : people.length ≤ fuel) :
    settlementObligations ctx unit fuel people participantShares payerPaidAmounts =
      .ok ((planOf ctx balance people).map (obligationOf unit)) := by
  have entries : people.mapM
      (participantBalance ctx unit participantShares payerPaidAmounts) = .ok (balanceEntries balance people) := by
    rw [mapM_ok, balanceEntries, forall₂_map_right_iff, forall₂_same]
    exact computed
  have run := pointers_record_plan (open_sortedCreditors scaled) (open_sortedDebtors scaled)
    (totals_sorted scaled balanced) ((length_sorted_le ctx balance people).trans enough)
  unfold settlementObligations
  rw [entries]
  change (Loop.run _ _ _ fuel (Pointers.mk (sortedDebtors ctx balance people)
    (sortedCreditors ctx balance people) []) >>= fun _ => _) = _
  rw [run, ok_bind]
  simp only [bind_ok, require_ok, forM_ok]
  refine ⟨(), ⟨trivial, trivial⟩, (), ?_, rfl⟩
  intro debt member
  obtain ⟨transfer, _, rfl⟩ := mem_map.mp member
  rfl

end Correct

end FinanceCore.Calculators

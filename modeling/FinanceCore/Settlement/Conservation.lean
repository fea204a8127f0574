import FinanceCore.Settlement.Runtime

namespace FinanceCore.Settlement

open Decimal Exceptions Matching Money List

variable {currency sourceType sourceId : String} {uuid5 : String → BitVec 128} {context ctx : Context}
  {unit : Currency}

/-- An obligation records one transfer of the plan. -/
def transferOf (obligation : SettlementObligation) : Transfer String ℚ :=
  ⟨obligation.creditorId, obligation.debtorId, obligation.amount⟩

/-- The obligations so far and the settlement of what remains make up the whole plan. -/
structure Walk.Sound (context : Context) (unit : Currency) (plan : List (Transfer String ℚ))
    (walk : Walk) : Prop where
  due : Open context (minorUnits unit) walk.creditors
  debt : Open context (minorUnits unit) walk.debtors
  creditorsNamed : "" ∉ walk.creditors.map Prod.fst
  debtorsNamed : "" ∉ walk.debtors.map Prod.fst
  apart : List.Disjoint (walk.creditors.map Prod.fst) (walk.debtors.map Prod.fst)
  planned : walk.obligations.map transferOf ++ settle walk.creditors walk.debtors = plan

/-- One pass records the next transfer of the plan and closes an entry. -/
theorem Walk.pass_sound {plan : List (Transfer String ℚ)} {walk : Walk}
    (currencyNamed : currency ≠ "") (sourceTyped : sourceType ≠ "") (sourceNamed : sourceId ≠ "")
    (sound : walk.Sound ctx unit plan) (open_ : walk.done = false) :
    ∃ next, walk.pass uuid5 ctx unit currency sourceType sourceId = .ok next ∧
      next.Sound ctx unit plan ∧
        next.creditors.length + next.debtors.length < walk.creditors.length + walk.debtors.length := by
  obtain ⟨creditors, debtors, debts⟩ := walk
  cases creditors with
  | nil => simp [Walk.done] at open_
  | cons first creditors =>
    cases debtors with
    | nil => simp [Walk.done] at open_
    | cons second debtors =>
      obtain ⟨creditor, due⟩ := first
      obtain ⟨debtor, debt⟩ := second
      obtain ⟨dueOpen, debtOpen, creditorsNamed, debtorsNamed, apart, planned⟩ := sound
      have settledHeld : ctx.Holds (minorUnits unit) (min due debt) := dueOpen.min_held debtOpen
      have settledPositive : 0 < min due debt := lt_min dueOpen.1.head debtOpen.1.head
      have dueLeft := held_sub (dueOpen.2 (creditor, due) (by simp)) settledHeld settledPositive.le
        (min_le_left due debt)
      have debtLeft := held_sub (debtOpen.2 (debtor, debt) (by simp)) settledHeld settledPositive.le
        (min_le_right due debt)
      have creditorNamed : creditor ≠ "" := fun empty => creditorsNamed (by simp [empty])
      have debtorNamed : debtor ≠ "" := fun empty => debtorsNamed (by simp [empty])
      have distinct : creditor ≠ debtor := fun same => apart (a := debtor) (by simp [same]) (by simp)
      obtain ⟨obligation, built, recorded⟩ : ∃ obligation, SettlementObligation.build ctx unit
          (makeObligationId uuid5 sourceType sourceId debts.length) creditor debtor (min due debt)
          currency sourceType sourceId = .ok obligation ∧ transferOf obligation = ⟨creditor, debtor, min due debt⟩ :=
        ⟨_, build_succeeds (makeObligationId_ne_empty uuid5 sourceType sourceId debts.length)
          creditorNamed debtorNamed distinct settledPositive settledHeld currencyNamed sourceTyped
          sourceNamed, rfl⟩
      have creditKeys := keys_advance_subset (creditor, due - min due debt) creditors
      have debitKeys := keys_advance_subset (debtor, debt - min due debt) debtors
      refine ⟨⟨advance (creditor, due - min due debt) creditors, advance (debtor, debt - min due debt) debtors,
        debts ++ [obligation]⟩, ?_, ⟨dueOpen.advance settledHeld settledPositive.le (min_le_left due debt),
        debtOpen.advance settledHeld settledPositive.le (min_le_right due debt), ?_, ?_, ?_, ?_⟩,
        length_advance_lt creditor debtor due debt creditors debtors⟩
      · unfold Walk.pass
        simp only [roundForCurrency_held settledHeld, ok_bind, if_pos settledPositive, built, pure_bind,
          Context.sub, dueLeft.fix, debtLeft.fix, roundForCurrency_held dueLeft, roundForCurrency_held debtLeft]
        rfl
      · exact fun member => creditorsNamed (creditKeys member)
      · exact fun member => debtorsNamed (debitKeys member)
      · exact fun party left right => apart (creditKeys left) (debitKeys right)
      · rw [settle_step] at planned
        rw [map_append, map_cons, recorded, append_assoc]
        exact planned

/-- The walk ends within one pass for each entry and records the whole plan in order. -/
theorem walk_records_plan (uuid5 : String → BitVec 128) {creditors debtors : List BalanceEntry}
    {fuel : ℕ}
    (currencyNamed : currency ≠ "") (sourceTyped : sourceType ≠ "") (sourceNamed : sourceId ≠ "")
    (due : Open ctx (minorUnits unit) creditors) (debt : Open ctx (minorUnits unit) debtors)
    (creditorsNamed : "" ∉ creditors.map Prod.fst) (debtorsNamed : "" ∉ debtors.map Prod.fst)
    (apart : List.Disjoint (creditors.map Prod.fst) (debtors.map Prod.fst))
    (enough : creditors.length + debtors.length ≤ fuel) :
    ∃ walk, Loop.run Walk.done (Walk.pass uuid5 ctx unit currency sourceType sourceId)
        RuntimeError.diverged fuel ⟨creditors, debtors, []⟩ = .ok walk ∧
      walk.obligations.map transferOf = settle creditors debtors := by
  have initial : (Walk.mk creditors debtors []).Sound ctx unit (settle creditors debtors) :=
    ⟨due, debt, creditorsNamed, debtorsNamed, apart, rfl⟩
  obtain ⟨walk, ended, sound, finished⟩ := Loop.run_terminates
    (fun walk sound => Walk.pass_sound currencyNamed sourceTyped sourceNamed sound) initial enough
  refine ⟨walk, ended, ?_⟩
  have closed : settle walk.creditors walk.debtors = [] := by
    rcases Bool.or_eq_true_iff.mp finished with empty | empty
    · rw [isEmpty_iff.mp empty, settle_nil_left]
    · rw [isEmpty_iff.mp empty, settle_nil_right]
  simpa [closed] using sound.planned

/-- The obligations settle every balance of the participants exactly. -/
structure Settles (participants : List String) (balance : String → ℚ)
    (obligations : List SettlementObligation) : Prop where
  creditorsReceive : ∀ participant ∈ participants, 0 < balance participant →
    ((obligations.filter fun obligation => obligation.creditorId = participant).map
      SettlementObligation.amount).sum = balance participant
  debtorsPay : ∀ participant ∈ participants, balance participant < 0 →
    ((obligations.filter fun obligation => obligation.debtorId = participant).map
      SettlementObligation.amount).sum = |balance participant|
  settledAbsent : ∀ participant ∈ participants, balance participant = 0 →
    ∀ obligation ∈ obligations, obligation.creditorId ≠ participant ∧ obligation.debtorId ≠ participant
  amountsPositive : ∀ obligation ∈ obligations, 0 < obligation.amount
  pairsDistinct : (obligations.map fun obligation => (obligation.creditorId, obligation.debtorId)).Nodup
  short : obligations.length ≤
    (participants.filter fun participant => 0 < balance participant).length +
      (participants.filter fun participant => balance participant < 0).length - 1

theorem received_map_transferOf (party : String) (debts : List SettlementObligation) :
    received party (debts.map transferOf) =
      ((debts.filter fun debt => debt.creditorId = party).map SettlementObligation.amount).sum := by
  rw [received, filter_map, map_map]
  rfl

theorem paid_map_transferOf (party : String) (debts : List SettlementObligation) :
    paid party (debts.map transferOf) =
      ((debts.filter fun debt => debt.debtorId = party).map SettlementObligation.amount).sum := by
  rw [paid, filter_map, map_map]
  rfl

/-- Obligations that record the plan of zero-sum balances settle them. -/
theorem settles_of_plan {places : ℕ} {participants : List String} {balance : String → ℚ}
    (nodup : participants.Nodup)
    (scaled : ∀ person ∈ participants, ctx.Holds places (balance person))
    (balanced : (participants.map balance).sum = 0) {debts : List SettlementObligation}
    (recorded : (debts.map transferOf).Perm (planOf ctx balance participants)) :
    Settles participants balance debts := by
  refine ⟨?_, ?_, ?_, fun debt _ => debt.positive, ?_, ?_⟩
  · intro person member positive
    rw [← received_map_transferOf, ← plan_received nodup scaled balanced member positive]
    exact ((recorded.filter _).map _).sum_eq
  · intro person member negative
    rw [← paid_map_transferOf, abs_of_neg negative, ← plan_paid nodup scaled balanced member negative]
    exact ((recorded.filter _).map _).sum_eq
  · intro person _ zero debt listed
    obtain ⟨positive, negative⟩ := balances_of_mem_plan (recorded.subset (mem_map_of_mem (f := transferOf) listed))
    constructor
    · rintro rfl
      exact positive.ne' zero
    · rintro rfl
      exact negative.ne zero
  · have mapped := (recorded.map Transfer.pair).nodup_iff.mpr (plan_pairs_nodup nodup)
    rwa [map_map] at mapped
  · have length := recorded.length_eq
    rw [length_map] at length
    rw [length]
    exact length_plan_le ctx balance participants

section Generate

variable {participants : List String} {balances : Dict String Number}

theorem currency_ne_empty (known : normalizeCurrency (L := RuntimeLabel) currency = .ok unit) : currency ≠ "" := by
  rintro rfl
  cases known

def amountsOf (balances : Dict String Number) : Dict String ℚ := balances.map fun _ number => number.value

theorem values_amountsOf (balances : Dict String Number) :
    (amountsOf balances).values = balances.values.map Number.value := by
  simp [amountsOf, Dict.values, Dict.map, Function.comp_def]

theorem entries_amountsOf {balances : Dict String Number} {person : String} {amount : ℚ}
    (member : (person, amount) ∈ (amountsOf balances).entries) :
    ∃ number, (person, number) ∈ balances.entries ∧ amount = number.value := by
  obtain ⟨⟨key, number⟩, inside, same⟩ := mem_map.mp member
  obtain ⟨rfl, rfl⟩ := Prod.mk.inj same
  exact ⟨number, inside, rfl⟩

/-- The balances of the participants are the entries of the map in another order. -/
theorem map_balanceOf_perm (amounts : Dict String ℚ) (nodup : participants.Nodup)
    (covered : ∀ person, person ∈ amounts.keys ↔ person ∈ participants) :
    (participants.map (balanceOf amounts)).Perm amounts.values := by
  have keys : participants.Perm amounts.keys :=
    (perm_ext_iff_of_nodup nodup amounts.nodup_keys).mpr fun person => (covered person).symm
  rw [amounts.values_eq_map 0]
  exact keys.map _

theorem balance_held {places : ℕ}
    (scaled : ∀ entry ∈ balances.entries, ctx.Holds places entry.2.value) (person : String) :
    ctx.Holds places (balanceOf (amountsOf balances) person) := by
  unfold balanceOf
  cases found : (amountsOf balances).get? person with
  | none => exact ctx.holds_zero places
  | some amount =>
    obtain ⟨number, inside, rfl⟩ := entries_amountsOf (Dict.mem_entries_of_get? found)
    exact scaled _ inside

/-- The runtime records exactly the plan of its balances, sorted by creditor and debtor. -/
theorem generateObligations_records_plan {fuel : ℕ}
    (known : normalizeCurrency (L := RuntimeLabel) currency = .ok unit)
    (sourceTyped : sourceType ≠ "") (sourceNamed : sourceId ≠ "")
    (listed : participants ≠ []) (nodup : participants.Nodup) (named : "" ∉ participants)
    (covered : ∀ person, person ∈ balances.keys ↔ person ∈ participants)
    (scaled : ∀ entry ∈ balances.entries, ctx.Holds (minorUnits unit) entry.2.value)
    (exactly : ctx.SumsExactly 0 (balances.values.map Number.value))
    (balanced : (balances.values.map Number.value).sum = 0) (enough : participants.length ≤ fuel) :
    ∃ recorded : List SettlementObligation,
      generateObligations uuid5 ctx currency sourceType sourceId fuel participants
        (decimalBalances balances) = .ok (recorded.insertionSort obligationBefore) ∧
      recorded.map transferOf = planOf ctx (balanceOf (amountsOf balances)) participants := by
  have held := balance_held scaled
  have currencyNamed := currency_ne_empty known
  have creditKeys := keys_sortedCreditors ctx (balanceOf (amountsOf balances)) participants
  have debitKeys := keys_sortedDebtors ctx (balanceOf (amountsOf balances)) participants
  obtain ⟨walk, ended, recorded⟩ := walk_records_plan uuid5 currencyNamed sourceTyped sourceNamed
    (open_sortedCreditors fun person _ => held person)
    (open_sortedDebtors fun person _ => held person)
    (fun member => named (mem_of_mem_filter (creditKeys.subset member)))
    (fun member => named (mem_of_mem_filter (debitKeys.subset member)))
    (sorted_disjoint ctx (balanceOf (amountsOf balances)) participants)
    ((length_sorted_le ctx _ participants).trans enough)
  refine ⟨walk.obligations, ?_, recorded⟩
  have zeroSum : validateBalanceZeroSum ctx unit (amountsOf balances) = .ok () := by
    have sum : ctx.sumFrom 0 (amountsOf balances).values = 0 := by
      rw [values_amountsOf, exactly.sumFrom_eq, balanced, add_zero]
    unfold validateBalanceZeroSum
    rw [sum, bind_ok]
    exact ⟨0, mapError_ok.mpr (quantizeForCurrency_eq_ok.mpr ((ctx.holds_zero _).quantize halfUp)),
      require_ok.mpr rfl⟩
  unfold generateObligations
  rw [validateInputs_succeeds listed nodup covered known currencyNamed sourceTyped sourceNamed scaled, known]
  change (validateBalanceZeroSum ctx unit (amountsOf balances) >>= fun _ => _) = _
  rw [zeroSum, ok_bind]
  rw [bind_ok]
  exact ⟨walk, ended, rfl⟩

/-- For held zero-sum balances of named participants the runtime ends and settles every balance. -/
theorem generateObligations_settles {fuel : ℕ}
    (known : normalizeCurrency (L := RuntimeLabel) currency = .ok unit)
    (sourceTyped : sourceType ≠ "") (sourceNamed : sourceId ≠ "")
    (listed : participants ≠ []) (nodup : participants.Nodup) (named : "" ∉ participants)
    (covered : ∀ participant, participant ∈ balances.keys ↔ participant ∈ participants)
    (scaled : ∀ entry ∈ balances.entries, context.Holds (minorUnits unit) entry.2.value)
    (exactly : context.SumsExactly 0 (balances.values.map Number.value))
    (balanced : (balances.values.map Number.value).sum = 0) (enough : participants.length ≤ fuel) :
    ∃ obligations, generateObligations uuid5 context currency sourceType sourceId fuel participants
        (decimalBalances balances) = .ok obligations ∧
      Settles participants (balanceOf (amountsOf balances)) obligations := by
  obtain ⟨recorded, run, planned⟩ := generateObligations_records_plan known sourceTyped
    sourceNamed listed nodup named covered scaled exactly balanced enough
  refine ⟨_, run, settles_of_plan nodup (fun participant _ => balance_held scaled participant) ?_ ?_⟩
  · rw [(map_balanceOf_perm (amountsOf balances) nodup (by
      simpa [amountsOf, Dict.keys, Dict.map] using covered)).sum_eq, values_amountsOf,
      balanced]
  · rw [← planned]
    exact (List.perm_insertionSort _ _).map _

end Generate

/-- A shared bill of sixty that two others owe to its payer. -/
def tripBalances : Dict String Number :=
  Dict.ofList [("owner", ⟨false, 60, 0⟩), ("a", ⟨true, 3000, -2⟩), ("b", ⟨true, 30, 0⟩)]

theorem generateObligations_settles_trip :
    ∃ obligations, generateObligations (fun _ => 0) Context.standard "SGD" "receipt_split" "calc_001" 3
        ["owner", "a", "b"] (decimalBalances tripBalances) = .ok obligations ∧
      Settles ["owner", "a", "b"] (balanceOf (amountsOf tripBalances)) obligations :=
  generateObligations_settles (normalizeCurrency_code .sgd) (by decide) (by decide) (by decide) (by decide)
    (by decide) (fun _ => Iff.rfl) (by decide +kernel) (by decide +kernel) (by decide +kernel) (by decide)

/-- The runtime refuses an empty list, an empty participant name, a missing source and an amount that has
no form of 28 digits at the scale of its currency. -/
theorem generateObligations_refuses :
    generateObligations (fun _ => 0) Context.standard "SGD" "receipt_split" "calc_001" 2 []
        (decimalBalances Dict.empty) = .error .participantsRequired ∧
      generateObligations (fun _ => 0) Context.standard "SGD" "receipt_split" "calc_001" 2 ["", "b"]
        (decimalBalances (Dict.ofList [("", ⟨false, 1, 0⟩), ("b", ⟨true, 1, 0⟩)])) = .error .creditorIdRequired ∧
      generateObligations (fun _ => 0) Context.standard "SGD" "" "calc_001" 2 ["a", "b"]
        (decimalBalances (Dict.ofList [("a", ⟨false, 1, 0⟩), ("b", ⟨true, 1, 0⟩)])) = .error .sourceTypeRequired ∧
      generateObligations (fun _ => 0) Context.standard "SGD" "receipt_split" "calc_001" 2 ["a", "b"]
        (decimalBalances (Dict.ofList [("a", ⟨false, 1, 30⟩), ("b", ⟨true, 1, 30⟩)])) =
          .error (.money .invalidOperation) := by
  refine ⟨rfl, ?_, rfl, ?_⟩
  · decide +kernel
  · decide +kernel

end FinanceCore.Settlement

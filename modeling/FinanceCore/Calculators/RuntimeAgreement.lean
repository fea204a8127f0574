import FinanceCore.Calculators.Obligations
import FinanceCore.Settlement.Conservation

namespace FinanceCore.Calculators

open Decimal Matching Money Settlement

/-- What an obligation says on either side: debtor, creditor and amount. -/
def Obligation.triple (obligation : Obligation) : String × String × ℚ :=
  (obligation.debtor, obligation.creditor, obligation.amount)

def runtimeTriple (obligation : SettlementObligation) : String × String × ℚ :=
  (obligation.debtorId, obligation.creditorId, obligation.amount)

/-- The order of the runtime: by creditor and then by debtor. -/
def tripleBefore (first second : String × String × ℚ) : Prop :=
  first.2.1 < second.2.1 ∨ (first.2.1 = second.2.1 ∧ first.1 ≤ second.1)

instance : DecidableRel tripleBefore := fun _ _ => inferInstanceAs (Decidable (_ ∨ _))

section Agreement

variable {uuid5 : String → BitVec 128} {context : Context} {unit : Currency}
  {currency sourceType sourceId : String} {participants : List String} {balances : Dict String Number}
  {participantShares payerPaidAmounts : Dict String ℚ} {paid share : String → ℚ}

/-- The runtime returns the obligations of the calculator, sorted by creditor and debtor. -/
theorem runtime_agrees_with_calculator (paid share : String → ℚ) {fuel : ℕ}
    (known : normalizeCurrency (L := RuntimeLabel) currency = .ok unit)
    (sourceTyped : sourceType ≠ "") (sourceNamed : sourceId ≠ "")
    (listed : participants ≠ []) (nodup : participants.Nodup) (named : "" ∉ participants)
    (paidAmounts : ∀ participant ∈ participants, payerPaidAmounts.get? participant = some (paid participant))
    (shareAmounts : ∀ participant ∈ participants, participantShares.get? participant = some (share participant))
    (totals : (participants.map paid).sum = (participants.map share).sum)
    (covered : ∀ participant, participant ∈ balances.keys ↔ participant ∈ participants)
    (differences : ∀ entry ∈ balances.entries, entry.2.value = paid entry.1 - share entry.1)
    (scaled : ∀ entry ∈ balances.entries, context.Holds (minorUnits unit) entry.2.value)
    (exactly : context.SumsExactly 0 (balances.values.map Number.value))
    (enough : participants.length ≤ fuel) :
    ∃ calculated generated,
      settlementObligations context unit fuel participants participantShares payerPaidAmounts = .ok calculated ∧
      generateObligations uuid5 context currency sourceType sourceId fuel participants
        (decimalBalances balances) = .ok generated ∧
      (generated.map runtimeTriple).Perm (calculated.map Obligation.triple) ∧
      generated.map runtimeTriple = (calculated.map Obligation.triple).insertionSort tripleBefore := by
  have balanceEq : ∀ participant ∈ participants,
      balanceOf (amountsOf balances) participant = paid participant - share participant := by
    intro participant member
    obtain ⟨number, found⟩ := Option.isSome_iff_exists.mp (Dict.get?_isSome.mpr ((covered participant).mpr member))
    have inside := Dict.mem_entries_of_get? found
    have image : (participant, number.value) ∈ (amountsOf balances).entries :=
      List.mem_map_of_mem (f := fun entry : String × Number => (entry.1, entry.2.value)) inside
    rw [balanceOf, Dict.get?_of_mem_entries image]
    exact differences _ inside
  have sameSum : (participants.map (balanceOf (amountsOf balances))).sum = 0 := by
    have split := Multiset.sum_map_sub (m := (participants : Multiset String)) (f := paid) (g := share)
    simp only [Multiset.map_coe, Multiset.sum_coe] at split
    rw [List.map_congr_left balanceEq, split, totals, sub_self]
  have balanced : (balances.values.map Number.value).sum = 0 := by
    rw [← values_amountsOf, ← (map_balanceOf_perm (amountsOf balances) nodup (by
      simpa [amountsOf, Dict.keys, Dict.map] using covered)).sum_eq, sameSum]
  have held := balance_held scaled
  obtain ⟨recorded, generated, planned⟩ := generateObligations_records_plan known
    sourceTyped sourceNamed listed nodup named covered scaled exactly balanced enough
  have calculated : settlementObligations context unit fuel participants participantShares
      payerPaidAmounts =
        .ok ((planOf context (balanceOf (amountsOf balances)) participants).map (obligationOf unit)) := by
    refine settlementObligations_eq_plan (fun participant member => ?_)
      (fun participant _ => held participant) sameSum enough
    have fitting := held participant
    rw [balanceEq participant member] at fitting ⊢
    exact participantBalance_held (paidAmounts participant member) (shareAmounts participant member) fitting
  have sameTriples : ((planOf context (balanceOf (amountsOf balances)) participants).map
      (obligationOf unit)).map Obligation.triple = recorded.map runtimeTriple := by
    rw [← planned, List.map_map, List.map_map]
    rfl
  refine ⟨_, _, calculated, generated, ?_, ?_⟩
  · rw [sameTriples]
    exact (List.perm_insertionSort _ _).map _
  · rw [sameTriples]
    exact List.map_insertionSort _ _ _ _ fun _ _ _ _ => Iff.rfl

end Agreement

/-- Two people each paid for a dinner that a third did not pay for. -/
theorem runtime_agrees_with_calculator_dinner :
    ∃ calculated generated,
      settlementObligations Context.standard .sgd 3 ["a", "b", "c"]
        (Dict.ofList [("a", 10), ("b", 10), ("c", 10)]) (Dict.ofList [("a", 25), ("b", 5), ("c", 0)]) =
          .ok calculated ∧
      generateObligations (fun _ => 0) Context.standard "SGD" "receipt_split" "calc_001" 3 ["a", "b", "c"]
        (decimalBalances (Dict.ofList [("a", ⟨false, 15, 0⟩), ("b", ⟨true, 5, 0⟩), ("c", ⟨true, 10, 0⟩)])) =
          .ok generated ∧
      (generated.map runtimeTriple).Perm (calculated.map Obligation.triple) ∧
      generated.map runtimeTriple = (calculated.map Obligation.triple).insertionSort tripleBefore :=
  runtime_agrees_with_calculator
    (fun participant => if participant = "a" then 25 else if participant = "b" then 5 else 0) (fun _ => 10)
    (normalizeCurrency_code .sgd) (by decide) (by decide) (by decide) (by decide) (by decide)
    (by decide +kernel) (by decide +kernel) (by decide +kernel) (fun _ => Iff.rfl) (by decide +kernel)
    (by decide +kernel) (by decide +kernel) (by decide)

/-- The runtime refuses cases that the calculator settles: no participant, a repeated or an empty name, and
balances whose running sum needs more than 28 digits. A single balance of 29 digits stops the calculator too. -/
theorem runtime_refuses_settled_cases :
    settlementObligations Context.standard .jpy 4 [] Dict.empty Dict.empty = .ok [] ∧
      generateObligations (fun _ => 0) Context.standard "JPY" "receipt_split" "calc_001" 4 []
        (decimalBalances Dict.empty) = .error .participantsRequired ∧
      settlementObligations Context.standard .jpy 4 ["a", "a"] (Dict.ofList [("a", 1)])
        (Dict.ofList [("a", 1)]) = .ok [] ∧
      generateObligations (fun _ => 0) Context.standard "JPY" "receipt_split" "calc_001" 4 ["a", "a"]
        (decimalBalances (Dict.ofList [("a", ⟨false, 0, 0⟩)])) = .error (.duplicateParticipants ["a", "a"]) ∧
      settlementObligations Context.standard .jpy 4 ["", "b"] (Dict.ofList [("", 0), ("b", 1)])
        (Dict.ofList [("", 1), ("b", 0)]) = .ok [⟨"b", "", 1, .jpy⟩] ∧
      generateObligations (fun _ => 0) Context.standard "JPY" "receipt_split" "calc_001" 4 ["", "b"]
        (decimalBalances (Dict.ofList [("", ⟨false, 1, 0⟩), ("b", ⟨true, 1, 0⟩)])) = .error .creditorIdRequired ∧
      settlementObligations Context.standard .jpy 4 ["a", "b", "c", "d"]
        (Dict.ofList [("a", 0), ("b", 0), ("c", 9999999999999999999999999999), ("d", 2)])
        (Dict.ofList [("a", 9999999999999999999999999999), ("b", 2), ("c", 0), ("d", 0)]) =
          .ok [⟨"c", "a", 9999999999999999999999999999, .jpy⟩, ⟨"d", "b", 2, .jpy⟩] ∧
      generateObligations (fun _ => 0) Context.standard "JPY" "receipt_split" "calc_001" 4
        ["a", "b", "c", "d"] (decimalBalances (Dict.ofList
          [("a", ⟨false, 9999999999999999999999999999, 0⟩), ("b", ⟨false, 2, 0⟩),
           ("c", ⟨true, 9999999999999999999999999999, 0⟩), ("d", ⟨true, 2, 0⟩)])) =
          .error (.unbalanced (-1)) ∧
      settlementObligations Context.standard .jpy 4 ["a", "b", "c"]
        (Dict.ofList [("a", -1), ("b", 9999999999999999999999999999), ("c", 1)])
        (Dict.ofList [("a", 9999999999999999999999999999), ("b", 0), ("c", 0)]) =
          .error (.money .invalidOperation) := by
  refine ⟨?_, ?_, ?_, ?_, ?_, ?_, ?_, ?_, ?_⟩ <;> decide +kernel

end FinanceCore.Calculators

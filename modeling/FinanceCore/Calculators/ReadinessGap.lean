import FinanceCore.Calculators.InputProjection
import FinanceCore.Calculators.PayerCase

namespace FinanceCore.Calculators

open Decimal Exceptions Money List

variable {included : List String}

/-- The pure checks of the readiness boundary succeed. -/
def ReadinessPasses (context : Context) (receipt : ReceiptRow) (payload : FactSetPayload)
    (members : Dict String Member) : Prop :=
  (∃ counts, verifyFactSetContent context payload receipt members = .ok counts) ∧
    calculatorPreflight context receipt payload members = .ok ()

/-- The payer is named, something was paid, and the half-up shares of the others fit into it. -/
def PayerAbsorbs (context : Context) (receipt : ReceiptRow) (payload : FactSetPayload)
    (members : Dict String Member) : Prop :=
  ∃ shares, preflightShares context receipt payload members = .ok shares ∧
    shares.payer ≠ "" ∧ shares.exact.netPaid ≠ 0 ∧
      othersUnits context shares.currency shares.exact shares.participants shares.payer ≤
        netUnits context shares.currency shares.exact

section Participants

theorem nodup_includedMembers (members : Dict String Member) : (includedMembers members).Nodup :=
  members.nodup.sublist (filter_sublist.map Prod.fst)

variable {payer : String}

theorem mem_buildParticipantList {person : String} :
    person ∈ buildParticipantList included payer ↔ person = payer ∨ person ∈ included := by
  rw [buildParticipantList, mem_insertionSort, mem_insert_iff]

theorem nodup_buildParticipantList (nodup : included.Nodup) (payer : String) :
    (buildParticipantList included payer).Nodup :=
  (perm_insertionSort _ _).nodup_iff.mpr (nodup.insert)

variable {members : Dict String Member}

variable (payers : payerMembers members = [payer])
include payers

/-- Every participant of the calculation is a member. -/
theorem length_buildParticipantList_le :
    (buildParticipantList (includedMembers members) payer).length ≤ members.entries.length := by
  have inside : buildParticipantList (includedMembers members) payer ⊆ members.keys := by
    intro person listed
    rcases mem_buildParticipantList.mp listed with rfl | included
    · have chosen : person ∈ payerMembers members := by simp [payers]
      exact (filter_sublist.map Prod.fst).subset chosen
    · exact (filter_sublist.map Prod.fst).subset included
  have nodup := nodup_buildParticipantList (nodup_includedMembers members) payer
  have bound := (nodup.subperm inside).length_le
  rwa [Dict.keys, length_map] at bound

theorem includedMembershipAndPayer_single {primary : String}
    (resolved : includedMembershipAndPayer members = .ok (included, primary)) :
    includedMembers members = included ∧ payer = primary := by
  unfold includedMembershipAndPayer at resolved
  split_ifs at resolved
  rw [payers] at resolved
  exact Prod.mk.inj (Except.ok.inj resolved)

end Participants

section Mapping

variable {receiptPublicId merchant raw payer netPaidText : String} {payload : FactSetPayload} {receipt : Receipt}

theorem projectItem_currency {byLine : Dict ℤ FactAllocation} {item : FactItem} {projected : Item}
    (run : projectItem byLine included item = .ok projected) : projected.currency = none := by
  obtain ⟨allocation, _, run⟩ := bind_ok.mp run
  cases method : allocation.allocationMethod with
  | unsupported name =>
    rw [method] at run
    cases run
  | equalAmount =>
    rw [method] at run
    obtain ⟨_, _, run⟩ := bind_ok.mp run
    exact (pure_ok.mp run) ▸ rfl
  | manual =>
    rw [method] at run
    obtain ⟨_, _, run⟩ := bind_ok.mp run
    obtain ⟨_, _, run⟩ := bind_ok.mp run
    exact (pure_ok.mp run) ▸ rfl

theorem projectAdjustment_currency {entry : FactAdjustment} {projected : Adjustment}
    (run : projectAdjustment included raw entry = .ok projected) : projected.currency = some raw := by
  obtain ⟨_, _, run⟩ := bind_ok.mp run
  split_ifs at run
  · obtain ⟨_, _, run⟩ := bind_ok.mp run
    exact (pure_ok.mp run) ▸ rfl
  · obtain ⟨_, _, run⟩ := bind_ok.mp run
    exact (pure_ok.mp run) ▸ rfl

variable {unit : Currency}

variable (known : normalizeCurrency (L := FieldLabel) raw = .ok unit)
  (built : buildCalculatorReceipt receiptPublicId merchant raw payer netPaidText payload included = .ok receipt)
include known built

/-- A mapped receipt carries one currency throughout. -/
theorem nestedCurrency_mapped : validateNestedCurrencyConsistency receipt unit = .ok () := by
  obtain ⟨items, projectedItems, built⟩ := bind_ok.mp built
  obtain ⟨adjustments, projectedAdjustments, built⟩ := bind_ok.mp built
  obtain rfl := pure_ok.mp built
  obtain ⟨byLine, _, projectedItems⟩ := bind_ok.mp projectedItems
  have noCurrency := forall_mem_of_mapM (fun _ _ => projectItem_currency) projectedItems
  have sameCurrency := forall_mem_of_mapM (fun _ _ => projectAdjustment_currency) projectedAdjustments
  simp only [validateNestedCurrencyConsistency, bind_ok, forM_ok, Option.getD_some]
  refine ⟨(), ?_, ?_⟩
  · intro entry listed
    rw [noCurrency entry.1 (fst_mem_of_mem_zipIdx listed)]
  · intro entry listed
    rw [sameCurrency entry.1 (fst_mem_of_mem_zipIdx listed)]
    exact ofMoney_ok.mpr (requireSameCurrency_code.mpr known)

/-- A mapped receipt that passes Stage A is a receipt of the payer policy. -/
theorem payerReceipt_mapped {context : Context} {people : List String} {exact : ExactReceiptShares}
    (stageA : computeExactReceiptShares context receipt people unit = .ok exact) :
    PayerReceipt context unit people payer receipt exact := by
  have nested := nestedCurrency_mapped known built
  obtain ⟨items, projectedItems, built⟩ := bind_ok.mp built
  obtain ⟨adjustments, projectedAdjustments, built⟩ := bind_ok.mp built
  obtain rfl := pure_ok.mp built
  refine ⟨rfl, rfl, ?_, nested, stageA, ?_⟩
  · exact ofMoney_ok.mpr (requireSameCurrency_code.mpr known)
  · simp only [computeExactReceiptShares, bind_ok, pure_ok] at stageA
    obtain ⟨_, _, _, _, _, _, _, _, netPaid, read, _, _, _, _, rfl⟩ := stageA
    obtain ⟨_, _, _, _, nonneg⟩ := authoritativeMoney_nonNegative.mp read
    exact nonneg

end Mapping

/-- The calculator accepts the projection of a ready fact set exactly when the payer absorbs the remainder. -/
theorem calculator_accepts_ready_iff {context : Context} {receipt : ReceiptRow}
    {payload : FactSetPayload} {members : Dict String Member} {caseData : CaseData} {fuel : ℕ}
    (ready : ReadinessPasses context receipt payload members)
    (projected : projectCalculatorInput receipt payload members = .ok caseData)
    (enough : members.entries.length ≤ fuel) :
    (∃ result, calculateReceiptSplit context fuel caseData = .ok result) ↔
      PayerAbsorbs context receipt payload members := by
  obtain ⟨shares, preflight, _⟩ := bind_ok.mp ready.2
  have condition : PayerAbsorbs context receipt payload members ↔ shares.payer ≠ "" ∧
      shares.exact.netPaid ≠ 0 ∧
        othersUnits context shares.currency shares.exact shares.participants shares.payer ≤
          netUnits context shares.currency shares.exact := by
    constructor
    · rintro ⟨other, same, held⟩
      obtain rfl := Except.ok.inj (preflight.symm.trans same)
      exact held
    · intro held
      exact ⟨shares, preflight, held⟩
  rw [condition]
  unfold preflightShares at preflight
  split at preflight
  · next payer payers =>
    simp only [bind_ok, pure_ok] at preflight
    obtain ⟨calculatorReceipt, built, currency, known, exact, stageA, rfl⟩ := preflight
    have built := mapError_ok.mp built
    have known := mapError_ok.mp known
    have stageA := mapError_ok.mp stageA
    obtain ⟨⟨included, primary⟩, resolved, projected⟩ := bind_ok.mp projected
    obtain ⟨rfl, rfl⟩ := includedMembershipAndPayer_single payers resolved
    obtain ⟨projectedReceipt, rebuilt, projected⟩ := bind_ok.mp projected
    obtain rfl := Except.ok.inj (built.symm.trans (mapError_ok.mp rebuilt))
    obtain rfl := pure_ok.mp projected
    exact calculateReceiptSplit_payer (payerReceipt_mapped known built stageA)
      (nodup_buildParticipantList (nodup_includedMembers members) payer)
      (mem_buildParticipantList.mpr (.inl rfl)) ((length_buildParticipantList_le payers).trans enough)
      rfl rfl rfl rfl known
  · cases preflight

/-- A fact set with one item that the listed participants share equally. -/
def sharedItem (amount : String) (participants : List String) : FactSetPayload where
  currency := "SGD"
  netPaidAmount := amount
  items := [⟨1, "Sweets", none, none, amount⟩]
  allocations := [⟨1, .equalAmount, participants.map fun participant => ⟨participant, none⟩⟩]
  adjustments := []

def kioskReceipt (amount : String) : ReceiptRow := ⟨"rcpt_1", "Kiosk", "SGD", amount⟩

/-- Two included members and a payer who does not consume. -/
def kioskMembers : Dict String Member :=
  Dict.ofList [("ana", ⟨1, .participant, 1⟩), ("ben", ⟨2, .participant, 1⟩), ("pam", ⟨3, .payer, 0⟩)]

theorem calculator_accepts_ready_two_cents :
    ReadinessPasses Context.standard (kioskReceipt "0.02") (sharedItem "0.02" ["ana", "ben"]) kioskMembers ∧
      PayerAbsorbs Context.standard (kioskReceipt "0.02") (sharedItem "0.02" ["ana", "ben"]) kioskMembers := by
  have ready : ReadinessPasses Context.standard (kioskReceipt "0.02") (sharedItem "0.02" ["ana", "ben"]) kioskMembers :=
    ⟨by decide +kernel, by decide +kernel⟩
  obtain ⟨caseData, projected, accepted⟩ : ∃ caseData, projectCalculatorInput (kioskReceipt "0.02")
      (sharedItem "0.02" ["ana", "ben"]) kioskMembers = .ok caseData ∧
      ∃ result, calculateReceiptSplit Context.standard 3 caseData = .ok result := by
    decide +kernel
  exact ⟨ready, (calculator_accepts_ready_iff ready projected (by decide)).mp accepted⟩

/-- Readiness passes, yet both halves of a cent round up and the payer cannot absorb the missing cent. -/
theorem ready_cent_refused :
    ReadinessPasses Context.standard (kioskReceipt "0.01") (sharedItem "0.01" ["ana", "ben"]) kioskMembers ∧
      ∃ caseData, projectCalculatorInput (kioskReceipt "0.01") (sharedItem "0.01" ["ana", "ben"]) kioskMembers =
          .ok caseData ∧
        calculateReceiptSplit Context.standard 3 caseData = .error (.payerCannotAbsorb "pam" 0 (-1)) :=
  ⟨⟨by decide +kernel, by decide +kernel⟩, by decide +kernel⟩

end FinanceCore.Calculators

import FinanceCore.Calculators.ReceiptSplit
import FinanceCore.Calculators.StageA

namespace FinanceCore.Calculators

open Decimal Exceptions Money List Dict

/-- A stated amount reads as zero; a missing one counts as zero. -/
def statesZero : Option RawMoney → Bool
  | none => true
  | some raw =>
    match raw.literal? with
    | some (.finite number) => number.value = 0
    | _ => false

/-- The service charge is zero by its amount, or by its rate when there is no amount. -/
def chargesNothing (receipt : Receipt) : Bool :=
  match receipt.serviceChargeAmount with
  | some amount => statesZero (some amount)
  | none => statesZero receipt.serviceChargeRate

/-- The people of a manual allocation. -/
def allocationNames (allocations : Option (Dict String RawMoney)) : List String :=
  (allocations.map Dict.keys).getD []

/-- The names that an allocation method reads; an equal split of zero reads none. -/
def methodNames (method : Option AdjustmentMethod) (zero : Bool)
    (allocations : Option (Dict String RawMoney)) (participants : Option (List String)) : List String :=
  match method with
  | some .manual => allocationNames allocations
  | some .equalPerParticipant => if zero then [] else participants.getD []
  | _ => []

/-- The names that the service charge, the adjustments and the discount of a receipt read. -/
def calledNames (receipt : Receipt) (uncharged : Bool) : List String :=
  methodNames (receipt.serviceChargeAllocationMethod.getD (some .proportionalByItemAmount)) uncharged
      receipt.serviceChargeAllocations receipt.serviceChargeParticipants ++
    ((receipt.adjustments.getD []).flatMap fun adjustment => methodNames adjustment.allocationMethod
      (statesZero adjustment.amount) adjustment.allocations adjustment.participants) ++
    methodNames receipt.discountAllocationMethod (statesZero receipt.discount)
      receipt.discountAllocations receipt.discountParticipants

/-- The people that the items of a receipt call. -/
def itemNames (receipt : Receipt) : List String :=
  (receipt.items.getD []).flatMap fun item => itemParticipants item ++ allocationNames item.allocations

/-- Every name of a receipt that the calculation reads. -/
def requiredParticipants (receipt : Receipt) : List String :=
  receipt.paidBy.toList ++ itemNames receipt ++ calledNames receipt (chargesNothing receipt)

/-- The names in the fields of the receipts that the derivation of the participants reads. -/
def collectedParticipants (caseData : CaseData) : List String :=
  caseData.receipts.flatMap fun receipt =>
    (receipt.paidBy.orElse fun _ => caseData.payer).toList ++ itemNames receipt ++
      ((receipt.adjustments.getD []).flatMap fun adjustment => allocationNames adjustment.allocations) ++
      allocationNames receipt.discountAllocations

/-- The names that the charges, adjustments and discounts read are all among the collected ones. -/
def CallsCollected (caseData : CaseData) : Prop :=
  ∀ receipt ∈ caseData.receipts, ∀ person ∈ calledNames receipt (chargesNothing receipt),
    person ∈ collectedParticipants caseData
deriving Decidable

/-- The split may fail in every way but by a participant that it does not know. -/
def Knows : SplitError → Prop
  | .unknownParticipant _ => False
  | _ => True

section Failures

variable {context : Context} {currency : Currency}

@[simp] theorem ofMoney_knows {α : Type} (result : Except (MoneyError FieldLabel) α) :
    FailsOnly Knows (ofMoney result) := by
  rw [ofMoney, failsOnly_mapError]
  exact fun _ _ => trivial

@[simp] theorem authoritativeMoney_knows (value : RawMoney) (label : FieldLabel)
    (policy : SignPolicy) :
    FailsOnly Knows (authoritativeMoney context value currency label policy) := by
  simp [authoritativeMoney]

@[simp] theorem roundForCurrency_knows (value : ℚ) :
    FailsOnly Knows (roundForCurrency context value currency) := by
  simp [roundForCurrency]

@[simp] theorem roundedShareMap_knows (shares : Dict String ℚ) :
    FailsOnly Knows (roundedShareMap context shares currency) := by
  simp [roundedShareMap, Dict.mapM]

@[simp] theorem addAllocations_knows (shares allocations : Dict String ℚ) :
    FailsOnly Knows (addAllocations context shares allocations) := by
  simp [addAllocations, Knows]

@[simp] theorem allocateMinorUnits_knows (shares : Dict String ℚ) (total : ℚ) (people : List String)
    (policy : RemainderPolicy) (payer : Option String) :
    FailsOnly Knows (allocateMinorUnits context shares total currency people policy payer) := by
  have inputs :
      FailsOnly Knows (validateAllocatorInputs context shares total currency people policy payer) := by
    cases policy <;> cases payer <;> simp [validateAllocatorInputs, Knows]
  have bounds (remaining : ℤ) (count : ℕ) :
      FailsOnly Knows (validateRemainderBounds remaining count policy) := by
    unfold validateRemainderBounds
    split <;> simp [Knows]
  have spread (floors : Dict String ℤ) (remainders : Dict String ℚ) (remaining : ℤ) :
      FailsOnly Knows (spreadRemainder context policy payer floors remainders remaining) := by
    cases policy <;> simp [spreadRemainder, absorbRemainder, distributeRemainder, Knows]
    intro value given
    split <;> simp [Knows]
  simp [allocateMinorUnits, amountOfUnits, inputs, bounds, spread, Knows]

@[simp] theorem settlementObligations_knows (fuel : ℕ) (people : List String)
    (shares paid : Dict String ℚ) :
    FailsOnly Knows (settlementObligations context currency fuel people shares paid) := by
  have pass (pointers : Pointers) : FailsOnly Knows (pointers.pass context currency) := by
    unfold Pointers.pass
    split
    · dsimp only
      split_ifs <;> simp
    · simp
  have loop (start : Pointers) : FailsOnly Knows
      (Loop.run Pointers.done (Pointers.pass context currency) SplitError.diverged fuel start) :=
    Loop.failsOnly_run pass (by simp [Knows]) fuel start
  simp [settlementObligations, participantBalance, loop, Knows]

end Failures

variable {context : Context} {currency : Currency} {people : List String} {receipt : Receipt}
  {shares current items result : Dict String ℚ} {manual : Dict String RawMoney}

section Allocations

variable {allocations : Option (Dict String RawMoney)} {failure : SplitError} {label : String → FieldLabel}

/-- A manual allocation is present when it has entries. -/
@[simp] theorem presentAllocations_ok :
    presentAllocations allocations failure = .ok manual ↔
      allocations = some manual ∧ manual.entries ≠ [] := by
  unfold presentAllocations
  split
  · split_ifs with empty <;> grind
  · simp

theorem presentAllocations_knows (known : Knows failure) :
    FailsOnly Knows (presentAllocations allocations failure) := by
  unfold presentAllocations
  split
  · split <;> simp [known]
  · simpa

theorem manualAllocations_knows (inside : ∀ person ∈ manual.keys, person ∈ shares.keys) :
    FailsOnly Knows (manualAllocations context currency label shares manual) := by
  refine failsOnly_foldlM (fun state => state.keys = shares.keys) (fun state entry member same => ?_) rfl
  have known : entry.1 ∈ state.keys := same ▸ inside _ (mem_map_of_mem member)
  refine ⟨by simp [known], fun next step => ?_⟩
  simp only [bind_ok, pure_ok] at step
  obtain ⟨_, _, amount, _, rfl⟩ := step
  rw [keys_set, if_pos known, same]

/-- Manual allocations that succeed have no unknown name. -/
theorem manualAllocations_named
    (run : manualAllocations context currency label shares manual = .ok result) :
    ∀ person ∈ manual.keys, person ∈ shares.keys := by
  have visited := foldlM_visited
    (fun before state => state.keys = shares.keys ∧ ∀ entry ∈ before, entry.1 ∈ shares.keys)
    (fun before entry after state next _ held step => ?_) ⟨rfl, by simp⟩ run
  · intro person member
    obtain ⟨entry, listed, rfl⟩ := mem_map.mp member
    exact visited.2 entry listed
  · simp only [bind_ok, pure_ok, require_ok] at step
    obtain ⟨_, known, amount, _, rfl⟩ := step
    rw [held.1] at known
    refine ⟨by rw [keys_set, if_pos (held.1 ▸ known), held.1], ?_⟩
    exact forall_mem_append.mpr ⟨held.2, forall_mem_singleton.mpr known⟩

/-- An item raises no unknown participant when its people are there. -/
theorem itemAllocations_knows {item : Item} (nodup : people.Nodup)
    (named : ∀ person ∈ itemParticipants item ++ allocationNames item.allocations, person ∈ people)
    (amount : ℚ) (method : ItemMethod) (label : String) :
    FailsOnly Knows (itemAllocations context item amount method people label currency) := by
  have empty := keys_emptyShares nodup
  have equally : FailsOnly Knows (itemAllocations context item amount .equal people label currency) := by
    simp only [itemAllocations, failsOnly_bind, failsOnly_require]
    refine ⟨by simp [Knows], fun _ _ => ⟨by simp [Knows], fun _ _ => ?_⟩⟩
    refine failsOnly_foldlM (fun state => state.keys = people)
      (fun state person member same => ⟨?_, fun next step => ?_⟩) empty
    · simp [Dict.modify?, get?_eq_none, same, named person (mem_append_left _ member)]
    · rw [keys_modify? (expect_ok.mp step), same]
  cases method with
  | equal => exact equally
  | equalAmongConsumers => exact equally
  | manual =>
    simp only [itemAllocations, failsOnly_bind, presentAllocations_ok]
    refine ⟨presentAllocations_knows (by simp [Knows]), fun manual found =>
      ⟨manualAllocations_knows fun person member => ?_, by simp [Knows]⟩⟩
    rw [empty]
    exact named person (mem_append_right _ (by simpa [allocationNames, found.1] using member))
  | unsupported name => simp [itemAllocations, Knows]

end Allocations

section Adjustments

/-- The people that an adjustment calls. -/
def NormalizedAdjustment.names (adjustment : NormalizedAdjustment) : List String :=
  methodNames adjustment.allocationMethod (adjustment.amount = 0) adjustment.allocations
    adjustment.participants

variable {adjustment : NormalizedAdjustment} {explicit : Option (List String)}

theorem activeAdjustmentParticipants_knows (named : ∀ person ∈ explicit.getD [], person ∈ current.keys) :
    FailsOnly Knows (activeAdjustmentParticipants explicit current people) := by
  unfold activeAdjustmentParticipants
  split
  · simp only [failsOnly_bind, failsOnly_pure, implies_true, and_true]
    refine failsOnly_forM fun person member => ?_
    simp [named person member]
  · simp [Knows]

/-- An accepted adjustment names people of the shares. -/
theorem activeAdjustmentParticipants_named {active : List String}
    (run : activeAdjustmentParticipants explicit current people = .ok active) :
    ∀ person ∈ explicit.getD [], person ∈ current.keys := by
  match explicit with
  | none | some [] => simp
  | some (head :: rest) =>
    obtain ⟨_, known, _⟩ := bind_ok.mp run
    simpa using forM_ok.mp known

/-- An adjustment raises no unknown participant when its people are there. -/
theorem adjustmentAllocations_knows (nodup : people.Nodup) (keys : current.keys = people)
    (named : ∀ person ∈ adjustment.names, person ∈ people) (paidBy : Option String) :
    FailsOnly Knows (adjustmentAllocations context adjustment paidBy items current people currency) := by
  have proportional (base : Dict String ℚ) :
      FailsOnly Knows (proportionalAllocations context adjustment.amount base) := by
    simp [proportionalAllocations, Knows]
  unfold NormalizedAdjustment.names methodNames at named
  unfold adjustmentAllocations
  split_ifs with manually zero
  · simp only [failsOnly_bind, presentAllocations_ok]
    refine ⟨presentAllocations_knows (by simp [Knows]), fun manual found =>
      ⟨manualAllocations_knows ?_, by simp [Knows]⟩⟩
    simpa [keys_emptyShares nodup, allocationNames, manually, found.1] using named
  · simp
  · split
    case h_3 equally =>
      simp only [failsOnly_bind]
      refine ⟨activeAdjustmentParticipants_knows ?_, by simp [Knows]⟩
      simpa [keys, equally, zero] using named
    all_goals simp [proportional, Knows]

/-- Allocations that succeed have no unknown name that their method reads. -/
theorem adjustmentAllocations_named (nodup : people.Nodup) (keys : current.keys = people)
    {paidBy : Option String}
    (run : adjustmentAllocations context adjustment paidBy items current people currency = .ok result) :
    ∀ person ∈ adjustment.names, person ∈ people := by
  unfold adjustmentAllocations at run
  unfold NormalizedAdjustment.names methodNames
  split at run
  · rename_i manually
    simp only [bind_ok, presentAllocations_ok] at run
    obtain ⟨manual, ⟨found, _⟩, shares, allocated, _⟩ := run
    simpa [manually, found, allocationNames, keys_emptyShares nodup] using manualAllocations_named allocated
  · rename_i unlisted
    split at run
    · rename_i zero
      split <;> simp_all
    · split <;> simp_all
      obtain ⟨active, found, _⟩ := run
      simpa [keys] using activeAdjustmentParticipants_named found

/-- An amount that is read is zero exactly when its text states zero. -/
theorem statesZero_iff {raw : RawMoney} {label : FieldLabel} {amount : ℚ}
    (read : authoritativeMoney context raw currency label .nonNegative = .ok amount) :
    statesZero (some raw) = decide (amount = 0) := by
  obtain ⟨number, found, rfl, _⟩ := authoritativeMoney_nonNegative.mp read
  simp [statesZero, moneyDecimal_ok.mp found]

/-- A charge that is left out reads no name. -/
theorem names_included (type : String) (direction : Direction) (method : Option AdjustmentMethod)
    (charge : ℚ)
    (allocations : Option (Dict String RawMoney)) (participants : Option (List String)) :
    (if charge ≠ 0 ∨ method = some .manual then
        [(⟨type, direction, method, charge, allocations, participants⟩ : NormalizedAdjustment)]
      else []).flatMap NormalizedAdjustment.names =
      methodNames method (charge = 0) allocations participants := by
  split_ifs with included
  · simp [NormalizedAdjustment.names]
  · unfold methodNames
    split <;> simp_all

/-- A normalized adjustment calls the people of its method. -/
theorem normalizeAdjustment_names {adjustment : Adjustment} {normalized : NormalizedAdjustment}
    (run : normalizeAdjustment context adjustment currency = .ok normalized) :
    normalized.names = methodNames adjustment.allocationMethod (statesZero adjustment.amount)
      adjustment.allocations adjustment.participants := by
  simp only [normalizeAdjustment, bind_ok, expect_ok, pure_ok] at run
  obtain ⟨type, _, method, found, raw, stated, amount, read, rfl⟩ := run
  simp [NormalizedAdjustment.names, found, stated, statesZero_iff read]

variable {itemTotal : ℚ}

/-- The adjustments of a receipt read the names of the receipt, for the charge that was computed. -/
theorem receiptAdjustments_names {adjustments : List NormalizedAdjustment}
    (run : receiptAdjustments context receipt itemTotal currency = .ok adjustments) :
    ∃ charge, serviceChargeAmount context receipt itemTotal currency = .ok charge ∧
      adjustments.flatMap NormalizedAdjustment.names = calledNames receipt (charge = 0) := by
  simp only [receiptAdjustments, bind_ok, pure_ok] at run
  obtain ⟨charge, charged, listed, normalized, discount, discounted, rfl⟩ := run
  refine ⟨charge, charged, ?_⟩
  have names := map_eq_of_forall₂ (fun _ _ run => normalizeAdjustment_names run) (mapM_ok.mp normalized)
  have zero : statesZero receipt.discount = decide (discount = 0) := by
    rw [← statesZero_iff discounted]
    cases receipt.discount with
    | none => decide +kernel
    | some raw => rfl
  rw [flatMap_append, flatMap_append, names_included, names_included, calledNames, zero]
  simp only [flatMap_def, names]

/-- What states a charge of zero gives one, and without a rate nothing else does. -/
theorem serviceCharge_zero {charge : ℚ}
    (run : serviceChargeAmount context receipt itemTotal currency = .ok charge) :
    (chargesNothing receipt → charge = 0) ∧
      ((receipt.serviceChargeAmount = none → receipt.serviceChargeRate = none) →
        charge = 0 → chargesNothing receipt) := by
  unfold serviceChargeAmount at run
  unfold chargesNothing
  split at run
  · rename_i amount stated
    rw [stated]
    simp [statesZero_iff run]
  · rename_i rate absent stated
    simp only [authoritativeServiceChargeRate, bind_ok, ofMoney_ok, require_ok, pure_ok,
      moneyDecimal_ok] at run
    obtain ⟨_, ⟨number, read, _, _, _, _, rfl⟩, rfl⟩ := run
    have rounded : roundHalfUp 0 = 0 := mod_cast roundHalfUp_integer 0
    simp only [absent, stated, statesZero, read, decide_eq_true_eq]
    exact ⟨fun zero => by simp [quantizedServiceChargeFromRate, zero, rounded], by simp⟩
  · rename_i absent missing
    simp [absent, missing, statesZero, Except.ok.inj run]

theorem calledNames_subset {uncharged stated : Bool} (implied : stated → uncharged) :
    calledNames receipt uncharged ⊆ calledNames receipt stated := by
  have service (method : Option AdjustmentMethod) (allocations : Option (Dict String RawMoney))
      (participants : Option (List String)) :
      methodNames method uncharged allocations participants ⊆
        methodNames method stated allocations participants := by
    unfold methodNames
    split
    · simp
    · cases stated <;> cases uncharged <;> simp_all
    · simp
  have charged := service (receipt.serviceChargeAllocationMethod.getD (some .proportionalByItemAmount))
    receipt.serviceChargeAllocations receipt.serviceChargeParticipants
  unfold calledNames
  grind

end Adjustments

section Receipts

/-- The names that a receipt has for its items and methods are participants. -/
structure Receipt.Names (receipt : Receipt) (people : List String) : Prop where
  items : ∀ person ∈ itemNames receipt, person ∈ people
  called : ∀ person ∈ calledNames receipt (chargesNothing receipt), person ∈ people

/-- The items raise no unknown participant when the receipt names people of the case. -/
theorem itemShares_knows (nodup : people.Nodup) (named : receipt.Names people) :
    FailsOnly Knows (itemShares context receipt people currency) := by
  simp only [itemShares, failsOnly_bind, failsOnly_expect, expect_ok]
  refine ⟨by simp [Knows], fun items listed => failsOnly_foldlM_each fun state item member => ?_⟩
  simp only [itemStep, failsOnly_bind]
  refine ⟨by simp, fun amount _ => ⟨itemAllocations_knows nodup (fun person found => ?_) _ _ _, by simp⟩⟩
  exact named.items person (mem_flatMap.mpr ⟨item, by simpa [listed] using member, found⟩)

theorem receiptAdjustments_knows (itemTotal : ℚ) :
    FailsOnly Knows (receiptAdjustments context receipt itemTotal currency) := by
  have charge : FailsOnly Knows (serviceChargeAmount context receipt itemTotal currency) := by
    unfold serviceChargeAmount
    split <;> simp [authoritativeServiceChargeRate, Knows]
  simp [receiptAdjustments, normalizeAdjustment, charge, Knows]

theorem computeExactReceiptShares_knows (nodup : people.Nodup) (named : receipt.Names people) :
    FailsOnly Knows (computeExactReceiptShares context receipt people currency) := by
  have total (itemTotal : ℚ) : FailsOnly Knows (checkedItemTotal context receipt itemTotal currency) := by
    unfold checkedItemTotal
    split <;> simp [Knows]
  have paid (itemTotal : ℚ) (adjustments : List NormalizedAdjustment) :
      FailsOnly Knows (receiptNetPaid context receipt itemTotal adjustments currency) := by
    unfold receiptNetPaid
    split <;> simp
  have applied (direction : Direction) (shares allocations : Dict String ℚ) :
      FailsOnly Knows (applyAllocations context direction shares allocations) := by
    refine failsOnly_foldlM_each fun state entry _ => ?_
    cases direction <;> simp [applyAllocation, Knows]
  simp only [computeExactReceiptShares, failsOnly_bind, failsOnly_pure, implies_true, and_true]
  refine ⟨itemShares_knows nodup named, fun items listed => ⟨total _, fun itemTotal _ =>
    ⟨receiptAdjustments_knows itemTotal, fun adjustments normalized => ⟨?_, fun running _ => ⟨paid _ _,
      fun _ _ => by simp [validateExactReconciliation, requireNonNegativeExactShares, Knows]⟩⟩⟩⟩⟩
  obtain ⟨charge, charged, names⟩ := receiptAdjustments_names normalized
  refine failsOnly_foldlM (fun state => KeptShares context people state.1)
    (fun state adjustment member kept => ⟨?_, fun next step => ?_⟩) (itemShares_sound nodup listed).1
  · simp only [adjustmentStep, failsOnly_bind]
    refine ⟨adjustmentAllocations_knows nodup kept.keys (fun person found => named.called person ?_) _,
      by simp [applied]⟩
    have called : person ∈ calledNames receipt (charge = 0) :=
      names ▸ mem_flatMap.mpr ⟨adjustment, member, found⟩
    exact calledNames_subset (by simpa using (serviceCharge_zero charged).1) called
  · simp only [adjustmentStep, bind_ok, pure_ok] at step
    obtain ⟨_, _, _, step, rfl⟩ := step
    exact applyAllocations_kept kept step

/-- Exact shares that exist know every name that a method reads, unless a rate may charge nothing. -/
theorem computeExactReceiptShares_named {exact : ExactReceiptShares} (nodup : people.Nodup)
    (run : computeExactReceiptShares context receipt people currency = .ok exact)
    (unrated : receipt.serviceChargeAmount = none → receipt.serviceChargeRate = none) :
    ∀ person ∈ calledNames receipt (chargesNothing receipt), person ∈ people := by
  simp only [computeExactReceiptShares, bind_ok] at run
  obtain ⟨items, listed, itemTotal, _, adjustments, normalized, running, adjusted, _⟩ := run
  obtain ⟨charge, charged, names⟩ := receiptAdjustments_names normalized
  have visited := foldlM_visited (fun before state => KeptShares context people state.1 ∧
    ∀ adjustment ∈ before, ∀ person ∈ adjustment.names, person ∈ people)
    (fun before adjustment after state next _ held step => ?_)
    ⟨(itemShares_sound nodup listed).1, by simp⟩ adjusted
  · intro person called
    have found : person ∈ calledNames receipt (charge = 0) :=
      calledNames_subset (by simpa using (serviceCharge_zero charged).2 unrated) called
    rw [← names] at found
    obtain ⟨adjustment, member, found⟩ := mem_flatMap.mp found
    exact visited.2 adjustment member person found
  · simp only [adjustmentStep, bind_ok, pure_ok] at step
    obtain ⟨_, allocated, _, applied, rfl⟩ := step
    refine ⟨applyAllocations_kept held.1 applied, forall_mem_append.mpr ⟨held.2, ?_⟩⟩
    exact forall_mem_singleton.mpr (adjustmentAllocations_named nodup held.1.keys allocated)

/-- Nor does the whole receipt. -/
theorem receiptStep_knows (nodup : people.Nodup) (named : receipt.Names people)
    (state : Accumulated) :
    FailsOnly Knows (receiptStep context people currency state receipt) := by
  have nested : FailsOnly Knows (validateNestedCurrencyConsistency receipt currency) := by
    simp only [validateNestedCurrencyConsistency, failsOnly_bind]
    refine ⟨failsOnly_forM fun entry _ => ?_, fun _ _ => failsOnly_forM fun entry _ => ?_⟩ <;>
      split <;> simp
  simp [receiptStep, calculateReceipt, requireReceiptCurrency, receiptCurrency, nested,
    itemShares_knows nodup named, computeExactReceiptShares_knows nodup named, roundingAdjustmentOf, Knows]

end Receipts

theorem mem_foldl_appendUnique {person : String} {values : List (Option String)}
    {start : List String} :
    person ∈ values.foldl appendUnique start ↔ person ∈ start ∨ some person ∈ values := by
  induction values generalizing start with
  | nil => simp
  | cons value rest ih =>
    rw [foldl_cons, ih, appendUnique.eq_def]
    cases value with
    | none => simp
    | some value =>
      dsimp only
      split_ifs with known
      · grind
      · simp [or_assoc]

variable {caseData : CaseData} (unlisted : caseData.participants.getD [] = [])
include unlisted

/-- The derived participants are the collected ones. -/
theorem mem_caseParticipants (derived : caseParticipants caseData = .ok people) {person : String} :
    person ∈ people ↔ person ∈ collectedParticipants caseData := by
  simp only [caseParticipants, unlisted, if_true, ← foldl_flatMap] at derived
  split_ifs at derived
  obtain rfl := Except.ok.inj derived
  simp [mem_foldl_appendUnique, collectedParticipants, mentionedParticipants, allocationKeys, itemNames,
    allocationNames, or_assoc, eq_comm]

/-- The participants of a case cover its receipts when the calls are collected. -/
theorem collected_names (derived : caseParticipants caseData = .ok people)
    (collected : CallsCollected caseData) (listed : receipt ∈ caseData.receipts) : receipt.Names people := by
  refine ⟨fun person named => ?_, fun person called => ?_⟩
  · refine (mem_caseParticipants unlisted derived).mpr (mem_flatMap.mpr ⟨receipt, listed, ?_⟩)
    simp [named]
  · exact (mem_caseParticipants unlisted derived).mpr (collected receipt listed person called)

/-- A case whose calls are collected raises no unknown participant. -/
theorem calculateReceiptSplit_knows (collected : CallsCollected caseData) (fuel : ℕ) :
    FailsOnly Knows (calculateReceiptSplit context fuel caseData) := by
  have derivation : FailsOnly Knows (caseParticipants caseData) := by
    unfold caseParticipants
    dsimp only
    split_ifs <;> simp [Knows]
  have payer (people payers : List String) :
      FailsOnly Knows (resolvePrimaryPayer caseData.payer people payers) := by
    unfold resolvePrimaryPayer
    split <;> simp [validatePrimaryPayer, Knows]
  simp only [calculateReceiptSplit, failsOnly_bind, failsOnly_require, require_ok]
  refine ⟨by simp [Knows], fun _ _ => ⟨derivation, fun people derived => ⟨by simp [Knows], fun _ nodup =>
    ⟨by simp [resolveAuthoritativeCurrency, Knows], fun currency _ =>
      ⟨failsOnly_foldlM_each fun state receipt listed => ?_, fun state _ => ?_⟩⟩⟩⟩⟩
  · exact receiptStep_knows nodup (collected_names unlisted derived collected listed) state
  · simp [payer, Knows]
    intros
    split <;> simp [payerSummaryOf, Knows]

/-- A case that is accepted names only its participants. -/
theorem calculateReceiptSplit_named {fuel : ℕ} {result : SplitResult}
    (run : calculateReceiptSplit context fuel caseData = .ok result)
    (unrated : ∀ receipt ∈ caseData.receipts,
      receipt.serviceChargeAmount = none → receipt.serviceChargeRate = none) :
    CallsCollected caseData := by
  simp only [calculateReceiptSplit, bind_ok, require_ok] at run
  obtain ⟨_, _, people, derived, _, nodup, currency, _, state, steps, _⟩ := run
  have visited := foldlM_visited (fun before _ => ∀ receipt ∈ before,
    ∀ person ∈ calledNames receipt (chargesNothing receipt), person ∈ people)
    (fun before receipt after state next same held step => ?_) (by simp) steps
  · intro receipt listed person called
    exact (mem_caseParticipants unlisted derived).mp (visited receipt listed person called)
  · simp only [receiptStep, calculateReceipt, bind_ok] at step
    obtain ⟨_, _, _, ⟨_, _, _, _, _, _, _, _, _, _, exact, shares, _⟩, _⟩ := step
    have named := computeExactReceiptShares_named nodup shares (unrated receipt (by simp [same]))
    exact forall_mem_append.mpr ⟨held, forall_mem_singleton.mpr named⟩

omit unlisted

/-- A dinner of the guests with a service charge that A and B share. -/
def chargedDinner (guests : List String) : CaseData where
  currency := some "SGD"
  receipts := [{
    paidBy := some "A"
    items := some [{ amount := some (.text "10.00"), participants := some guests }]
    serviceChargeAmount := some (.text "2.00")
    serviceChargeAllocationMethod := some (some .equalPerParticipant)
    serviceChargeParticipants := some ["A", "B"] }]

end FinanceCore.Calculators

import FinanceCore.Calculators.PayerCase
import FinanceCore.Foundation.SignedSums

namespace FinanceCore.Calculators

open Decimal Exceptions Money List Dict

variable {ctx : Context} {unit : Currency} {people : List String}

section Keys

variable {shares result : Dict String ℚ}

theorem keys_set_of_mem {person : String} (member : person ∈ shares.keys) (amount : ℚ) :
    (shares.set person amount).keys = shares.keys := by
  rw [keys_set, if_pos member]

theorem keys_manualAllocations {label : String → FieldLabel} {manual : Dict String RawMoney}
    (run : manualAllocations ctx unit label shares manual = .ok result) : result.keys = shares.keys := by
  refine foldlM_invariant (fun state => state.keys = shares.keys) (fun state entry next _ same step => ?_) rfl run
  obtain ⟨_, known, step⟩ := bind_ok.mp step
  obtain ⟨amount, _, step⟩ := bind_ok.mp step
  obtain rfl := pure_ok.mp step
  rw [keys_set_of_mem (require_ok.mp known), same]

variable {amount : ℚ} {current items : Dict String ℚ} {payer : String}

theorem keys_itemAllocations {item : Item} {method : ItemMethod} {label : String}
    (nodup : people.Nodup)
    (run : itemAllocations ctx item amount method people label unit = .ok result) : result.keys = people := by
  have empty := keys_emptyShares nodup
  have equally : itemAllocations ctx item amount .equal people label unit = .ok result → result.keys = people := by
    intro run
    simp only [itemAllocations, bind_ok] at run
    obtain ⟨_, _, _, _, run⟩ := run
    refine foldlM_invariant (fun state => state.keys = people) (fun state entry next _ same step => ?_) empty run
    rw [keys_modify? (expect_ok.mp step), same]
  cases method with
  | equal => exact equally run
  | equalAmongConsumers => exact equally run
  | manual =>
    simp only [itemAllocations, bind_ok, pure_ok] at run
    obtain ⟨manual, _, shares, allocated, _, _, rfl⟩ := run
    rw [keys_manualAllocations allocated, empty]
  | unsupported name => cases run

/-- Every item reports an allocation for each participant. -/
theorem keys_itemDetails {receipt : Receipt} {items : Dict String ℚ × List ItemDetail}
    (nodup : people.Nodup) (run : itemShares ctx receipt people unit = .ok items) :
    ∀ detail ∈ items.2, detail.participantAllocations.keys = people := by
  obtain ⟨listed, _, run⟩ := bind_ok.mp run
  refine foldlM_invariant (fun state => ∀ detail ∈ state.2, detail.participantAllocations.keys = people)
    (fun state item next _ sound step => ?_) (fun detail member => by cases member) run
  simp only [itemStep, bind_ok, pure_ok] at step
  obtain ⟨amount, _, allocations, allocated, shares, _, rfl⟩ := step
  intro detail member
  rcases mem_append.mp member with earlier | last
  · exact sound detail earlier
  · rw [mem_singleton.mp last]
    exact keys_itemAllocations nodup allocated

theorem keys_proportional {base : Dict String ℚ} (run : proportionalAllocations ctx amount base = .ok result) :
    result.keys = base.keys := by
  obtain ⟨_, _, run⟩ := bind_ok.mp run
  obtain rfl := pure_ok.mp run
  exact keys_map _ base

theorem active_subset {explicit : Option (List String)} {active : List String}
    (keys : current.keys = people)
    (run : activeAdjustmentParticipants explicit current people = .ok active) :
    ∀ person ∈ active, person ∈ people := by
  intro person member
  unfold activeAdjustmentParticipants at run
  split at run
  · obtain ⟨_, known, run⟩ := bind_ok.mp run
    obtain rfl := pure_ok.mp run
    rw [← keys]
    exact require_ok.mp (forM_ok.mp known person member)
  · obtain ⟨shares, read, run⟩ := bind_ok.mp run
    obtain ⟨_, _, run⟩ := bind_ok.mp run
    obtain rfl := pure_ok.mp run
    obtain ⟨entry, inside, rfl⟩ := mem_map.mp member
    obtain ⟨name, listed, done⟩ := exists_of_mem_forall₂ (mapM_ok.mp read) (mem_filter.mp inside).1
    obtain ⟨_, _, rfl⟩ := map_ok.mp done
    exact listed

variable (nodup : people.Nodup) (payerIn : payer ∈ people)
include nodup payerIn

theorem keys_adjustmentAllocations {adjustment : NormalizedAdjustment}
    (itemKeys : items.keys = people) (currentKeys : current.keys = people)
    (run : adjustmentAllocations ctx adjustment (some payer) items current people unit = .ok result) :
    result.keys = people := by
  have empty := keys_emptyShares nodup
  unfold adjustmentAllocations at run
  split at run
  · simp only [bind_ok, pure_ok] at run
    obtain ⟨manual, _, shares, allocated, _, _, rfl⟩ := run
    rw [keys_manualAllocations allocated, empty]
  · split at run
    · cases run
      exact empty
    · split at run
      · cases run
      · obtain ⟨found, same, run⟩ := bind_ok.mp run
        obtain rfl := Option.some.inj (expect_ok.mp same)
        obtain rfl := pure_ok.mp run
        rw [keys_set_of_mem (by rw [empty]; exact payerIn), empty]
      · obtain ⟨active, found, run⟩ := bind_ok.mp run
        obtain ⟨_, _, run⟩ := bind_ok.mp run
        obtain rfl := pure_ok.mp run
        rw [keys_foldl_set, empty]
        rw [empty]
        exact active_subset currentKeys found
      · rw [keys_proportional run, itemKeys]
      · rw [keys_proportional run, currentKeys]
      · cases run
        exact empty
      · cases run

/-- Every adjustment reports an allocation for each participant. -/
theorem keys_adjustmentDetails {adjustments : List NormalizedAdjustment}
    {running : Dict String ℚ × List AdjustmentDetail}
    (kept : KeptShares ctx people items)
    (run : adjustments.foldlM (adjustmentStep ctx (some payer) items people unit) (items, []) = .ok running) :
    ∀ detail ∈ running.2, detail.participantAllocations.keys = people := by
  have invariant : KeptShares ctx people running.1 ∧
      ∀ detail ∈ running.2, detail.participantAllocations.keys = people := by
    refine foldlM_invariant (fun state => KeptShares ctx people state.1 ∧
      ∀ detail ∈ state.2, detail.participantAllocations.keys = people)
      (fun state adjustment next _ sound step => ?_) ⟨kept, fun detail member => by cases member⟩ run
    simp only [adjustmentStep, bind_ok] at step
    obtain ⟨allocations, allocated, shares, applied, step⟩ := step
    obtain rfl := pure_ok.mp step
    refine ⟨applyAllocations_kept sound.1 applied, fun detail member => ?_⟩
    rcases mem_append.mp member with earlier | last
    · exact sound.2 detail earlier
    · rw [mem_singleton.mp last]
      exact keys_adjustmentAllocations nodup payerIn kept.keys sound.1.keys allocated
  exact invariant.2

end Keys

section Final

theorem truncate_nonneg {value : ℚ} (nonneg : 0 ≤ value) : 0 ≤ truncate value := by
  rw [truncate, if_pos nonneg]
  exact Int.floor_nonneg.mpr nonneg

variable {policy : RemainderPolicy}

variable {person : String} {payer : Option String} {floors : Dict String ℤ}

theorem baseUnits_nonneg {shares : Dict String ℚ} {factor : ℕ}
    (nonneg : 0 ≤ shareOf shares person) :
    0 ≤ (baseUnits ctx shares factor policy person).base := by
  have units : 0 ≤ toMinorUnits ctx (shareOf shares person) factor :=
    ctx.fix_nonneg (mul_nonneg nonneg (Nat.cast_nonneg _))
  unfold baseUnits
  split
  · exact roundHalfUp_nonneg units
  · exact truncate_nonneg units

theorem spreadRemainder_nonneg {result : Dict String ℤ} {remainders : Dict String ℚ} {remaining : ℤ}
    (nonneg : floors.All (0 ≤ ·))
    (run : spreadRemainder ctx policy payer floors remainders remaining = .ok result) : result.All (0 ≤ ·) := by
  cases policy with
  | payer =>
    obtain ⟨payer, _, run⟩ := bind_ok.mp run
    unfold absorbRemainder at run
    split at run
    · cases run
      exact nonneg
    · obtain ⟨units, _, run⟩ := bind_ok.mp run
      obtain ⟨_, left, run⟩ := bind_ok.mp run
      obtain rfl := pure_ok.mp run
      exact nonneg.set (require_ok.mp left) payer
  | largestRemainder =>
    refine foldlM_invariant (Dict.All (0 ≤ ·)) (fun state index next _ nonneg step => ?_) nonneg run
    obtain ⟨entry, _, step⟩ := bind_ok.mp step
    refine nonneg.modify? (expect_ok.mp step) fun units held => ?_
    omega
  | unsupported name => cases run

/-- The final shares of a receipt: one for each participant, none negative and all of the scale of the currency. -/
structure FinalShares (context : Context) (currency : Currency) (participants : List String)
    (shares : Dict String ℚ) : Prop where
  keys : shares.keys = participants
  nonneg : shares.All (0 ≤ ·)
  scaled : shares.All (AtScale (minorUnits currency))

theorem amountOfUnits_eq_ok {entry : String × ℚ} (nonneg : floors.All (0 ≤ ·))
    (run : amountOfUnits ctx floors unit person = .ok entry) :
    entry.1 = person ∧ 0 ≤ entry.2 ∧ AtScale (minorUnits unit) entry.2 := by
  simp only [amountOfUnits, bind_ok] at run
  obtain ⟨units, found, amount, done, run⟩ := run
  obtain rfl := pure_ok.mp run
  have quantized := expect_ok.mp done
  have share : 0 ≤ ctx.div units (10 ^ minorUnits unit) :=
    ctx.fix_nonneg (div_nonneg (by exact_mod_cast nonneg _ _ (expect_ok.mp found)) (by positivity))
  exact ⟨rfl, Context.quantize_nonneg quantized share, (Context.quantize_holds quantized).atScale⟩

/-- Stage B gives every participant a non-negative number of minor units. -/
theorem allocateMinorUnits_final {exactShares final : Dict String ℚ} {total : ℚ}
    (run : allocateMinorUnits ctx exactShares total unit people policy payer = .ok final) :
    FinalShares ctx unit people final ∧ 0 ≤ total ∧ AtScale (minorUnits unit) total := by
  simp only [allocateMinorUnits, bind_ok] at run
  obtain ⟨_, validated, _, _, floors, spread, amounts, read, _, _, run⟩ := run
  obtain rfl := pure_ok.mp run
  simp only [validateAllocatorInputs, bind_ok] at validated
  obtain ⟨_, _, _, nodup, _, totalSign, _, totalScale, _, signs, _⟩ := validated
  have nodup := require_ok.mp nodup
  have bases : (Dict.ofList ((people.map (baseUnits ctx exactShares (10 ^ minorUnits unit) policy)).map
      fun units => (units.participant, units.base))).All (0 ≤ ·) := by
    have labels : ((people.map (baseUnits ctx exactShares (10 ^ minorUnits unit) policy)).map
        fun units => (units.participant, units.base)).map Prod.fst = people := by
      rw [map_map, map_map]
      exact map_id _
    intro person units found
    have inside := mem_entries_of_get? found
    rw [entries_ofList (by rw [labels]; exact nodup), map_map] at inside
    obtain ⟨name, member, same⟩ := mem_map.mp inside
    obtain ⟨rfl, rfl⟩ := Prod.mk.inj same
    exact baseUnits_nonneg (require_ok.mp (forM_ok.mp signs _ member))
  have floorsNonneg := spreadRemainder_nonneg bases spread
  have each : ∀ entry ∈ amounts, 0 ≤ entry.2 ∧ AtScale (minorUnits unit) entry.2 :=
    forall_mem_of_mapM (fun _ _ done => (amountOfUnits_eq_ok floorsNonneg done).2) read
  have labels : amounts.map Prod.fst = people := by
    have labelled : ∀ person entry, amountOfUnits ctx floors unit person = .ok entry →
        entry.1 = id person := fun _ _ done => (amountOfUnits_eq_ok floorsNonneg done).1
    rw [map_eq_of_forall₂ labelled (mapM_ok.mp read), map_id]
  have entries := entries_ofList (labels.symm ▸ nodup)
  have valued (person : String) (amount : ℚ) (found : (Dict.ofList amounts).get? person = some amount) :
      0 ≤ amount ∧ AtScale (minorUnits unit) amount := by
    have inside := mem_entries_of_get? found
    rw [entries] at inside
    exact each _ inside
  refine ⟨⟨?_, fun person amount found => (valued person amount found).1,
    fun person amount found => (valued person amount found).2⟩, require_ok.mp totalSign,
    (validateAmountForCurrency_ok.mp (ofMoney_ok.mp totalScale)).atScale⟩
  rw [Dict.keys, entries, labels]

/-- What a receipt result reports about its participants. -/
structure ReceiptResult.Reported (context : Context) (currency : Currency)
    (participants : List String) (payer : String) (result : ReceiptResult) : Prop where
  paidBy : result.paidBy = payer
  payerIn : payer ∈ participants
  netNonneg : 0 ≤ result.netPaid
  netScaled : AtScale (minorUnits currency) result.netPaid
  shares : FinalShares context currency participants result.participantShares
  itemShares : result.itemShares.keys = participants
  items : ∀ detail ∈ result.items, detail.participantAllocations.keys = participants
  adjustments : ∀ detail ∈ result.adjustments, detail.participantAllocations.keys = participants
  roundings : ∀ rounding ∈ result.roundingAdjustments, rounding.participant ∈ participants
  roundingTo : ∀ participant ∈ result.roundingAdjustmentParticipant, participant ∈ participants

theorem calculateReceipt_reported {receipt : Receipt} {payer : String} {result : ReceiptResult}
    (nodup : people.Nodup) (paidBy : receipt.paidBy = some payer)
    (run : calculateReceipt ctx receipt people unit = .ok result) : result.Reported ctx unit people payer := by
  simp only [calculateReceipt, bind_ok, pure_ok, require_ok] at run
  obtain ⟨found, foundPayer, _, known, _, _, _, _, items, itemised, exact, computed, final, allocated, roundings,
    rounded, itemShareMap, mapped, roundingAdjustment, _, rfl⟩ := run
  rw [paidBy] at foundPayer
  obtain rfl := Option.some.inj (expect_ok.mp foundPayer)
  have payerIn := known
  obtain ⟨shares, nonneg, scaled⟩ := allocateMinorUnits_final allocated
  refine ⟨rfl, payerIn, nonneg, scaled, shares, ?_, keys_itemDetails nodup itemised, ?_, ?_, ?_⟩
  · exact (map_eq_of_forall₂ (fun _ _ step => step.1) (mapM_ok.mp mapped)).trans (itemShares_sound nodup itemised).1.keys
  · simp only [computeExactReceiptShares, bind_ok, pure_ok] at computed
    obtain ⟨exactItems, listed, _, _, _, _, running, adjusted, _, _, _, _, _, _, rfl⟩ := computed
    rw [paidBy] at adjusted
    exact keys_adjustmentDetails nodup payerIn (itemShares_sound nodup listed).1 adjusted
  · intro rounding member
    obtain ⟨found, inside, same⟩ := mem_filterMap.mp member
    obtain ⟨person, listed, done⟩ := exists_of_mem_forall₂ (mapM_ok.mp rounded) inside
    simp only [roundingAdjustmentOf, bind_ok] at done
    obtain ⟨_, _, _, _, _, _, done⟩ := done
    have made := pure_ok.mp done
    rw [id_eq] at same
    rw [same] at made
    split at made
    · rw [← Option.some.inj made]
      exact listed
    · cases made
  · intro person member
    split at member
    · cases member
    · rw [← Option.some.inj member]
      exact payerIn

end Final

/-- The running totals of a case in which one payer paid every receipt. -/
structure Accumulated.Single (context : Context) (currency : Currency) (participants : List String)
    (payer : String) (state : Accumulated) : Prop where
  shares : FinalShares context currency participants state.participantShares
  paid : FinalShares context currency participants state.payerPaidAmounts
  others : ∀ participant ≠ payer, ∀ amount ∈ state.payerPaidAmounts.get? participant, amount = 0
  reported : ∀ result ∈ state.receiptResults, result.Reported context currency participants payer

theorem finalShares_empty (nodup : people.Nodup) : FinalShares ctx unit people (emptyShares people) :=
  ⟨keys_emptyShares nodup, all_fromKeys le_rfl _, all_fromKeys (AtScale.zero _) _⟩

theorem FinalShares.modify {shares result : Dict String ℚ} {person : String} {amount : ℚ}
    (sound : FinalShares ctx unit people shares) (nonneg : 0 ≤ amount)
    (scaled : AtScale (minorUnits unit) amount)
    (done : shares.modify? person (fun share => ctx.add share amount) = some result) :
    FinalShares ctx unit people result := by
  refine ⟨(keys_modify? done).trans sound.keys, ?_, ?_⟩
  · exact sound.nonneg.modify? done fun share held => ctx.fix_nonneg (add_nonneg held nonneg)
  · exact sound.scaled.modify? done fun share held => Context.fix_atScale (held.add scaled)

theorem addAllocations_finalShares {shares allocations result : Dict String ℚ}
    (sound : FinalShares ctx unit people shares)
    (added : FinalShares ctx unit people allocations)
    (run : addAllocations ctx shares allocations = .ok result) : FinalShares ctx unit people result := by
  refine foldlM_invariant (FinalShares ctx unit people) (fun state entry next member sound step => ?_)
    sound run
  have found := get?_of_mem_entries member
  exact sound.modify (added.nonneg _ _ found) (added.scaled _ _ found) (expect_ok.mp step)

theorem receiptStep_single {payer : String} {receipt : Receipt} {state next : Accumulated}
    (nodup : people.Nodup) (paidBy : receipt.paidBy = some payer)
    (sound : state.Single ctx unit people payer)
    (run : receiptStep ctx people unit state receipt = .ok next) : next.Single ctx unit people payer := by
  simp only [receiptStep, bind_ok, pure_ok] at run
  obtain ⟨_, _, result, calculated, paid, credited, shares, added, rfl⟩ := run
  have reported := calculateReceipt_reported nodup paidBy calculated
  have credited := expect_ok.mp credited
  refine ⟨addAllocations_finalShares sound.shares reported.shares added,
    sound.paid.modify reported.netNonneg reported.netScaled credited, ?_, ?_⟩
  · intro person other amount found
    rw [reported.paidBy] at credited
    rw [get?_modify? credited, if_neg other] at found
    exact sound.others person other amount found
  · intro later member
    rcases mem_append.mp member with earlier | last
    · exact sound.reported later earlier
    · rw [mem_singleton.mp last]
      exact reported

end FinanceCore.Calculators

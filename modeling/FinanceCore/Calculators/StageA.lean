import FinanceCore.Calculators.MinorUnits
import FinanceCore.Calculators.ExactShares
import FinanceCore.Foundation.KeptValues

namespace FinanceCore.Calculators

open Decimal Exceptions Money Dict

variable {ctx : Context} {unit : Currency} {people : List String}

/-- The shares of fixed participants, each with no more digits than the context keeps. -/
structure KeptShares (context : Context) (participants : List String)
    (shares : Dict String ℚ) : Prop where
  keys : shares.keys = participants
  kept : shares.All fun share => context.fix share = share

theorem keys_emptyShares (nodup : people.Nodup) : (emptyShares people).keys = people := by
  rw [emptyShares, fromKeys_eq_tabulate people nodup, keys_tabulate]

theorem keptShares_empty (ctx : Context) (nodup : people.Nodup) : KeptShares ctx people (emptyShares people) := by
  refine ⟨keys_emptyShares nodup, all_fromKeys ?_ people⟩
  exact ctx.fix_zero

variable {shares result allocations : Dict String ℚ} {receipt : Receipt}

variable (sound : KeptShares ctx people shares)
include sound

/-- A change whose results are fixed keeps the shares. -/
theorem KeptShares.modify {person : String} {change : ℚ → ℚ}
    (fixed : ∀ share, ctx.fix (change share) = change share)
    (done : shares.modify? person change = some result) : KeptShares ctx people result :=
  ⟨(keys_modify? done).trans sound.keys, sound.kept.modify? done fun share _ => fixed share⟩

theorem addAllocations_kept
    (run : addAllocations ctx shares allocations = .ok result) : KeptShares ctx people result := by
  refine foldlM_invariant (KeptShares ctx people) (fun state entry next _ sound step => ?_) sound run
  exact sound.modify (fun share => ctx.fix_fix _) (expect_ok.mp step)

theorem applyAllocations_kept {direction : Direction}
    (run : applyAllocations ctx direction shares allocations = .ok result) : KeptShares ctx people result := by
  refine foldlM_invariant (KeptShares ctx people) (fun state entry next _ sound step => ?_) sound run
  cases direction with
  | unsupported name => cases step
  | _ => exact sound.modify (fun share => ctx.fix_fix _) (expect_ok.mp step)

omit sound

theorem addAllocations_nonneg (nonneg : shares.All (0 ≤ ·)) (added : allocations.All (0 ≤ ·))
    (run : addAllocations ctx shares allocations = .ok result) : result.All (0 ≤ ·) := by
  refine foldlM_invariant (Dict.All (0 ≤ ·)) (fun state entry next member nonneg step => ?_) nonneg run
  have amount := added entry.1 entry.2 (get?_of_mem_entries member)
  exact nonneg.modify? (expect_ok.mp step) fun share held => ctx.fix_nonneg (add_nonneg held amount)

theorem manualAllocations_nonneg {label : String → FieldLabel} {manual : Dict String RawMoney}
    (nonneg : shares.All (0 ≤ ·)) (run : manualAllocations ctx unit label shares manual = .ok result) :
    result.All (0 ≤ ·) := by
  refine foldlM_invariant (Dict.All (0 ≤ ·)) (fun state entry next _ nonneg step => ?_) nonneg run
  obtain ⟨_, _, step⟩ := bind_ok.mp step
  obtain ⟨amount, read, step⟩ := bind_ok.mp step
  obtain ⟨number, _, same, _, positive⟩ := authoritativeMoney_nonNegative.mp read
  obtain rfl := pure_ok.mp step
  exact nonneg.set positive entry.1

theorem itemAllocations_nonneg {item : Item} {amount : ℚ} {method : ItemMethod} {label : String}
    (positive : 0 ≤ amount)
    (run : itemAllocations ctx item amount method people label unit = .ok result) : result.All (0 ≤ ·) := by
  have empty : (emptyShares people).All (0 ≤ ·) := all_fromKeys le_rfl people
  have equally : itemAllocations ctx item amount .equal people label unit = .ok result → result.All (0 ≤ ·) := by
    intro run
    simp only [itemAllocations, bind_ok] at run
    obtain ⟨_, _, _, _, run⟩ := run
    refine foldlM_invariant (Dict.All (0 ≤ ·)) (fun state person next _ nonneg step => ?_) empty run
    refine nonneg.modify? (expect_ok.mp step) fun share held => ctx.fix_nonneg (add_nonneg held ?_)
    exact ctx.fix_nonneg (div_nonneg positive (Nat.cast_nonneg _))
  cases method with
  | equal => exact equally run
  | equalAmongConsumers => exact equally run
  | manual =>
    simp only [itemAllocations, bind_ok, pure_ok] at run
    obtain ⟨manual, _, shares, done, _, _, rfl⟩ := run
    exact manualAllocations_nonneg empty done
  | unsupported name => cases run

variable {items : Dict String ℚ × List ItemDetail} {itemTotal : ℚ}

/-- The item shares cover the participants, keep their digits and are not negative. -/
theorem itemShares_sound (nodup : people.Nodup) (run : itemShares ctx receipt people unit = .ok items) :
    KeptShares ctx people items.1 ∧ items.1.All (0 ≤ ·) := by
  obtain ⟨listed, _, run⟩ := bind_ok.mp run
  refine foldlM_invariant (fun state => KeptShares ctx people state.1 ∧ state.1.All (0 ≤ ·))
    (fun state item next _ sound step => ?_)
    ⟨keptShares_empty ctx nodup, all_fromKeys le_rfl people⟩ run
  simp only [itemStep, bind_ok, pure_ok] at step
  obtain ⟨amount, read, allocations, allocated, shares, added, rfl⟩ := step
  obtain ⟨number, _, same, _, positive⟩ := authoritativeMoney_nonNegative.mp read
  exact ⟨addAllocations_kept sound.1 added,
    addAllocations_nonneg sound.2 (itemAllocations_nonneg positive allocated) added⟩

/-- Every item share rounds because the larger item total did. -/
theorem itemShareMap_succeeds (nodup : people.Nodup) (listed : itemShares ctx receipt people unit = .ok items)
    (checked : checkedItemTotal ctx receipt (ctx.sumFrom 0 items.1.values) unit = .ok itemTotal) :
    ∃ shares, roundedShareMap ctx items.1 unit = .ok shares := by
  obtain ⟨kept, nonneg⟩ := itemShares_sound nodup listed
  have total : ∃ rounded, ctx.quantize halfUp (minorUnits unit) (ctx.sumFrom 0 items.1.values) = some rounded := by
    unfold checkedItemTotal at checked
    split at checked
    · obtain ⟨expected, read, checked⟩ := bind_ok.mp checked
      obtain ⟨_, same, _⟩ := bind_ok.mp checked
      obtain ⟨_, _, _, held, _⟩ := authoritativeMoney_nonNegative.mp read
      rw [require_ok.mp same]
      exact ⟨expected, held.quantize halfUp⟩
    · exact ⟨itemTotal, roundForCurrency_ok.mp checked⟩
  obtain ⟨rounded, done⟩ := total
  apply Dict.mapM_succeeds
  intro entry inside
  have value : entry.2 ∈ items.1.values := List.mem_map_of_mem inside
  have below := ctx.le_sumFrom le_rfl (fun share member => nonneg.mem_values member)
    (fun share member => kept.kept.mem_values member) value
  obtain ⟨smaller, rounds⟩ := Context.quantize_of_le done (nonneg.mem_values value) below
  exact ⟨smaller, roundForCurrency_ok.mpr rounds⟩

/-- What Stage A guarantees about the exact shares that it returns. -/
structure ExactReceiptShares.Sound (context : Context) (currency : Currency)
    (participants : List String) (exact : ExactReceiptShares) : Prop where
  shares : KeptShares context participants exact.participantShares
  nonneg : exact.participantShares.All (0 ≤ ·)
  netHeld : context.Holds (minorUnits currency) exact.netPaid
  reconciled : context.abs (context.sub exact.netPaid
    (context.sumFrom 0 exact.participantShares.values)) ≤ stageAEpsilon

theorem receiptNetPaid_held {adjustments : List NormalizedAdjustment} {netPaid : ℚ}
    (read : receiptNetPaid ctx receipt itemTotal adjustments unit = .ok netPaid) :
    ctx.Holds (minorUnits unit) netPaid := by
  unfold receiptNetPaid at read
  split at read
  · obtain ⟨number, _, _, held, _⟩ := authoritativeMoney_nonNegative.mp read
    exact held
  · exact Context.quantize_holds (roundForCurrency_ok.mp read)

theorem computeExactReceiptShares_sound {exact : ExactReceiptShares} (nodup : people.Nodup)
    (run : computeExactReceiptShares ctx receipt people unit = .ok exact) : exact.Sound ctx unit people := by
  simp only [computeExactReceiptShares, bind_ok] at run
  obtain ⟨items, listed, itemTotal, _, adjustments, _, running, adjusted, netPaid, read, _, reconciled, _, signs,
    run⟩ := run
  obtain rfl := pure_ok.mp run
  have kept : KeptShares ctx people running.1 := by
    refine foldlM_invariant (fun state => KeptShares ctx people state.1)
      (fun state adjustment next _ sound step => ?_) (itemShares_sound nodup listed).1 adjusted
    simp only [adjustmentStep, bind_ok] at step
    obtain ⟨allocations, _, shares, applied, step⟩ := step
    obtain rfl := pure_ok.mp step
    exact applyAllocations_kept sound applied
  refine ⟨kept, ?_, receiptNetPaid_held read, require_ok.mp reconciled⟩
  intro person share found
  have member : person ∈ people := by
    rw [← kept.keys, ← get?_isSome, found]
    rfl
  have sign := require_ok.mp (forM_ok.mp signs person member)
  rwa [found] at sign

end FinanceCore.Calculators

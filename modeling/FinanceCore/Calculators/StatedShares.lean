import FinanceCore.Calculators.StageA

namespace FinanceCore.Calculators

open Decimal Exceptions Money List Dict

variable {context ctx : Context} {unit : Currency} {payer : String}

/-- The amount that a monetary input states. -/
def moneyValue (raw : RawMoney) : ℚ :=
  match moneyDecimal (L := Unit) raw () with
  | .ok number => number.value
  | .error _ => 0

variable {L : Type} {raw : RawMoney} {label : L} {number : Number}

/-- Reading succeeds or fails whatever the field is called. -/
theorem moneyDecimal_relabel {M : Type} (read : moneyDecimal raw label = .ok number) (other : M) :
    moneyDecimal raw other = .ok number := moneyDecimal_ok.mpr (moneyDecimal_ok.mp read)

/-- Positive money that the calculator reads under every label. -/
structure AcceptedMoney (context : Context) (currency : Currency) (raw : RawMoney) : Prop where
  reads : ∃ number, moneyDecimal (L := Unit) raw () = .ok number ∧ number.value = moneyValue raw
  held : context.Holds (minorUnits currency) (moneyValue raw)
  positive : 0 < moneyValue raw

theorem moneyValue_of_read (read : moneyDecimal raw label = .ok number) : moneyValue raw = number.value := by
  rw [moneyValue, moneyDecimal_relabel read]

theorem AcceptedMoney.of_read (read : moneyDecimal raw label = .ok number)
    (held : ctx.Holds (minorUnits unit) number.value) (positive : 0 < number.value) : AcceptedMoney ctx unit raw := by
  have same := moneyValue_of_read read
  exact ⟨⟨number, moneyDecimal_relabel read (), same.symm⟩, same ▸ held, same ▸ positive⟩

theorem AcceptedMoney.authoritative (accepted : AcceptedMoney ctx unit raw) (label : FieldLabel) :
    authoritativeMoney ctx raw unit label .nonNegative = .ok (moneyValue raw) := by
  obtain ⟨number, read, same⟩ := accepted.reads
  exact authoritativeMoney_nonNegative.mpr
    ⟨number, moneyDecimal_relabel read label, same, accepted.held, accepted.positive.le⟩

/-- The manual share that the allocations state for a participant. -/
def statedShare (allocations : Option (Dict String RawMoney)) (participant : String) : ℚ :=
  ((allocations.bind (·.get? participant)).map moneyValue).getD 0

section Shares

variable (context ctx : Context)

/-- What one item adds to the share of a participant. -/
def lineShare (item : Item) (participant : String) : ℚ :=
  match item.allocationMethod.getD .equal with
  | .manual => statedShare item.allocations participant
  | _ =>
    if participant ∈ itemParticipants item then
      context.div (moneyValue (itemAmount item)) (itemParticipants item).length
    else 0

/-- The item shares of a participant before any adjustment. -/
def itemShare (items : List Item) (participant : String) : ℚ :=
  context.sumFrom 0 (items.map fun item => lineShare context item participant)

/-- The adjustment that an entry states, with its amount read. -/
def statedAdjustment (adjustment : Adjustment) : NormalizedAdjustment where
  type := adjustment.type.getD ""
  direction := adjustment.direction.getD .add
  allocationMethod := adjustment.allocationMethod
  amount := moneyValue (adjustment.amount.getD .missing)
  allocations := adjustment.allocations
  participants := adjustment.participants

variable (participants : List String) (payer : String) (base : String → ℚ)

section

variable (running : String → ℚ)

/-- The participants whose running share is not zero. -/
def activeShares : List String := participants.filter fun participant => running participant ≠ 0

section

variable (adjustment : NormalizedAdjustment)

/-- What one adjustment allocates to a participant. -/
def allocatedShare (participant : String) : ℚ :=
  match adjustment.allocationMethod with
  | some .manual => statedShare adjustment.allocations participant
  | some .payerOnly => if participant = payer then adjustment.amount else 0
  | some .equalPerParticipant =>
    if participant ∈ activeShares participants running then
      context.div adjustment.amount (activeShares participants running).length
    else 0
  | some .proportionalByItemAmount =>
    if base participant ≠ 0 then
      context.div (context.mul adjustment.amount (base participant))
        (context.sumFrom 0 (participants.map base))
    else 0
  | _ => 0

/-- The running share after one adjustment. -/
def adjustedShare (participant : String) : ℚ :=
  let allocated := allocatedShare context participants payer base running adjustment participant
  if adjustment.direction = .subtract then context.sub (running participant) allocated
  else context.add (running participant) allocated

/-- The shares after every adjustment in order. -/
def finalShares (adjustments : List NormalizedAdjustment) (running : String → ℚ) : String → ℚ :=
  adjustments.foldl (adjustedShare context participants payer base) running

/-- An equal split finds a participant with a running share. -/
def Carried : Prop :=
  adjustment.allocationMethod = some .equalPerParticipant → ∃ participant ∈ participants, running participant ≠ 0

end

end

/-- Every adjustment is carried by the shares that it finds. -/
def ActiveThroughout : List NormalizedAdjustment → (String → ℚ) → Prop
  | [], _ => True
  | adjustment :: rest, running =>
    Carried participants running adjustment ∧
      ActiveThroughout rest (adjustedShare context participants payer base running adjustment)

end Shares

/-- The stated facts split: the item total fits, every equal adjustment finds someone to carry it, and the
final shares reconcile with the net amount and are not negative. -/
structure FactsSplit (context : Context) (currency : Currency) (participants : List String)
    (payer : String)
    (items : List Item) (adjustments : List NormalizedAdjustment) (net : ℚ) : Prop where
  totalFits : ∃ rounded, context.quantize halfUp (minorUnits currency)
    (context.sumFrom 0 (participants.map (itemShare context items))) = some rounded
  active : ActiveThroughout context participants payer (itemShare context items) adjustments (itemShare context items)
  reconciled : context.abs (context.sub net (context.sumFrom 0 (participants.map
    (finalShares context participants payer (itemShare context items) adjustments (itemShare context items))))) ≤
      stageAEpsilon
  nonneg : ∀ participant ∈ participants,
    0 ≤ finalShares context participants payer (itemShare context items) adjustments (itemShare context items) participant

/-- Explicit shares of listed participants that add up to the amount. -/
structure ManualShares (context : Context) (currency : Currency) (participants : List String)
    (manual : Dict String RawMoney) (amount : ℚ) : Prop where
  listed : manual.entries ≠ []
  inside : ∀ participant ∈ manual.keys, participant ∈ participants
  accepted : ∀ entry ∈ manual.entries, AcceptedMoney context currency entry.2
  total : (manual.values.map moneyValue).sum = amount
  held : context.Holds (minorUnits currency) amount

/-- An item with positive money whose consumers or manual shares are sound. -/
structure SoundItem (context : Context) (currency : Currency) (participants : List String)
    (item : Item) :
    Prop where
  money : AcceptedMoney context currency (itemAmount item)
  allocated : (item.allocationMethod = some .equal ∧ itemParticipants item ≠ [] ∧
      (itemParticipants item).Nodup ∧ ∀ consumer ∈ itemParticipants item, consumer ∈ participants) ∨
    (item.allocationMethod = some .manual ∧ ∃ manual, item.allocations = some manual ∧
      ManualShares context currency participants manual (moneyValue (itemAmount item)))

/-- An adjustment of the approved vocabulary with positive money. -/
structure SoundAdjustment (context : Context) (currency : Currency) (participants : List String)
    (adjustment : Adjustment) : Prop where
  type : ∃ type, adjustment.type = some type ∧ type ≠ ""
  direction : adjustment.direction = some .add ∨ adjustment.direction = some .subtract
  money : ∃ raw, adjustment.amount = some raw ∧ AcceptedMoney context currency raw
  everyone : adjustment.participants = none
  allocated : adjustment.allocationMethod = some .payerOnly ∨
    adjustment.allocationMethod = some .equalPerParticipant ∨
    adjustment.allocationMethod = some .proportionalByItemAmount ∨
    (adjustment.allocationMethod = some .manual ∧ ∃ manual, adjustment.allocations = some manual ∧
      ManualShares context currency participants manual (moneyValue (adjustment.amount.getD .missing)))

section StageA

variable {people : List String} (nodup : people.Nodup)

include nodup

theorem emptyShares_tabulate : emptyShares people = tabulate people nodup fun _ => 0 :=
  fromKeys_eq_tabulate people nodup 0

variable {label : String → FieldLabel} {manual : Dict String RawMoney} {amount : ℚ} {adjustments : List Adjustment}
  {net : RawMoney}

/-- Manual entries overwrite the shares of the participants that they name. -/
theorem manualAllocations_run {entries : List (String × RawMoney)}
    (keys : (entries.map Prod.fst).Nodup) (inside : ∀ entry ∈ entries, entry.1 ∈ people)
    (accepted : ∀ entry ∈ entries, AcceptedMoney ctx unit entry.2) (value : String → ℚ) :
    entries.foldlM (fun shares entry => do
        require (entry.1 ∈ shares.keys) (SplitError.unknownParticipant entry.1)
        let amount ← authoritativeMoney ctx entry.2 unit (label entry.1) .nonNegative
        return shares.set entry.1 amount) (tabulate people nodup value) = .ok (tabulate people nodup fun person =>
        ((entries.lookup person).map moneyValue).getD (value person)) := by
  induction entries generalizing value with
  | nil => rfl
  | cons entry rest ih =>
    rw [map_cons, nodup_cons] at keys
    have member := inside entry (by simp)
    rw [foldlM_cons, keys_tabulate, require, if_pos member, ok_bind,
      (accepted entry (by simp)).authoritative, ok_bind, pure_bind, set_tabulate _ _ _ _ _ member,
      ih keys.2 (fun later found => inside later (by simp [found]))
        (fun later found => accepted later (by simp [found]))]
    congr 1
    apply tabulate_congr
    intro person _
    by_cases here : person = entry.1
    · subst here
      simp [List.lookup, lookup_eq_none.mpr keys.1]
    · simp [List.lookup, beq_false_of_ne here, Function.update_of_ne here]

theorem manualAllocations_stated (sound : ManualShares ctx unit people manual amount) :
    manualAllocations ctx unit label (emptyShares people) manual =
      .ok (tabulate people nodup (statedShare (some manual))) := by
  rw [emptyShares_tabulate nodup]
  exact manualAllocations_run nodup manual.nodup
    (fun entry member => sound.inside entry.1 (mem_map_of_mem member)) sound.accepted fun _ => 0

/-- The stated manual shares add up to the amount in any order. -/
theorem sumFrom_stated (sound : ManualShares ctx unit people manual amount) :
    ctx.sumFrom 0 (people.map (statedShare (some manual))) = amount := by
  have outside : ∀ person ∉ manual.keys, statedShare (some manual) person = 0 := by
    intro person absent
    simp [statedShare, get?_eq_none.mpr absent]
  have keyed : manual.keys.map (statedShare (some manual)) = manual.values.map moneyValue := by
    rw [Dict.keys, Dict.values, map_map, map_map]
    refine map_congr_left fun entry member => ?_
    simp [statedShare, get?_of_mem_entries member]
  have exactTotal : (people.map (statedShare (some manual))).sum = amount := by
    rw [← sound.total, ← keyed, ← sum_toFinset _ nodup, ← sum_toFinset _ manual.nodup_keys]
    symm
    apply Finset.sum_subset
    · intro person member
      exact mem_toFinset.mpr (sound.inside person (mem_toFinset.mp member))
    · intro person _ absent
      exact outside person fun member => absent (mem_toFinset.mpr member)
  have each : ∀ share ∈ people.map (statedShare (some manual)), AtScale (minorUnits unit) share ∧ 0 ≤ share := by
    intro share member
    obtain ⟨person, _, rfl⟩ := mem_map.mp member
    cases found : manual.get? person with
    | none => simp [statedShare, found, AtScale.zero]
    | some raw =>
      have accepted := sound.accepted _ (mem_entries_of_get? found)
      simpa [statedShare, found] using ⟨accepted.held.atScale, accepted.positive.le⟩
  exact Context.sumFrom_eq_of_held each exactTotal sound.held

/-- Each consumer receives the same part once. -/
theorem equalAllocations_run {consumers : List String} (once : consumers.Nodup)
    (inside : ∀ consumer ∈ consumers, consumer ∈ people) (part : ℚ) (value : String → ℚ) :
    consumers.foldlM (fun shares person =>
        expect (shares.modify? person fun share => ctx.add share part)
          (SplitError.unknownParticipant person)) (tabulate people nodup value) =
      .ok (tabulate people nodup fun person =>
        if person ∈ consumers then ctx.add (value person) part else value person) := by
  induction consumers generalizing value with
  | nil => simp
  | cons consumer rest ih =>
    rw [nodup_cons] at once
    rw [foldlM_cons, modify?_tabulate _ _ _ _ _ (inside consumer (by simp)), expect, ok_bind,
      ih once.2 fun later found => inside later (by simp [found])]
    congr 1
    apply tabulate_congr
    intro person _
    by_cases here : person = consumer
    · subst here
      simp [once.1]
    · simp [here]

variable {item : Item} {items : List Item} {receipt : Receipt}

theorem itemAllocations_stated (sound : SoundItem ctx unit people item) (label : String) :
    itemAllocations ctx item (moneyValue (itemAmount item)) (item.allocationMethod.getD .equal) people
      label unit = .ok (tabulate people nodup (lineShare ctx item)) := by
  obtain ⟨equal, listed, once, inside⟩ | ⟨manually, manual, stated, shares⟩ := sound.allocated
  · rw [equal]
    simp only [itemAllocations, Option.getD_some, require, if_pos listed, if_pos once, ok_bind]
    rw [emptyShares_tabulate nodup, equalAllocations_run nodup once inside]
    congr 1
    apply tabulate_congr
    intro person _
    simp only [lineShare, equal, Option.getD_some, Context.add, zero_add]
    split_ifs
    · exact ctx.fix_fix _
    · rfl
  · have line : lineShare ctx item = statedShare (some manual) := by
      funext person
      simp [lineShare, manually, stated]
    rw [manually]
    simp only [itemAllocations, Option.getD_some, stated, presentAllocations, if_neg shares.listed, ok_bind]
    rw [manualAllocations_stated nodup shares, ok_bind, values_tabulate, sumFrom_stated nodup shares, line]
    simp [require]

/-- The loop over sound items succeeds with the stated item shares. -/
theorem itemStep_run (sound : ∀ item ∈ items, SoundItem ctx unit people item) (label : String)
    (value : String → ℚ) (details : List ItemDetail) :
    ∃ reported, items.foldlM (itemStep ctx label people unit)
        (tabulate people nodup value, details) = .ok (tabulate people nodup fun person =>
        ctx.sumFrom (value person) (items.map fun item => lineShare ctx item person), reported) := by
  induction items generalizing value details with
  | nil => exact ⟨details, rfl⟩
  | cons item rest ih =>
    have first := sound item (by simp)
    have added : addAllocations ctx (tabulate people nodup value)
        (tabulate people nodup (lineShare ctx item)) = .ok (tabulate people nodup fun person =>
            ctx.add (value person) (lineShare ctx item person)) :=
      foldlM_modify_tabulate (fun amount share => ctx.add share amount) _ people nodup value _
    rw [foldlM_cons, itemStep, first.money.authoritative, ok_bind]
    dsimp only
    rw [itemAllocations_stated nodup first, ok_bind, added]
    exact ih (fun later member => sound later (by simp [member])) _ _

theorem itemShares_stated (listed : receipt.items = some items)
    (sound : ∀ item ∈ items, SoundItem ctx unit people item) :
    ∃ reported, itemShares ctx receipt people unit = .ok (tabulate people nodup (itemShare ctx items), reported) := by
  obtain ⟨reported, run⟩ := itemStep_run nodup sound (receiptLabel receipt) (fun _ => 0) []
  exact ⟨reported, by rw [itemShares, listed, expect, ok_bind, emptyShares_tabulate nodup, run]; rfl⟩

omit nodup in
section

variable (sound : SoundItem ctx unit people item)
include sound

theorem lineShare_sound (person : String) :
    0 ≤ lineShare ctx item person ∧ ctx.fix (lineShare ctx item person) = lineShare ctx item person := by
  obtain ⟨equal, listed, once, inside⟩ | ⟨manually, manual, stated, shares⟩ := sound.allocated
  · simp only [lineShare, equal, Option.getD_some]
    split_ifs
    · exact ⟨ctx.fix_nonneg (div_nonneg sound.money.positive.le (Nat.cast_nonneg _)), ctx.fix_fix _⟩
    · exact ⟨le_rfl, ctx.fix_zero⟩
  · simp only [lineShare, manually, Option.getD_some, stated, statedShare, Option.bind_some]
    cases found : manual.get? person with
    | none => simp
    | some raw =>
      have accepted := shares.accepted _ (mem_entries_of_get? found)
      simpa using ⟨accepted.positive.le, accepted.held.fix⟩

omit nodup in
/-- Every sound item leaves a positive share with someone. -/
theorem exists_lineShare_pos : ∃ person ∈ people, 0 < lineShare ctx item person := by
  obtain ⟨equal, listed, once, inside⟩ | ⟨manually, manual, stated, shares⟩ := sound.allocated
  · obtain ⟨consumer, member⟩ := exists_mem_of_ne_nil _ listed
    refine ⟨consumer, inside consumer member, ?_⟩
    simp only [lineShare, equal, Option.getD_some, if_pos member]
    apply ctx.fix_pos
    have count : 0 < (itemParticipants item).length := length_pos_of_mem member
    exact div_pos sound.money.positive (by exact_mod_cast count)
  · obtain ⟨entry, member⟩ := exists_mem_of_ne_nil _ shares.listed
    refine ⟨entry.1, shares.inside entry.1 (mem_map_of_mem member), ?_⟩
    have found : manual.get? entry.1 = some entry.2 := get?_of_mem_entries member
    simp only [lineShare, manually, Option.getD_some, stated, statedShare, Option.bind_some, found]
    exact (shares.accepted entry member).positive

end

omit nodup in
theorem itemShare_nonneg (sound : ∀ item ∈ items, SoundItem ctx unit people item)
    (person : String) : 0 ≤ itemShare ctx items person := by
  apply ctx.start_le_sumFrom ctx.fix_zero
  exact forall_mem_map.mpr fun item listed => (lineShare_sound (sound item listed) person).1

omit nodup in
/-- The item shares of sound items do not add up to zero. -/
theorem baseTotal_pos (some : items ≠ []) (sound : ∀ item ∈ items, SoundItem ctx unit people item) :
    0 < ctx.sumFrom 0 (people.map (itemShare ctx items)) := by
  obtain ⟨item, listed⟩ := exists_mem_of_ne_nil _ some
  obtain ⟨person, member, positive⟩ := exists_lineShare_pos (sound item listed)
  have share := ctx.le_sumFrom le_rfl (fun share inside => by
      obtain ⟨item, listed, rfl⟩ := mem_map.mp inside
      exact (lineShare_sound (sound item listed) person).1)
    (fun share inside => by
      obtain ⟨item, listed, rfl⟩ := mem_map.mp inside
      exact (lineShare_sound (sound item listed) person).2)
    (mem_map_of_mem (f := fun item => lineShare ctx item person) listed)
  have total := ctx.le_sumFrom le_rfl (fun share inside => by
      obtain ⟨person, _, rfl⟩ := mem_map.mp inside
      exact itemShare_nonneg sound person)
    (fun share inside => by
      obtain ⟨person, _, rfl⟩ := mem_map.mp inside
      exact Context.fix_sumFrom ctx.fix_zero _)
    (mem_map_of_mem (f := itemShare ctx items) member)
  exact positive.trans_le (share.trans total)

section Adjustments

variable {base : String → ℚ}

omit nodup in
theorem normalizeAdjustment_stated {adjustment : Adjustment}
    (sound : SoundAdjustment ctx unit people adjustment) :
    normalizeAdjustment ctx adjustment unit = .ok (statedAdjustment adjustment) := by
  obtain ⟨type, named, nonempty⟩ := sound.type
  obtain ⟨raw, amount, accepted⟩ := sound.money
  obtain ⟨direction, directed⟩ : ∃ direction, adjustment.direction = some direction := by
    rcases sound.direction with same | same <;> exact ⟨_, same⟩
  obtain ⟨method, allocated⟩ : ∃ method, adjustment.allocationMethod = some method := by
    rcases sound.allocated with same | same | same | ⟨same, _⟩ <;> exact ⟨_, same⟩
  simp only [normalizeAdjustment, named, orText, if_neg nonempty, directed, allocated, amount, expect, ok_bind,
    accepted.authoritative, statedAdjustment, Option.getD_some]
  rfl

/-- What Stage A needs of one stated adjustment. -/
structure SoundStated (context : Context) (currency : Currency) (participants : List String)
    (adjustment : NormalizedAdjustment) : Prop where
  direction : adjustment.direction = .add ∨ adjustment.direction = .subtract
  positive : 0 < adjustment.amount
  everyone : adjustment.participants = none
  allocated : adjustment.allocationMethod = some .payerOnly ∨
    adjustment.allocationMethod = some .equalPerParticipant ∨
    adjustment.allocationMethod = some .proportionalByItemAmount ∨
    (adjustment.allocationMethod = some .manual ∧ ∃ manual, adjustment.allocations = some manual ∧
      ManualShares context currency participants manual adjustment.amount)

theorem activeAdjustmentParticipants_stated (running : String → ℚ) :
    activeAdjustmentParticipants none (tabulate people nodup running) people =
      if activeShares people running = [] then .error .noActiveParticipant
      else .ok (activeShares people running) := by
  have looked : (people.mapM fun person => (person, ·) <$>
      expect ((tabulate people nodup running).get? person) (SplitError.missingKey person)) =
        .ok (people.map fun person => (person, running person)) := by
    rw [mapM_ok, forall₂_map_right_iff, forall₂_same]
    intro person member
    rw [get?_tabulate, if_pos member]
    rfl
  have kept : ((people.map fun person => (person, running person)).filter
      fun entry => entry.2 ≠ 0).map Prod.fst = activeShares people running := by
    rw [filter_map, activeShares]
    simp [Function.comp_def]
  rw [activeAdjustmentParticipants, looked, ok_bind]
  · dsimp only
    rw [require]
    split_ifs <;> simp_all
  · simp

variable {adjustment : NormalizedAdjustment} {running : String → ℚ}

theorem adjustmentAllocations_stated (sound : SoundStated ctx unit people adjustment)
    (inside : payer ∈ people) (total : 0 < ctx.sumFrom 0 (people.map base))
    (carried : Carried people running adjustment) :
    adjustmentAllocations ctx adjustment (some payer) (tabulate people nodup base)
        (tabulate people nodup running) people unit =
      .ok (tabulate people nodup (allocatedShare ctx people payer base running adjustment)) := by
  have nonzero := sound.positive.ne'
  obtain only | equal | proportional | ⟨manually, manual, stated, sum⟩ := sound.allocated
  · simp only [adjustmentAllocations, only, Option.some.injEq, reduceCtorEq, if_false, if_neg nonzero, expect, ok_bind]
    rw [emptyShares_tabulate nodup, set_tabulate _ _ _ _ _ inside]
    refine congrArg Except.ok (tabulate_congr fun person _ => ?_)
    simp [allocatedShare, only, Function.update_apply]
  · obtain ⟨someone, member, nonzeroShare⟩ := carried equal
    have active : activeShares people running ≠ [] :=
      ne_nil_of_mem (mem_filter.mpr ⟨member, decide_eq_true nonzeroShare⟩)
    have once : (activeShares people running).Nodup := nodup.filter _
    have listed : ∀ person ∈ activeShares people running, person ∈ people :=
      fun person kept => mem_of_mem_filter kept
    simp only [adjustmentAllocations, equal, Option.some.injEq, reduceCtorEq, if_false, if_neg nonzero,
      sound.everyone, activeAdjustmentParticipants_stated nodup, if_neg active, ok_bind, require, if_pos once]
    rw [emptyShares_tabulate nodup]
    refine congrArg Except.ok (eq_tabulate_of_get? ?_ fun person inside => ?_)
    · rw [keys_foldl_set (by simpa using listed), keys_tabulate]
    · rw [foldl_set, get?_tabulate, allocatedShare, equal]
      split_ifs <;> rfl
  · simp only [adjustmentAllocations, proportional, Option.some.injEq, reduceCtorEq, if_false, if_neg nonzero,
      proportionalAllocations, values_tabulate, require, ne_eq, total.ne', not_false_iff, if_true, ok_bind,
      map_tabulate]
    refine congrArg Except.ok (tabulate_congr fun person _ => ?_)
    simp [allocatedShare, proportional]
  · simp only [adjustmentAllocations, manually, if_true, stated, presentAllocations, if_neg sum.listed, ok_bind]
    rw [manualAllocations_stated nodup sum, ok_bind, values_tabulate, sumFrom_stated nodup sum]
    simp only [require, if_true, ok_bind]
    refine congrArg Except.ok (tabulate_congr fun person _ => ?_)
    simp [allocatedShare, manually, stated]

/-- Without a running share the equal split is refused. -/
theorem carried_of_adjustmentAllocations {allocations baseShares : Dict String ℚ}
    {paidBy : Option String} (sound : SoundStated ctx unit people adjustment)
    (run : adjustmentAllocations ctx adjustment paidBy baseShares
      (tabulate people nodup running) people unit = .ok allocations) : Carried people running adjustment := by
  intro equal
  have nonzero := sound.positive.ne'
  simp only [adjustmentAllocations, equal, Option.some.injEq, reduceCtorEq, if_false, if_neg nonzero,
    sound.everyone, activeAdjustmentParticipants_stated nodup] at run
  obtain ⟨active, found, _⟩ := bind_ok.mp run
  split_ifs at found with none
  obtain ⟨person, member⟩ := exists_mem_of_ne_nil _ none
  obtain ⟨listed, running⟩ := mem_filter.mp member
  exact ⟨person, listed, of_decide_eq_true running⟩

theorem applyAllocations_stated (direction : adjustment.direction = .add ∨ adjustment.direction = .subtract) :
    applyAllocations ctx adjustment.direction (tabulate people nodup running)
        (tabulate people nodup (allocatedShare ctx people payer base running adjustment)) =
      .ok (tabulate people nodup (adjustedShare ctx people payer base running adjustment)) := by
  have run (change : ℚ → ℚ → ℚ) := foldlM_modify_tabulate change
    (fun entry => SplitError.missingKey entry.1) people nodup running
    (allocatedShare ctx people payer base running adjustment)
  rcases direction with same | same <;> rw [same]
  · refine (run fun amount share => ctx.add share amount).trans (congrArg Except.ok (tabulate_congr fun _ _ => ?_))
    simp [adjustedShare, same]
  · refine (run fun amount share => ctx.sub share amount).trans (congrArg Except.ok (tabulate_congr fun _ _ => ?_))
    simp [adjustedShare, same]

variable {adjustments : List NormalizedAdjustment}

/-- The loop over sound adjustments succeeds exactly when every one is carried. -/
theorem adjustmentStep_run (sound : ∀ adjustment ∈ adjustments, SoundStated ctx unit people adjustment)
    (inside : payer ∈ people) (total : 0 < ctx.sumFrom 0 (people.map base)) (running : String → ℚ)
    (details : List AdjustmentDetail) {shares : Dict String ℚ} :
    (∃ reported, adjustments.foldlM (adjustmentStep ctx (some payer) (tabulate people nodup base) people
        unit) (tabulate people nodup running, details) = .ok (shares, reported)) ↔
      ActiveThroughout ctx people payer base adjustments running ∧
        shares = tabulate people nodup (finalShares ctx people payer base adjustments running) := by
  induction adjustments generalizing running details with
  | nil => simp [pure, Except.pure, ActiveThroughout, finalShares, eq_comm]
  | cons adjustment rest ih =>
    have first := sound adjustment (by simp)
    have later := ih fun later member => sound later (by simp [member])
    by_cases carried : Carried people running adjustment
    · rw [foldlM_cons, adjustmentStep, adjustmentAllocations_stated nodup first inside total carried, ok_bind,
        applyAllocations_stated nodup first.direction, ok_bind, pure_bind, later]
      simp [ActiveThroughout, carried, finalShares]
    · constructor
      · rintro ⟨reported, run⟩
        obtain ⟨next, step, _⟩ := bind_ok.mp run
        obtain ⟨allocations, allocated, _⟩ := bind_ok.mp step
        exact absurd (carried_of_adjustmentAllocations nodup first allocated) carried
      · rintro ⟨active, _⟩
        exact absurd active.1 carried

end Adjustments

/-- A receipt that states positive sound facts, as the mapping builds it. -/
structure StatedReceipt (context : Context) (currency : Currency) (participants : List String)
    (payer : String) (receipt : Receipt) (items : List Item) (adjustments : List Adjustment)
    (net : RawMoney) : Prop where
  listedItems : receipt.items = some items
  someItem : items ≠ []
  soundItems : ∀ item ∈ items, SoundItem context currency participants item
  listedAdjustments : receipt.adjustments = some adjustments
  soundAdjustments : ∀ adjustment ∈ adjustments, SoundAdjustment context currency participants adjustment
  paid : receipt.paidBy = some payer
  inside : payer ∈ participants
  netStated : receipt.netPaid = some net
  netAccepted : AcceptedMoney context currency net
  noSubtotal : receipt.subtotal = none
  noCharge : receipt.serviceChargeAmount = none ∧ receipt.serviceChargeRate = none ∧
    receipt.serviceChargeAllocationMethod = none
  noDiscount : receipt.discount = none ∧ receipt.discountAllocationMethod = none

omit nodup in
theorem SoundAdjustment.stated {adjustment : Adjustment}
    (sound : SoundAdjustment ctx unit people adjustment) :
    SoundStated ctx unit people (statedAdjustment adjustment) := by
  obtain ⟨raw, amount, accepted⟩ := sound.money
  refine ⟨?_, ?_, sound.everyone, sound.allocated⟩
  · rcases sound.direction with same | same <;> simp [statedAdjustment, same]
  · simpa [statedAdjustment, amount] using accepted.positive

variable (stated : StatedReceipt ctx unit people payer receipt items adjustments net)
include stated

omit nodup in
theorem receiptAdjustments_stated (itemTotal : ℚ) :
    receiptAdjustments ctx receipt itemTotal unit = .ok (adjustments.map statedAdjustment) := by
  have charge : serviceChargeAmount ctx receipt itemTotal unit = .ok 0 := by
    rw [serviceChargeAmount, stated.noCharge.1, stated.noCharge.2.1]
  have listed : (adjustments.mapM fun adjustment => normalizeAdjustment ctx adjustment unit) =
      .ok (adjustments.map statedAdjustment) := by
    rw [mapM_ok, forall₂_map_right_iff, forall₂_same]
    exact fun adjustment member => normalizeAdjustment_stated (stated.soundAdjustments adjustment member)
  have discount : authoritativeMoney ctx (.decimal (.finite ⟨false, 0, -2⟩)) unit
      (.discount (receiptLabel receipt)) .nonNegative = .ok 0 :=
    authoritativeMoney_nonNegative.mpr ⟨_, rfl, by simp [Number.value], ctx.holds_zero _, le_rfl⟩
  simp only [receiptAdjustments, charge, ok_bind, stated.noCharge.2.2, stated.listedAdjustments, stated.noDiscount,
    Option.getD_none, Option.getD_some, listed, discount]
  simp [pure, Except.pure]

/-- Stage A accepts stated facts exactly when they split. -/
theorem computeExactReceiptShares_stated :
    (∃ exact, computeExactReceiptShares ctx receipt people unit = .ok exact) ↔
      FactsSplit ctx unit people payer items (adjustments.map statedAdjustment) (moneyValue net) := by
  obtain ⟨reported, listed⟩ := itemShares_stated nodup stated.listedItems stated.soundItems
  have total := baseTotal_pos stated.someItem stated.soundItems
  have sound : ∀ adjustment ∈ adjustments.map statedAdjustment, SoundStated ctx unit people adjustment := by
    exact forall_mem_map.mpr fun entry inside => (stated.soundAdjustments entry inside).stated
  have netPaid (itemTotal : ℚ) (normalized : List NormalizedAdjustment) :
      receiptNetPaid ctx receipt itemTotal normalized unit = .ok (moneyValue net) := by
    rw [receiptNetPaid, stated.netStated]
    exact stated.netAccepted.authoritative _
  constructor
  · rintro ⟨exact, run⟩
    rw [computeExactReceiptShares, listed, ok_bind] at run
    obtain ⟨itemTotal, checked, run⟩ := bind_ok.mp run
    rw [receiptAdjustments_stated stated, ok_bind, stated.paid] at run
    obtain ⟨running, adjusted, run⟩ := bind_ok.mp run
    rw [netPaid, ok_bind] at run
    obtain ⟨_, reconciled, run⟩ := bind_ok.mp run
    obtain ⟨_, signs, _⟩ := bind_ok.mp run
    obtain ⟨active, shares⟩ := (adjustmentStep_run nodup sound stated.inside total _ _).mp ⟨_, adjusted⟩
    rw [checkedItemTotal, stated.noSubtotal, values_tabulate] at checked
    have reconciled := require_ok.mp reconciled
    rw [shares, values_tabulate] at reconciled
    refine ⟨⟨itemTotal, roundForCurrency_ok.mp checked⟩, active, reconciled, ?_⟩
    intro person member
    have sign := require_ok.mp (forM_ok.mp signs person member)
    rwa [shares, get?_tabulate, if_pos member] at sign
  · rintro ⟨⟨itemTotal, rounded⟩, active, reconciled, signs⟩
    obtain ⟨details, adjusted⟩ := (adjustmentStep_run nodup sound stated.inside total _ []).mpr ⟨active, rfl⟩
    have checked : checkedItemTotal ctx receipt
        (ctx.sumFrom 0 (people.map (itemShare ctx items))) unit = .ok itemTotal := by
      rw [checkedItemTotal, stated.noSubtotal]
      exact roundForCurrency_ok.mpr rounded
    rw [computeExactReceiptShares, listed, ok_bind]
    rw [values_tabulate, checked, ok_bind, receiptAdjustments_stated stated, ok_bind, stated.paid, adjusted,
      ok_bind, netPaid, ok_bind]
    simp only [bind_ok, validateExactReconciliation, values_tabulate, require_ok]
    refine ⟨_, (), reconciled, (), forM_ok.mpr fun person member => require_ok.mpr ?_, rfl⟩
    rw [get?_tabulate, if_pos member]
    exact signs person member

end StageA

end FinanceCore.Calculators

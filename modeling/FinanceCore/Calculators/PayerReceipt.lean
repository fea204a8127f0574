import FinanceCore.Calculators.PayerRemainder
import FinanceCore.Calculators.ReceiptSplit

namespace FinanceCore.Calculators

open Decimal Exceptions Money List Context

variable {exact : ExactReceiptShares} {people : List String} {unit : Currency} {payer : String} {ctx : Context}

/-- The reported difference of one participant in minor units. -/
def roundingUnits (context : Context) (currency : Currency) (exact : ExactReceiptShares)
    (participants : List String) (payer participant : String) : ℤ :=
  roundHalfUp (context.sub (finalAmount context currency exact participants payer participant)
    (shareOf exact.participantShares participant) * 10 ^ minorUnits currency)

def roundingAmount (context : Context) (currency : Currency) (exact : ExactReceiptShares)
    (participants : List String) (payer participant : String) : ℚ :=
  roundingUnits context currency exact participants payer participant / 10 ^ minorUnits currency

def roundingOf (context : Context) (currency : Currency) (exact : ExactReceiptShares)
    (participants : List String) (payer participant : String) : Option RoundingAdjustment :=
  if roundingAmount context currency exact participants payer participant ≠ 0 then
    some ⟨participant, roundingAmount context currency exact participants payer participant, .payer⟩
  else none

section Rounding

/-- A half-up difference is never rounded below zero. -/
theorem roundHalfUp_difference {value : ℚ} (nonneg : 0 ≤ value) :
    0 ≤ roundHalfUp ((roundHalfUp value : ℚ) - value) := by
  have lower := roundHalfUp_sub_gt nonneg
  by_cases sign : 0 ≤ (roundHalfUp value : ℚ) - value
  · exact roundHalfUp_nonneg sign
  · have small : roundHalfUp (-((roundHalfUp value : ℚ) - value)) = 0 :=
      roundHalfUp_small (by linarith) (by linarith)
    rw [roundHalfUp_neg] at small
    omega

variable {person : String}

section

variable (sound : exact.Sound ctx unit people)
include sound

theorem finalAmount_other (other : person ≠ payer) :
    finalAmount ctx unit exact people payer person =
      roundHalfUp (shareOf exact.participantShares person * 10 ^ minorUnits unit) / 10 ^ minorUnits unit := by
  rw [finalAmount, finalUnits, if_neg other, exactUnits_eq sound]

/-- The difference of anyone but the payer needs no rounding by the context. -/
theorem roundingUnits_other (other : person ≠ payer) :
    roundingUnits ctx unit exact people payer person =
      roundHalfUp ((roundHalfUp (shareOf exact.participantShares person * 10 ^ minorUnits unit) : ℚ) -
        shareOf exact.participantShares person * 10 ^ minorUnits unit) := by
  have positive : (0 : ℚ) < 10 ^ minorUnits unit := by positivity
  have shareNonneg := shareOf_nonneg sound.nonneg person
  have kept := fix_mul_zpow (shareOf_kept sound person) (minorUnits unit)
  have difference := fix_mul_zpow (fix_round_sub kept (mul_nonneg shareNonneg positive.le)) (-(minorUnits unit : ℤ))
  rw [zpow_neg, zpow_natCast, ← div_eq_mul_inv, sub_div, mul_div_assoc, div_self positive.ne', mul_one] at difference
  rw [roundingUnits, sub, finalAmount_other sound other, difference, sub_mul, div_mul_cancel₀ _ positive.ne']

theorem share_le_net (inside : person ∈ people) :
    roundHalfUp (shareOf exact.participantShares person * 10 ^ minorUnits unit) ≤ netUnits ctx unit exact := by
  have positive : (0 : ℚ) < 10 ^ minorUnits unit := by positivity
  have values := values_eq_shareOf sound.shares.keys
  have below : shareOf exact.participantShares person ≤ ctx.sumFrom 0 exact.participantShares.values := by
    apply ctx.le_sumFrom le_rfl (fun share member => sound.nonneg.mem_values member)
      (fun share member => sound.shares.kept.mem_values member)
    rw [values]
    exact mem_map_of_mem inside
  have near := (abs_lt.mp (exactSum_near sound)).1
  have total : exact.netPaid * 10 ^ minorUnits unit = netUnits ctx unit exact := by
    rw [(netUnits_spec sound).2, div_mul_cancel₀ _ positive.ne']
  have scaled : shareOf exact.participantShares person * 10 ^ minorUnits unit < netUnits ctx unit exact + 1 / 2 := by
    calc shareOf exact.participantShares person * 10 ^ minorUnits unit
        ≤ (exact.netPaid + 2 / 10 ^ 18) * 10 ^ minorUnits unit :=
          mul_le_mul_of_nonneg_right (by linarith) positive.le
      _ = netUnits ctx unit exact + 2 / 10 ^ 18 * 10 ^ minorUnits unit := by
          rw [add_mul, total]
      _ ≤ netUnits ctx unit exact + 2 / 10 ^ 18 * 100 := by
          have atMost := pow_minorUnits_le unit
          linarith
      _ < netUnits ctx unit exact + 1 / 2 := by norm_num
  rw [roundHalfUp, if_pos (mul_nonneg (shareOf_nonneg sound.nonneg person) positive.le)]
  have strict : ⌊shareOf exact.participantShares person * 10 ^ minorUnits unit + 1 / 2⌋ <
      netUnits ctx unit exact + 1 := by
    rw [Int.floor_lt]
    push_cast
    linarith
  omega

/-- Nobody's reported difference exceeds the final units, and only the payer's can be negative. -/
theorem roundingUnits_bounds (nodup : people.Nodup) (member : payer ∈ people)
    (left : othersUnits ctx unit exact people payer ≤ netUnits ctx unit exact)
    (inside : person ∈ people) :
    roundingUnits ctx unit exact people payer person ≤ finalUnits ctx unit exact people payer person ∧
      (person ≠ payer → 0 ≤ roundingUnits ctx unit exact people payer person) ∧
      -netUnits ctx unit exact ≤ roundingUnits ctx unit exact people payer person := by
  have positive : (0 : ℚ) < 10 ^ minorUnits unit := by positivity
  have shareNonneg := shareOf_nonneg sound.nonneg person
  have lower : -netUnits ctx unit exact ≤ roundingUnits ctx unit exact people payer person := by
    have least := ctx.fix_monotone (show -shareOf exact.participantShares person ≤
      finalAmount ctx unit exact people payer person - shareOf exact.participantShares person by
          linarith [finalAmount_nonneg sound nodup member left inside])
    rw [fix_neg, shareOf_kept sound person] at least
    have order := roundHalfUp_monotone (mul_le_mul_of_nonneg_right least positive.le)
    rw [neg_mul, roundHalfUp_neg] at order
    have most := share_le_net sound inside
    exact (neg_le_neg most).trans order
  refine ⟨?_, ?_, lower⟩
  · have greatest := ctx.fix_monotone (show finalAmount ctx unit exact people payer person -
      shareOf exact.participantShares person ≤ finalAmount ctx unit exact people payer person by linarith)
    rw [(finalAmount_held sound nodup member left inside).fix] at greatest
    have order := roundHalfUp_monotone (mul_le_mul_of_nonneg_right greatest positive.le)
    rwa [finalAmount, div_mul_cancel₀ _ positive.ne', roundHalfUp_integer] at order
  · intro other
    rw [roundingUnits_other sound other]
    exact roundHalfUp_difference (mul_nonneg shareNonneg positive.le)

end

/-- Dropping the zero amounts changes no sum of values that a zero does not contribute to. -/
theorem sum_roundingOf (part : ℚ → ℚ) (zero : part 0 = 0) (listed : List String) :
    (((listed.filterMap (roundingOf ctx unit exact people payer)).map
        RoundingAdjustment.amount).map part).sum = (listed.map fun person =>
        part (roundingAmount ctx unit exact people payer person)).sum := by
  induction listed with
  | nil => rfl
  | cons head rest ih =>
    rw [map_cons, sum_cons, ← ih]
    by_cases none : roundingAmount ctx unit exact people payer head = 0
    · rw [filterMap_cons, roundingOf, if_neg (not_not.mpr none), none, zero, zero_add]
    · rw [filterMap_cons, roundingOf, if_pos none, map_cons, map_cons, sum_cons]

section Sound

variable (sound : exact.Sound ctx unit people) (nodup : people.Nodup) (member : payer ∈ people)
  (left : othersUnits ctx unit exact people payer ≤ netUnits ctx unit exact) {person : String}
include sound nodup member left

theorem net_nonneg : 0 ≤ exact.netPaid := by
  rw [← sum_finalAmount sound nodup member]
  exact sum_nonneg (forall_mem_map.mpr fun person inside => finalAmount_nonneg sound nodup member left inside)

theorem roundingUnits_fits (inside : person ∈ people) :
    ctx.fits (roundingUnits ctx unit exact people payer person) := by
  obtain ⟨upper, _, lower⟩ := roundingUnits_bounds sound nodup member left inside
  have atMost := (finalUnits_bounds sound nodup member left inside).2
  have bound : |roundingUnits ctx unit exact people payer person| ≤
      netUnits ctx unit exact := abs_le.mpr ⟨lower, upper.trans atMost⟩
  exact ctx.fits_of_abs_le (netUnits_spec sound).1 (bound.trans (le_abs_self _))

theorem roundingAdjustmentOf_eq (inside : person ∈ people) :
    roundingAdjustmentOf ctx exact.participantShares
        (Dict.tabulate people nodup (finalAmount ctx unit exact people payer)) .payer
        unit person = .ok (roundingOf ctx unit exact people payer person) := by
  have rounded : roundForCurrency ctx (ctx.sub (finalAmount ctx unit exact people payer person)
      (shareOf exact.participantShares person)) unit = .ok (roundingAmount ctx unit exact people payer person) := by
    rw [roundForCurrency_ok, quantize_eq_some]
    exact ⟨roundingUnits_fits sound nodup member left inside, rfl⟩
  rw [roundingAdjustmentOf, Dict.get?_tabulate, if_pos inside, shareOf_get? sound.shares.keys inside]
  simp only [expect, ok_bind, rounded]
  rfl

theorem roundings_eq :
    people.mapM (roundingAdjustmentOf ctx exact.participantShares
        (Dict.tabulate people nodup (finalAmount ctx unit exact people payer)) .payer
        unit) = .ok (people.map (roundingOf ctx unit exact people payer)) := by
  rw [mapM_ok, forall₂_map_right_iff, forall₂_same]
  exact fun person inside => roundingAdjustmentOf_eq sound nodup member left inside

/-- The reported differences add up inside the total, so their sum is reported too. -/
theorem roundingSum_held :
    ctx.Holds (minorUnits unit) (ctx.sumFrom 0
      ((people.filterMap (roundingOf ctx unit exact people payer)).map RoundingAdjustment.amount)) := by
  have positive : (0 : ℚ) < 10 ^ minorUnits unit := by positivity
  have scaled : ∀ amount ∈ (people.filterMap
      (roundingOf ctx unit exact people payer)).map RoundingAdjustment.amount, AtScale (minorUnits unit) amount := by
    intro amount listed
    obtain ⟨adjustment, found, rfl⟩ := mem_map.mp listed
    obtain ⟨person, inside, same⟩ := mem_filterMap.mp found
    unfold roundingOf at same
    split_ifs at same
    obtain rfl := Option.some.inj same
    exact ⟨_, rfl⟩
  have upper : 0 + (((people.filterMap (roundingOf ctx unit exact people payer)).map
      RoundingAdjustment.amount).map (max · 0)).sum ≤ exact.netPaid := by
    rw [zero_add, sum_roundingOf (max · 0) (max_self 0), ← sum_finalAmount sound nodup member]
    apply sum_le_sum
    intro person inside
    apply max_le _ (finalAmount_nonneg sound nodup member left inside)
    have units := (roundingUnits_bounds sound nodup member left inside).1
    exact div_le_div_of_nonneg_right (by exact_mod_cast units) positive.le
  have lower : -exact.netPaid ≤ 0 + (((people.filterMap
      (roundingOf ctx unit exact people payer)).map RoundingAdjustment.amount).map (min · 0)).sum := by
    rw [sum_roundingOf (min · 0) (min_self 0), ← sum_map_erase _ member]
    have others : 0 ≤ ((people.erase payer).map fun person =>
        min (roundingAmount ctx unit exact people payer person) 0).sum := by
      apply sum_nonneg
      intro amount listed
      obtain ⟨person, inside, rfl⟩ := mem_map.mp listed
      obtain ⟨other, inside⟩ := nodup.mem_erase_iff.mp inside
      have units := (roundingUnits_bounds sound nodup member left inside).2.1 other
      exact le_min (div_nonneg (by exact_mod_cast units) positive.le) le_rfl
    have own : -exact.netPaid ≤ min (roundingAmount ctx unit exact people payer payer) 0 := by
      apply le_min
      · have units := (roundingUnits_bounds sound nodup member left member).2.2
        rw [(netUnits_spec sound).2, ← neg_div]
        exact div_le_div_of_nonneg_right (by exact_mod_cast units) positive.le
      · linarith [net_nonneg sound nodup member left]
    linarith
  exact sumFrom_held_of_bounded sound.netHeld (AtScale.zero _) scaled upper lower

end Sound

end Rounding

/-- A receipt of the payer policy that passes Stage A. -/
structure PayerReceipt (context : Context) (currency : Currency) (participants : List String)
    (payer : String) (receipt : Receipt) (exact : ExactReceiptShares) : Prop where
  paidBy : receipt.paidBy = some payer
  policy : receipt.roundingPolicy = some .payer
  sameCurrency : requireReceiptCurrency receipt currency = .ok ()
  nestedCurrency : validateNestedCurrencyConsistency receipt currency = .ok ()
  exactShares : computeExactReceiptShares context receipt participants currency = .ok exact
  nonneg : 0 ≤ exact.netPaid

section Receipt

variable {receipt : Receipt}

section

variable (ready : PayerReceipt ctx unit people payer receipt exact) (nodup : people.Nodup)
include ready nodup

theorem PayerReceipt.sound : exact.Sound ctx unit people := computeExactReceiptShares_sound nodup ready.exactShares

variable (member : payer ∈ people)
include member

/-- Stage B decides alone whether the calculator accepts a receipt that passes Stage A. -/
theorem calculateReceipt_payer (left : othersUnits ctx unit exact people payer ≤ netUnits ctx unit exact) :
    ∃ result, calculateReceipt ctx receipt people unit = .ok result ∧ result.paidBy = payer ∧
      result.netPaid = exact.netPaid ∧ result.participantShares =
        Dict.tabulate people nodup (finalAmount ctx unit exact people payer) := by
  have sound := ready.sound nodup
  obtain ⟨items, listed, run⟩ := bind_ok.mp ready.exactShares
  obtain ⟨itemTotal, checked, _⟩ := bind_ok.mp run
  obtain ⟨itemShareMap, mapped⟩ := itemShareMap_succeeds nodup listed checked
  have roundingSum := roundForCurrency_held (roundingSum_held sound nodup member left)
  have allocated := allocateMinorUnits_payer sound nodup member ready.nonneg
  rw [if_pos left] at allocated
  unfold calculateReceipt
  simp only [ready.paidBy, ready.policy, ready.sameCurrency, ready.nestedCurrency, ready.exactShares, listed,
    expect, require, member, if_true, ok_bind, Option.getD_some, allocated,
    roundings_eq sound nodup member left, filterMap_map, Function.id_comp, mapped, roundingSum]
  exact ⟨_, rfl, rfl, rfl, rfl⟩

/-- An accepted receipt leaves the payer a share that is not negative. -/
theorem left_of_calculateReceipt {result : ReceiptResult}
    (accepted : calculateReceipt ctx receipt people unit = .ok result) :
    othersUnits ctx unit exact people payer ≤ netUnits ctx unit exact := by
  have sound := ready.sound nodup
  have allocated := allocateMinorUnits_payer sound nodup member ready.nonneg
  obtain ⟨items, listed, _⟩ := bind_ok.mp ready.exactShares
  unfold calculateReceipt at accepted
  simp only [ready.paidBy, ready.policy, ready.sameCurrency, ready.nestedCurrency, ready.exactShares, listed,
    expect, require, member, if_true, ok_bind, Option.getD_some] at accepted
  obtain ⟨final, done, _⟩ := bind_ok.mp accepted
  by_contra exceeds
  rw [allocated, if_neg exceeds] at done
  cases done

end

end Receipt

end FinanceCore.Calculators

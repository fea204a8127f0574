import FinanceCore.Calculators.StageA

namespace FinanceCore.Calculators

open Decimal Exceptions Money List Dict Context

variable {people : List String} {unit : Currency} {ctx : Context}

section

variable (context : Context)

section

variable (currency : Currency)

section

variable (exact : ExactReceiptShares)

/-- The half-up minor units of an exact share. -/
def exactUnits (participant : String) : ℤ :=
  roundHalfUp (toMinorUnits context (shareOf exact.participantShares participant) (10 ^ minorUnits currency))

/-- The minor units of the net paid amount. -/
def netUnits : ℤ :=
  truncate (toMinorUnits context exact.netPaid (10 ^ minorUnits currency))

section

variable (participants : List String)

/-- The half-up minor units of everyone but the payer. -/
def othersUnits (payer : String) : ℤ :=
  ((participants.erase payer).map (exactUnits context currency exact)).sum

/-- The payer takes what the others leave of the net paid amount. -/
def finalUnits (payer participant : String) : ℤ :=
  if participant = payer then
    netUnits context currency exact - othersUnits context currency exact participants payer
  else exactUnits context currency exact participant

def finalAmount (payer participant : String) : ℚ :=
  finalUnits context currency exact participants payer participant / 10 ^ minorUnits currency

end

end

end

end

section Units

theorem toMinorUnits_kept {value : ℚ} (kept : ctx.fix value = value) :
    toMinorUnits ctx value (10 ^ minorUnits unit) = value * 10 ^ minorUnits unit := by
  have shifted := fix_mul_zpow kept (minorUnits unit)
  rw [toMinorUnits]
  push_cast
  exact shifted

theorem truncate_integer (value : ℤ) : truncate value = value := by
  unfold truncate
  split_ifs
  · exact Int.floor_intCast value
  · rw [← Int.cast_neg, Int.floor_intCast, neg_neg]

theorem pow_minorUnits_le (unit : Currency) : (10 : ℚ) ^ minorUnits unit ≤ 100 := by
  cases unit <;> norm_num [minorUnits]

theorem sum_halfUp_near (values : List ℚ) :
    |((values.map roundHalfUp).sum : ℚ) - values.sum| ≤ values.length / 2 := by
  induction values with
  | nil => simp
  | cons value values ih =>
    have head := roundHalfUp_near value
    rw [map_cons, sum_cons, sum_cons, length_cons, Int.cast_add, Nat.cast_succ]
    rw [abs_le] at *
    constructor <;> linarith [head.1, head.2, ih.1, ih.2]

variable {shares : Dict String ℚ}

theorem values_eq_shareOf (keys : shares.keys = people) : shares.values = people.map (shareOf shares) := by
  rw [values_eq_map shares 0, keys]
  rfl

theorem shareOf_get? (keys : shares.keys = people) {person : String} (member : person ∈ people) :
    shares.get? person = some (shareOf shares person) := by
  rw [← keys, ← get?_isSome, Option.isSome_iff_exists] at member
  obtain ⟨share, found⟩ := member
  rw [shareOf, found]
  rfl

theorem shareOf_nonneg {shares : Dict String ℚ} (nonneg : shares.All (0 ≤ ·)) (person : String) :
    0 ≤ shareOf shares person := by
  unfold shareOf
  cases found : shares.get? person with
  | none => exact le_rfl
  | some share => exact nonneg person share found

theorem amounts_of_units (nodup : people.Nodup) {units : String → ℤ}
    (held : ∀ person ∈ people, ctx.Holds (minorUnits unit) (units person / 10 ^ minorUnits unit)) :
    people.mapM (amountOfUnits ctx (tabulate people nodup units) unit) =
      .ok (people.map fun person => (person, (units person : ℚ) / 10 ^ minorUnits unit)) := by
  rw [mapM_ok, forall₂_map_right_iff, forall₂_same]
  intro person inside
  simp only [amountOfUnits, bind_ok, expect_ok, pure_ok]
  refine ⟨units person, by rw [get?_tabulate, if_pos inside], _, ?_, rfl⟩
  rw [div, (held person inside).fix]
  exact (held person inside).quantize halfEven

end Units

section Remainder

variable {exact : ExactReceiptShares}

section

variable (sound : exact.Sound ctx unit people)
include sound

theorem shareOf_kept (person : String) :
    ctx.fix (shareOf exact.participantShares person) = shareOf exact.participantShares person := by
  unfold shareOf
  cases found : exact.participantShares.get? person with
  | none => exact ctx.fix_zero
  | some share => exact sound.shares.kept person share found

theorem exactUnits_nonneg (person : String) : 0 ≤ exactUnits ctx unit exact person :=
  roundHalfUp_nonneg (ctx.fix_nonneg (mul_nonneg (shareOf_nonneg sound.nonneg person) (Nat.cast_nonneg _)))

/-- The conversion to minor units loses nothing, so only the half-up rule rounds. -/
theorem exactUnits_eq (person : String) :
    exactUnits ctx unit exact person =
      roundHalfUp (shareOf exact.participantShares person * 10 ^ minorUnits unit) := by
  rw [exactUnits, toMinorUnits_kept (shareOf_kept sound person)]

theorem netUnits_spec :
    ctx.fits (netUnits ctx unit exact) ∧
      exact.netPaid = netUnits ctx unit exact / 10 ^ minorUnits unit := by
  obtain ⟨coefficient, fitting, same⟩ := sound.netHeld
  have units : netUnits ctx unit exact = coefficient := by
    rw [netUnits, toMinorUnits_kept sound.netHeld.fix, same, div_mul_cancel₀ _ (by positivity), truncate_integer]
  rw [units]
  exact ⟨fitting, same⟩

/-- The rounded sum of the exact shares misses the total by less than two epsilons. -/
theorem exactSum_near : |exact.netPaid - ctx.sumFrom 0 exact.participantShares.values| < 2 / 10 ^ 18 := by
  have small := sound.reconciled
  have epsilon : stageAEpsilon = (10 : ℚ) ^ (-18 : ℤ) := by
    rw [stageAEpsilon, one_div]
    norm_cast
  have twice : (2 : ℚ) * 10 ^ (-18 : ℤ) = 2 / 10 ^ 18 := by
    norm_cast
  rw [Context.abs, Context.sub, epsilon] at small
  have outer := ctx.fix_fix (exact.netPaid - ctx.sumFrom 0 exact.participantShares.values)
  have inner : |ctx.fix (exact.netPaid - ctx.sumFrom 0 exact.participantShares.values)| ≤ (10 : ℚ) ^ (-18 : ℤ) := by
    rcases abs_choice (ctx.fix (exact.netPaid - ctx.sumFrom 0 exact.participantShares.values)) with
      same | same
    · rwa [same, outer, ← same] at small
    · rwa [same, fix_neg, outer, ← same] at small
  exact twice ▸ abs_lt_of_fix inner

/-- The rounded sum stays below the largest coefficient of the currency. -/
theorem exactSum_inside (digits : ℕ) (limited : ctx.precision = some digits) :
    ctx.sumFrom 0 exact.participantShares.values < 10 ^ digits / 10 ^ minorUnits unit := by
  have positive : (0 : ℚ) < 10 ^ minorUnits unit := by positivity
  obtain ⟨fitting, same⟩ := netUnits_spec sound
  have below : |netUnits ctx unit exact| < 10 ^ digits := by
    unfold fits at fitting
    rw [limited] at fitting
    exact of_decide_eq_true fitting
  have whole : netUnits ctx unit exact ≤ 10 ^ digits - 1 := by
    have upper := (abs_lt.mp below).2
    omega
  have held : exact.netPaid ≤ (10 ^ digits - 1) / 10 ^ minorUnits unit := by
    rw [same]
    exact div_le_div_of_nonneg_right (by exact_mod_cast whole) positive.le
  have unit : (1 : ℚ) / 100 ≤ 1 / 10 ^ minorUnits unit :=
    one_div_le_one_div_of_le positive (pow_minorUnits_le unit)
  rw [sub_div] at held
  have gap := (abs_lt.mp (exactSum_near sound)).1
  linarith

/-- The half-up units of all participants miss the total by at most one unit for each of them. -/
theorem remaining_bound :
    |netUnits ctx unit exact - (people.map (exactUnits ctx unit exact)).sum| ≤ people.length := by
  have positive : (0 : ℚ) < 10 ^ minorUnits unit := by positivity
  have shareNonneg : ∀ share ∈ exact.participantShares.values, 0 ≤ share := fun share member =>
    sound.nonneg.mem_values member
  have values := values_eq_shareOf sound.shares.keys
  have near := exactSum_near sound
  have drift := ctx.sumFrom_error (minorUnits unit) ctx.fix_zero le_rfl shareNonneg (exactSum_inside sound)
  rw [zero_add, values, length_map] at drift
  rw [values] at near
  have rounded := sum_halfUp_near (people.map fun person =>
    shareOf exact.participantShares person * 10 ^ minorUnits unit)
  have units : (people.map fun person =>
      shareOf exact.participantShares person * 10 ^ minorUnits unit).map roundHalfUp =
        people.map (exactUnits ctx unit exact) := by
    rw [map_map]
    apply map_congr_left
    intro person _
    exact (exactUnits_eq sound person).symm
  rw [sum_map_mul_right, length_map, units] at rounded
  have total : (netUnits ctx unit exact : ℚ) = exact.netPaid * 10 ^ minorUnits unit := by
    rw [(netUnits_spec sound).2, div_mul_cancel₀ _ positive.ne']
  -- The three distances are below one unit and twice half a unit for each person.
  have gap : |(netUnits ctx unit exact : ℚ) - ctx.sumFrom 0
      (people.map (shareOf exact.participantShares)) * 10 ^ minorUnits unit| < 1 := by
    rw [total, ← sub_mul, abs_mul, abs_of_pos positive]
    calc _ ≤ 2 / 10 ^ 18 * (100 : ℚ) := mul_le_mul near.le (pow_minorUnits_le unit) positive.le (by norm_num)
      _ < 1 := by norm_num
  have driftUnits : |ctx.sumFrom 0 (people.map (shareOf exact.participantShares)) *
      10 ^ minorUnits unit - (people.map (shareOf exact.participantShares)).sum *
        10 ^ minorUnits unit| ≤ people.length / 2 := by
    rw [← sub_mul, abs_mul, abs_of_pos positive]
    calc _ ≤ (people.length : ℚ) * (1 / 2 / 10 ^ minorUnits unit) * 10 ^ minorUnits unit :=
          mul_le_mul_of_nonneg_right drift positive.le
      _ = people.length / 2 := by field_simp
  have close : |((netUnits ctx unit exact -
      (people.map (exactUnits ctx unit exact)).sum : ℤ) : ℚ)| < people.length + 1 := by
    rw [Int.cast_sub, abs_lt]
    rw [abs_lt] at gap
    rw [abs_le] at driftUnits rounded
    constructor <;> linarith [gap.1, gap.2, driftUnits.1, driftUnits.2, rounded.1, rounded.2]
  have bound : |netUnits ctx unit exact - (people.map (exactUnits ctx unit exact)).sum| < people.length + 1 := by
    exact_mod_cast close
  omega

end

section Payer

variable {payer : String}

theorem sum_exactUnits_split (member : payer ∈ people) :
    (people.map (exactUnits ctx unit exact)).sum =
      exactUnits ctx unit exact payer + othersUnits ctx unit exact people payer :=
  (sum_map_erase (exactUnits ctx unit exact) member).symm

theorem sum_finalUnits (nodup : people.Nodup) (member : payer ∈ people) :
    (people.map (finalUnits ctx unit exact people payer)).sum = netUnits ctx unit exact := by
  have others : (people.erase payer).map (finalUnits ctx unit exact people payer) =
      (people.erase payer).map (exactUnits ctx unit exact) := by
    apply map_congr_left
    intro person inside
    rw [finalUnits, if_neg (nodup.mem_erase_iff.mp inside).1]
  rw [← sum_map_erase _ member, others, finalUnits, if_pos rfl, othersUnits]
  omega

theorem sum_finalAmount (sound : exact.Sound ctx unit people) (nodup : people.Nodup)
    (member : payer ∈ people) : (people.map (finalAmount ctx unit exact people payer)).sum = exact.netPaid := by
  have units : (people.map (finalUnits ctx unit exact people payer)).sum =
      netUnits ctx unit exact := sum_finalUnits nodup member
  rw [(netUnits_spec sound).2, ← units, Int.cast_list_sum, map_map, div_eq_mul_inv, ← sum_map_mul_right]
  rfl

variable (sound : exact.Sound ctx unit people) (nodup : people.Nodup) (member : payer ∈ people)
include sound nodup member

section

variable (left : othersUnits ctx unit exact people payer ≤ netUnits ctx unit exact)
include left

variable {person : String}

variable (inside : person ∈ people)
include inside

/-- When the others leave something, everyone's final units lie between zero and the total. -/
theorem finalUnits_bounds :
    0 ≤ finalUnits ctx unit exact people payer person ∧
      finalUnits ctx unit exact people payer person ≤ netUnits ctx unit exact := by
  have nonneg : ∀ other ∈ people, 0 ≤ finalUnits ctx unit exact people payer other := by
    intro other _
    unfold finalUnits
    split_ifs
    · omega
    · exact exactUnits_nonneg sound other
  refine ⟨nonneg person inside, ?_⟩
  rw [← sum_finalUnits nodup member]
  apply single_le_sum
  · exact forall_mem_map.mpr nonneg
  · exact mem_map_of_mem inside

theorem finalAmount_held : ctx.Holds (minorUnits unit) (finalAmount ctx unit exact people payer person) := by
  obtain ⟨nonneg, atMost⟩ := finalUnits_bounds sound nodup member left inside
  refine ⟨_, ctx.fits_of_abs_le (netUnits_spec sound).1 ?_, rfl⟩
  rwa [abs_of_nonneg nonneg, abs_of_nonneg (nonneg.trans atMost)]

theorem finalAmount_nonneg : 0 ≤ finalAmount ctx unit exact people payer person := by
  have nonneg := (finalUnits_bounds sound nodup member left inside).1
  exact div_nonneg (by exact_mod_cast nonneg) (by positivity)

omit inside

theorem sumFrom_finalAmount :
    ctx.sumFrom 0 (people.map (finalAmount ctx unit exact people payer)) =
      exact.netPaid := by
  refine sumFrom_eq_of_held (forall_mem_map.mpr fun person inside => ?_)
    (sum_finalAmount sound nodup member) sound.netHeld
  exact ⟨(finalAmount_held sound nodup member left inside).atScale, finalAmount_nonneg sound nodup member left inside⟩

end

theorem validateAllocatorInputs_payer (nonneg : 0 ≤ exact.netPaid) :
    validateAllocatorInputs ctx exact.participantShares exact.netPaid unit people .payer (some payer) = .ok () := by
  have listed : people ≠ [] := ne_nil_of_mem member
  simp only [validateAllocatorInputs, bind_ok, require_ok, ofMoney_ok, validateAmountForCurrency_ok, forM_ok]
  exact ⟨(), listed, (), nodup, (), nonneg, (), sound.netHeld, (),
    fun person _ => shareOf_nonneg sound.nonneg person, member⟩

omit sound member in
theorem ofList_map_eq_tabulate {ν : Type} (value : String → ν) :
    ofList (people.map fun person => (person, value person)) = tabulate people nodup value := by
  apply ext_entries
  rw [entries_ofList]
  · rfl
  · rw [map_map]
    exact (map_id people).symm ▸ nodup

/-- The payer absorbs the remainder exactly when the others leave nothing negative. -/
theorem absorbRemainder_eq :
    absorbRemainder (tabulate people nodup (exactUnits ctx unit exact)) payer
        (netUnits ctx unit exact - (people.map (exactUnits ctx unit exact)).sum) =
      if othersUnits ctx unit exact people payer ≤ netUnits ctx unit exact then
        .ok (tabulate people nodup (finalUnits ctx unit exact people payer))
      else
        .error (.payerCannotAbsorb payer (exactUnits ctx unit exact payer)
          (netUnits ctx unit exact - (people.map (exactUnits ctx unit exact)).sum)) := by
  have own := exactUnits_nonneg sound payer
  rw [sum_exactUnits_split member]
  unfold absorbRemainder
  split_ifs with exactly leaves leaves
  · congr 1
    apply tabulate_congr
    intro person inside
    unfold finalUnits
    split_ifs with here
    · subst here
      omega
    · rfl
  · omega
  · rw [get?_tabulate, if_pos member]
    simp only [expect, ok_bind]
    rw [require, if_pos (by omega), ok_bind, set_tabulate _ _ _ _ _ member]
    congr 1
    apply tabulate_congr
    intro person inside
    unfold finalUnits
    by_cases here : person = payer
    · subst here
      rw [Function.update_self, if_pos rfl]
      omega
    · rw [Function.update_of_ne here, if_neg here]
  · rw [get?_tabulate, if_pos member]
    simp only [expect, ok_bind]
    rw [require, if_neg (by omega)]
    rfl

/-- The payer policy succeeds exactly when the half-up units of the others leave nothing negative. -/
theorem allocateMinorUnits_payer (nonneg : 0 ≤ exact.netPaid) :
    allocateMinorUnits ctx exact.participantShares exact.netPaid unit people .payer (some payer) =
      if othersUnits ctx unit exact people payer ≤ netUnits ctx unit exact then
        .ok (tabulate people nodup (finalAmount ctx unit exact people payer))
      else
        .error (.payerCannotAbsorb payer (exactUnits ctx unit exact payer)
          (netUnits ctx unit exact - (people.map (exactUnits ctx unit exact)).sum)) := by
  have bases : (people.map (baseUnits ctx exact.participantShares (10 ^ minorUnits unit) .payer)).map BaseUnits.base =
        people.map (exactUnits ctx unit exact) := by
    rw [map_map]
    rfl
  have floors : ofList ((people.map (baseUnits ctx exact.participantShares (10 ^ minorUnits unit) .payer)).map
        fun units => (units.participant, units.base)) = tabulate people nodup (exactUnits ctx unit exact) := by
    rw [map_map]
    exact ofList_map_eq_tabulate nodup _
  have bounds : validateRemainderBounds (netUnits ctx unit exact - (people.map (exactUnits ctx unit exact)).sum)
      people.length .payer = .ok () := by
    rw [validateRemainderBounds, if_pos rfl, require_ok]
    exact remaining_bound sound
  unfold allocateMinorUnits
  rw [validateAllocatorInputs_payer sound nodup member nonneg]
  dsimp only
  rw [floors, bases, ← netUnits, bounds]
  simp only [spreadRemainder, expect, ok_bind]
  rw [absorbRemainder_eq sound nodup member]
  split_ifs with leaves
  · have total := sumFrom_finalAmount sound nodup member leaves
    unfold finalAmount at total
    rw [ok_bind, amounts_of_units nodup fun _ => finalAmount_held sound nodup member leaves, ok_bind,
      ofList_map_eq_tabulate nodup, values_tabulate, total, require, if_pos rfl]
    rfl
  · rfl

end Payer

end Remainder

end FinanceCore.Calculators

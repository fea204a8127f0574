import FinanceCore.Foundation.Decimal

namespace FinanceCore.Decimal

open List

theorem Representable.zero (digits : ℕ) : Representable digits 0 := ⟨0, 0, by simp, by simp⟩

variable {value start : ℚ} {ctx : Context} {places : ℕ} {values : List ℚ}

variable {digits : ℕ} {bound result : ℚ} {rounding : Rounding}

/-- A power of ten only moves the exponent. -/
theorem Representable.mul_zpow (short : Representable digits value) (shift : ℤ) :
    Representable digits (value * 10 ^ shift) := by
  obtain ⟨coefficient, exponent, bound, rfl⟩ := short
  refine ⟨coefficient, exponent + shift, bound, ?_⟩
  rw [zpow_add₀ (by norm_num), mul_assoc]

theorem roundHalfUp_small (nonneg : 0 ≤ value) (small : value < 1 / 2) : roundHalfUp value = 0 := by
  rw [roundHalfUp, if_pos nonneg, Int.floor_eq_iff]
  constructor
  · linarith
  · linarith

/-- Rounding away from zero on ties never falls short by a whole half. -/
theorem roundHalfUp_sub_gt (nonneg : 0 ≤ value) : -(1 / 2) < (roundHalfUp value : ℚ) - value := by
  rw [roundHalfUp, if_pos nonneg]
  have upper := Int.lt_floor_add_one (value + 1 / 2)
  linarith

/-- The distance to the nearest integer needs no more digits than the value. -/
theorem Representable.round_sub (short : Representable digits value) (nonneg : 0 ≤ value) :
    Representable digits ((roundHalfUp value : ℚ) - value) := by
  obtain ⟨coefficient, exponent, bound, same⟩ := short
  by_cases whole : 0 ≤ exponent
  · obtain ⟨power, rfl⟩ := Int.eq_ofNat_of_zero_le whole
    have integer : value = ((coefficient * 10 ^ power : ℤ) : ℚ) := by
      rw [same]
      push_cast
      rfl
    rw [integer, roundHalfUp_integer, sub_self]
    exact Representable.zero digits
  obtain ⟨power, powerEq⟩ := Int.eq_ofNat_of_zero_le (show 0 ≤ -exponent by omega)
  have scale : (10 : ℚ) ^ exponent * 10 ^ power = 1 := by
    rw [← zpow_natCast, ← powerEq, ← zpow_add₀ (by norm_num)]
    simp
  have unscaled : value * 10 ^ power = coefficient := by
    rw [same, mul_assoc, scale, mul_one]
  have boundRat : |(coefficient : ℚ)| ≤ 10 ^ digits := by exact_mod_cast bound
  by_cases wide : (10 : ℚ) ^ power ≤ 2 * 10 ^ digits
  · refine ⟨roundHalfUp value * 10 ^ power - coefficient, exponent, ?_, ?_⟩
    · have near := roundHalfUp_near value
      have distance : |(roundHalfUp value : ℚ) * 10 ^ power - coefficient| ≤ 1 / 2 * 10 ^ power := by
        rw [← unscaled, ← sub_mul, abs_mul, abs_of_pos (by positivity : (0 : ℚ) < 10 ^ power)]
        exact mul_le_mul_of_nonneg_right near (by positivity)
      have inside : |(roundHalfUp value : ℚ) * 10 ^ power - coefficient| ≤ 10 ^ digits := by linarith
      exact_mod_cast inside
    · push_cast
      rw [sub_mul, mul_assoc, mul_comm ((10 : ℚ) ^ power), scale, mul_one, ← same]
  · have small : value < 1 / 2 := by
      have positive : (0 : ℚ) < 10 ^ power := by positivity
      have below : value * 10 ^ power < 1 / 2 * 10 ^ power := by
        have upper := (abs_le.mp boundRat).2
        linarith
      exact lt_of_mul_lt_mul_right below positive.le
    refine ⟨-coefficient, exponent, by rwa [abs_neg], ?_⟩
    rw [roundHalfUp_small nonneg small, same]
    push_cast
    ring

namespace Context

/-- A context keeps exactly the values with few enough digits. -/
theorem fix_eq_self : ctx.fix value = value ↔ ∀ digits, ctx.precision = some digits → Representable digits value := by
  unfold fix
  split
  · next exact => simp [exact]
  · next digits limited =>
    constructor
    · intro kept other same
      obtain rfl := Option.some.inj (limited.symm.trans same)
      rw [← kept]
      exact roundDigits_representable digits value
    · intro short
      exact roundDigits_of_representable (ctx.positive digits limited) (short digits limited)

theorem fix_mul_zpow (kept : ctx.fix value = value) (shift : ℤ) : ctx.fix (value * 10 ^ shift) = value * 10 ^ shift :=
  fix_eq_self.mpr fun digits limited => (fix_eq_self.mp kept digits limited).mul_zpow shift

theorem fix_round_sub (kept : ctx.fix value = value) (nonneg : 0 ≤ value) :
    ctx.fix ((roundHalfUp value : ℚ) - value) = (roundHalfUp value : ℚ) - value :=
  fix_eq_self.mpr fun digits limited => (fix_eq_self.mp kept digits limited).round_sub nonneg

/-- One digit at any exponent is kept. -/
theorem fix_digit (ctx : Context) {digit : ℤ} (single : |digit| ≤ 10) (exponent : ℤ) :
    ctx.fix (digit * 10 ^ exponent) = digit * 10 ^ exponent := by
  refine fix_eq_self.mpr fun digits limited => ⟨digit, exponent, single.trans ?_, rfl⟩
  have positive := ctx.positive digits limited
  calc (10 : ℤ) = 10 ^ 1 := by norm_num
    _ ≤ 10 ^ digits := pow_le_pow_right₀ (by norm_num) positive

/-- A result within one unit of an exponent comes from a value within two units. -/
theorem abs_lt_of_fix {exponent : ℤ} (small : |ctx.fix value| ≤ 10 ^ exponent) : |value| < 2 * 10 ^ exponent := by
  have unit : (0 : ℚ) < 10 ^ exponent := by positivity
  have two := ctx.fix_digit (show |(2 : ℤ)| ≤ 10 by decide) exponent
  have minusTwo := ctx.fix_digit (show |(-2 : ℤ)| ≤ 10 by decide) exponent
  push_cast at two minusTwo
  rw [abs_le] at small
  rw [abs_lt]
  constructor
  · by_contra outside
    have reached := ctx.fix_monotone (not_lt.mp outside)
    rw [← neg_mul] at reached
    linarith [small.1]
  · by_contra outside
    have reached := ctx.fix_monotone (not_lt.mp outside)
    linarith [small.2]

variable (held : ctx.Holds places bound) (startScaled : AtScale places start)
  (scaled : ∀ value ∈ values, AtScale places value) (upper : start + (values.map (max · 0)).sum ≤ bound)
  (lower : -bound ≤ start + (values.map (min · 0)).sum)
include held startScaled scaled upper lower

/-- Scaled values whose partial sums stay inside a held bound add up without rounding. -/
theorem sumsExactly_of_bounded : ctx.SumsExactly start values ∧ ctx.Holds places (start + values.sum) := by
  induction values generalizing start with
  | nil =>
    simp only [map_nil, sum_nil, add_zero] at upper lower ⊢
    refine ⟨trivial, held.of_abs_le startScaled (le_trans ?_ (le_abs_self bound))⟩
    rw [abs_le]
    constructor <;> linarith
  | cons value values ih =>
    simp only [map_cons, sum_cons] at upper lower
    have larger := le_max_left value 0
    have smaller := min_le_left value 0
    have headScaled := startScaled.add (scaled value (by simp))
    have gains : 0 ≤ (values.map (max · 0)).sum := sum_nonneg (by simp)
    have losses : (values.map (min · 0)).sum ≤ 0 := by
      simpa using sum_le_card_nsmul (values.map (min · 0)) 0 (by simp)
    have next : ctx.Holds places (start + value) := by
      refine held.of_abs_le headScaled (le_trans ?_ (le_abs_self bound))
      rw [abs_le]
      constructor <;> linarith
    have rest := ih headScaled (fun later member => scaled later (by simp [member])) (by linarith) (by linarith)
    rw [sum_cons, ← add_assoc]
    exact ⟨⟨next.fix, rest.1⟩, rest.2⟩

theorem sumFrom_held_of_bounded : ctx.Holds places (ctx.sumFrom start values) := by
  obtain ⟨exactly, total⟩ := sumsExactly_of_bounded held startScaled scaled upper lower
  rwa [exactly.sumFrom_eq]

omit held startScaled scaled upper lower

/-- Non-negative scaled values add up without rounding when their total is held. -/
theorem sumFrom_eq_of_held {total : ℚ} (each : ∀ value ∈ values, AtScale places value ∧ 0 ≤ value)
    (sum : values.sum = total) (held : ctx.Holds places total) : ctx.sumFrom 0 values = total := by
  have gains : values.map (max · 0) = values.map id := map_congr_left fun value member => max_eq_left (each value member).2
  have losses : values.map (min · 0) = values.map fun _ => 0 :=
    map_congr_left fun value member => min_eq_right (each value member).2
  have nonneg : 0 ≤ values.sum := sum_nonneg fun value member => (each value member).2
  obtain ⟨exactly, _⟩ := sumsExactly_of_bounded held (AtScale.zero places) (fun value member => (each value member).1)
    (by rw [gains, map_id, zero_add, sum]) (by simpa [losses] using sum ▸ nonneg)
  rw [exactly.sumFrom_eq, zero_add, sum]

/-- Each value of a non-negative sum is at most the rounded sum. -/
theorem le_sumFrom (ctx : Context) (startNonneg : 0 ≤ start) (nonneg : ∀ value ∈ values, 0 ≤ value)
    (kept : ∀ value ∈ values, ctx.fix value = value) (member : value ∈ values) :
    value ≤ ctx.sumFrom start values := by
  induction values generalizing start with
  | nil => cases member
  | cons head rest ih =>
    have headNonneg := nonneg head (by simp)
    have restNonneg : ∀ later ∈ rest, 0 ≤ later := fun later inside => nonneg later (by simp [inside])
    rcases mem_cons.mp member with rfl | later
    · have grown : value ≤ ctx.add start value := by
        have larger := ctx.fix_monotone (le_add_of_nonneg_left (a := value) startNonneg)
        rwa [kept value (by simp)] at larger
      exact grown.trans (ctx.start_le_sumFrom (ctx.fix_fix _) restNonneg)
    · exact ih (ctx.fix_nonneg (add_nonneg startNonneg headNonneg)) restNonneg
        (fun later inside => kept later (by simp [inside])) later

theorem fix_pos (ctx : Context) (positive : 0 < value) : 0 < ctx.fix value := by
  have below := Int.zpow_log_le_self (R := ℚ) (b := 10) (by norm_num) positive
  have kept := ctx.fix_digit (show |(1 : ℤ)| ≤ 10 by decide) (Int.log 10 value)
  push_cast at below kept
  rw [one_mul] at kept
  have order := ctx.fix_monotone below
  rw [kept] at order
  exact lt_of_lt_of_le (by positivity) order

theorem fix_sumFrom (kept : ctx.fix start = start) (values : List ℚ) :
    ctx.fix (ctx.sumFrom start values) = ctx.sumFrom start values := by
  induction values generalizing start with
  | nil => exact kept
  | cons value values ih => exact ih (ctx.fix_fix _)

/-- A non-negative scaled value is held when some held value lies above its rounding. -/
theorem holds_of_fix_le {total : ℚ} (scaled : AtScale places value) (nonneg : 0 ≤ value)
    (held : ctx.Holds places total) (below : ctx.fix value ≤ total) : ctx.Holds places value := by
  obtain ⟨coefficient, rfl⟩ := scaled
  refine ⟨coefficient, ?_, rfl⟩
  obtain ⟨limit, fitting, rfl⟩ := held
  unfold fits at fitting ⊢
  split at fitting
  · rfl
  · next digits limited =>
    rw [decide_eq_true_eq] at fitting
    refine decide_eq_true ?_
    by_contra outside
    have unit : (0 : ℚ) < 10 ^ places := by positivity
    have nonnegative : 0 ≤ coefficient := by
      have scaled := mul_nonneg nonneg unit.le
      rw [div_mul_cancel₀ _ unit.ne'] at scaled
      exact_mod_cast scaled
    rw [abs_of_nonneg nonnegative, not_lt] at outside
    have large : (10 : ℚ) ^ digits / 10 ^ places ≤ coefficient / 10 ^ places :=
      div_le_div_of_nonneg_right (by exact_mod_cast outside) unit.le
    have reached := (ctx.fix_monotone large).trans below
    rw [ctx.fix_limit limited, div_le_div_iff_of_pos_right unit] at reached
    have bound := (le_abs_self limit).trans_lt fitting
    have boundRat : (limit : ℚ) < 10 ^ digits := by exact_mod_cast bound
    linarith

/-- Non-negative scaled values whose rounded sum is held were added without rounding. -/
theorem sumsExactly_of_sumFrom_held (startScaled : AtScale places start) (startNonneg : 0 ≤ start)
    (scaled : ∀ value ∈ values, AtScale places value) (nonneg : ∀ value ∈ values, 0 ≤ value)
    (held : ctx.Holds places (ctx.sumFrom start values)) : ctx.SumsExactly start values := by
  induction values generalizing start with
  | nil => trivial
  | cons value values ih =>
    have headScaled := startScaled.add (scaled value (by simp))
    have headNonneg := add_nonneg startNonneg (nonneg value (by simp))
    have restNonneg : ∀ later ∈ values, 0 ≤ later := fun later member => nonneg later (by simp [member])
    have grown := ctx.start_le_sumFrom (ctx.fix_fix (start + value)) restNonneg
    have next := holds_of_fix_le headScaled headNonneg held grown
    refine ⟨next.fix, ih headScaled headNonneg (fun later member => scaled later (by simp [member])) restNonneg ?_⟩
    rwa [sumFrom_cons, add, next.fix] at held

theorem sumFrom_eq_of_kept (each : ∀ value ∈ values, AtScale places value ∧ 0 ≤ value)
    (held : ctx.Holds places (ctx.sumFrom 0 values)) : ctx.sumFrom 0 values = values.sum := by
  have exactly := sumsExactly_of_sumFrom_held (AtScale.zero places) le_rfl
    (fun value member => (each value member).1) (fun value member => (each value member).2) held
  rw [exactly.sumFrom_eq, zero_add]

theorem quantize_nonneg (done : ctx.quantize rounding places value = some result)
    (nonneg : 0 ≤ value) : 0 ≤ result := by
  obtain ⟨_, rfl⟩ := quantize_eq_some.mp done
  have order := rounding.monotone (mul_nonneg nonneg (show (0 : ℚ) ≤ 10 ^ places by positivity))
  have start : rounding.round 0 = 0 := by exact_mod_cast rounding.integer 0
  rw [start] at order
  exact div_nonneg (by exact_mod_cast order) (by positivity)

/-- Quantizing succeeds below any non-negative value where it succeeds. -/
theorem quantize_of_le {small large : ℚ} (done : ctx.quantize rounding places large = some result)
    (nonneg : 0 ≤ small) (below : small ≤ large) : ∃ smaller, ctx.quantize rounding places small = some smaller := by
  have unit : (0 : ℚ) ≤ 10 ^ places := by positivity
  obtain ⟨fitting, _⟩ := quantize_eq_some.mp done
  refine ⟨_, quantize_eq_some.mpr ⟨ctx.fits_of_abs_le fitting ?_, rfl⟩⟩
  have order := rounding.monotone (mul_le_mul_of_nonneg_right below unit)
  have zero := rounding.monotone (mul_nonneg nonneg unit)
  have start : rounding.round 0 = 0 := by exact_mod_cast rounding.integer 0
  rw [start] at zero
  rwa [abs_of_nonneg zero, abs_of_nonneg (zero.trans order)]

end Context

end FinanceCore.Decimal

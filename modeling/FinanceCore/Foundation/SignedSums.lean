import FinanceCore.Foundation.KeptValues

namespace FinanceCore.Decimal

variable {ctx : Context} {places : ℕ}

/-- A whole multiple of a power of ten is at every scale that reaches the power. -/
theorem atScale_of_zpow (coefficient : ℤ) {exponent : ℤ} (reached : -(places : ℤ) ≤ exponent) :
    AtScale places (coefficient * 10 ^ exponent) := by
  obtain ⟨shift, same⟩ : ∃ shift : ℕ, exponent = shift - places := ⟨(exponent + places).toNat, by omega⟩
  refine ⟨coefficient * 10 ^ shift, ?_⟩
  rw [same, zpow_sub₀ (by norm_num), zpow_natCast, zpow_natCast]
  push_cast
  ring

variable {value start : ℚ} {values : List ℚ}

namespace Context

/-- Rounding to the precision never leaves the scale of a value. -/
theorem fix_atScale (scaled : AtScale places value) : AtScale places (ctx.fix value) := by
  by_cases held : ctx.Holds places value
  · rwa [held.fix]
  · obtain ⟨coefficient, rfl⟩ := scaled
    have unit : (0 : ℚ) < 10 ^ places := by positivity
    unfold fix
    split
    · exact ⟨coefficient, rfl⟩
    · next digits limited =>
      have large : (10 : ℤ) ^ digits ≤ |coefficient| := by
        by_contra small
        apply held
        refine ⟨coefficient, ?_, rfl⟩
        unfold fits
        rw [limited]
        exact decide_eq_true (not_le.mp small)
      have largeRat : (10 : ℚ) ^ digits ≤ |(coefficient : ℚ)| := by exact_mod_cast large
      have size : |(coefficient : ℚ) / 10 ^ places| = |(coefficient : ℚ)| / 10 ^ places := by
        rw [abs_div, abs_of_pos unit]
      have power : (10 : ℚ) ^ ((digits : ℤ) - places) ≤ |(coefficient : ℚ) / 10 ^ places| := by
        rw [size, zpow_sub₀ (by norm_num)]
        exact div_le_div_of_nonneg_right largeRat unit.le
      have log : (digits : ℤ) - places ≤ Int.log 10 |(coefficient : ℚ) / 10 ^ places| := by
        have nonzero : |(coefficient : ℚ) / 10 ^ places| ≠ 0 := by
          have positive : (0 : ℚ) < 10 ^ ((digits : ℤ) - places) := by positivity
          exact (lt_of_lt_of_le positive power).ne'
        exact (Int.zpow_le_iff_le_log (by norm_num) (lt_of_le_of_ne (abs_nonneg _) nonzero.symm)).mp
          (by exact_mod_cast power)
      apply atScale_of_zpow
      omega

theorem sumFrom_atScale (startScaled : AtScale places start)
    (scaled : ∀ value ∈ values, AtScale places value) : AtScale places (ctx.sumFrom start values) := by
  induction values generalizing start with
  | nil => exact startScaled
  | cons value values ih =>
    exact ih (fix_atScale (startScaled.add (scaled value (by simp))))
      fun later member => scaled later (by simp [member])

variable {rounding : Rounding} {result : ℚ}

/-- Quantizing keeps a value that is already at the scale. -/
theorem quantize_atScale (scaled : AtScale places value)
    (done : ctx.quantize rounding places value = some result) : result = value ∧
      ctx.Holds places value := by
  obtain ⟨coefficient, rfl⟩ := scaled
  have whole : (coefficient : ℚ) / 10 ^ places * 10 ^ places = coefficient := by
    field_simp
  obtain ⟨fitting, same⟩ := quantize_eq_some.mp done
  rw [whole, rounding.integer] at fitting same
  exact ⟨same, coefficient, fitting, rfl⟩

/-- A rounded total of non-negative scaled values is their exact sum. -/
theorem quantize_sumFrom (each : ∀ value ∈ values, AtScale places value ∧ 0 ≤ value)
    (done : ctx.quantize rounding places (ctx.sumFrom 0 values) = some result) :
    result = values.sum ∧ ctx.Holds places result := by
  obtain ⟨rfl, held⟩ := quantize_atScale
    (sumFrom_atScale (AtScale.zero places) fun value member => (each value member).1) done
  exact ⟨sumFrom_eq_of_kept each held, held⟩

/-- A scaled value is held as soon as its rounding is. -/
theorem holds_of_fix (scaled : AtScale places value) (held : ctx.Holds places (ctx.fix value)) :
    ctx.Holds places value := by
  rcases le_total 0 value with nonneg | nonpos
  · exact holds_of_fix_le scaled nonneg held le_rfl
  · have rounded := held.neg
    rw [← ctx.fix_neg] at rounded
    have negated := holds_of_fix_le scaled.neg (by linarith) rounded le_rfl
    simpa using negated.neg

/-- A scaled result that could be quantized was computed without rounding. -/
theorem quantize_fix (scaled : AtScale places value)
    (done : ctx.quantize rounding places (ctx.fix value) = some result) :
    result = value ∧ ctx.Holds places value := by
  obtain ⟨same, held⟩ := quantize_atScale (fix_atScale scaled) done
  have kept := holds_of_fix scaled held
  exact ⟨by rw [same, kept.fix], kept⟩

theorem fix_neg_of_neg (ctx : Context) (negative : value < 0) : ctx.fix value < 0 := by
  have positive := ctx.fix_pos (neg_pos.mpr negative)
  rw [ctx.fix_neg] at positive
  linarith

theorem sumFrom_le_start (kept : ctx.fix start = start) (nonpos : ∀ value ∈ values, value ≤ 0) :
    ctx.sumFrom start values ≤ start := by
  induction values generalizing start with
  | nil => exact le_rfl
  | cons value values ih =>
    have shrunk : ctx.add start value ≤ start := by
      have smaller := ctx.fix_monotone (add_le_of_nonpos_right (a := start) (nonpos value (by simp)))
      rwa [kept] at smaller
    exact (ih (ctx.fix_fix _) fun later member => nonpos later (by simp [member])).trans shrunk

/-- Losses that do not use up a held start are subtracted without rounding. -/
theorem sumsExactly_of_losses (held : ctx.Holds places start)
    (scaled : ∀ value ∈ values, AtScale places value) (nonpos : ∀ value ∈ values, value ≤ 0)
    (covered : 0 ≤ ctx.sumFrom start values) : ctx.SumsExactly start values := by
  induction values generalizing start with
  | nil => trivial
  | cons value values ih =>
    have restNonpos : ∀ later ∈ values, later ≤ 0 := fun later member => nonpos later (by simp [member])
    have headScaled := held.atScale.add (scaled value (by simp))
    have headNonneg : 0 ≤ start + value := by
      by_contra negative
      have below := ctx.fix_neg_of_neg (not_le.mp negative)
      have later := ctx.sumFrom_le_start (ctx.fix_fix (start + value)) restNonpos
      rw [sumFrom_cons, add] at covered
      linarith
    have next : ctx.Holds places (start + value) := by
      have smaller := nonpos value (by simp)
      refine held.of_abs_le headScaled ?_
      rw [abs_of_nonneg headNonneg, abs_of_nonneg (by linarith)]
      linarith
    refine ⟨next.fix, ih next (fun later member => scaled later (by simp [member])) restNonpos ?_⟩
    rwa [sumFrom_cons, add, next.fix] at covered

/-- One gain among losses: a sum that does not end below zero was computed without rounding. -/
theorem sumsExactly_of_one_gain {gain : ℚ} {before after : List ℚ}
    (startHeld : ctx.Holds places start)
    (startNonpos : start ≤ 0) (gainHeld : ctx.Holds places gain) (gainNonneg : 0 ≤ gain)
    (scaled : ∀ value ∈ before ++ after, AtScale places value)
    (nonpos : ∀ value ∈ before ++ after, value ≤ 0)
    (covered : 0 ≤ ctx.sumFrom start (before ++ gain :: after)) :
    ctx.SumsExactly start (before ++ gain :: after) := by
  induction before generalizing start with
  | nil =>
    have next : ctx.Holds places (start + gain) := by
      rcases le_total 0 (start + gain) with sum | sum
      · refine gainHeld.of_abs_le (startHeld.atScale.add gainHeld.atScale) ?_
        rw [abs_of_nonneg sum, abs_of_nonneg gainNonneg]
        linarith
      · refine startHeld.of_abs_le (startHeld.atScale.add gainHeld.atScale) ?_
        rw [abs_of_nonpos sum, abs_of_nonpos startNonpos]
        linarith
    refine ⟨next.fix, sumsExactly_of_losses next scaled nonpos ?_⟩
    rwa [List.nil_append, sumFrom_cons, add, next.fix] at covered
  | cons value before ih =>
    have restScaled : ∀ later ∈ before ++ after, AtScale places later := fun later member =>
      scaled later (List.mem_cons_of_mem _ member)
    have restNonpos : ∀ later ∈ before ++ after, later ≤ 0 := fun later member =>
      nonpos later (List.mem_cons_of_mem _ member)
    have loss := nonpos value (by simp)
    have headScaled := startHeld.atScale.add (scaled value (by simp))
    rw [List.cons_append, sumFrom_cons] at covered
    have enough : 0 ≤ ctx.add start value + gain := by
      by_contra short
      have losses : ctx.sumFrom (ctx.add start value) before ≤ ctx.add start value :=
        ctx.sumFrom_le_start (ctx.fix_fix _) fun later member => restNonpos later (by simp [member])
      have sum : ctx.sumFrom (ctx.add start value) before + gain < 0 := by
        linarith
      have below := ctx.fix_neg_of_neg sum
      have tail : ctx.sumFrom (ctx.fix (ctx.sumFrom (ctx.add start value) before + gain)) after ≤
          ctx.fix (ctx.sumFrom (ctx.add start value) before + gain) :=
        ctx.sumFrom_le_start (ctx.fix_fix _) fun later member => restNonpos later (by simp [member])
      rw [sumFrom, List.foldl_append] at covered
      exact absurd (covered.trans tail) (not_le.mpr below)
    have next : ctx.Holds places (start + value) := by
      have negated : ctx.fix (-(start + value)) ≤ gain := by
        rw [ctx.fix_neg]
        rw [add] at enough
        linarith
      have held := holds_of_fix_le headScaled.neg (by linarith) gainHeld negated
      simpa using held.neg
    refine ⟨next.fix, ih next (by linarith) restScaled restNonpos ?_⟩
    rwa [add, next.fix] at covered

end Context

end FinanceCore.Decimal

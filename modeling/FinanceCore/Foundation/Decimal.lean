import Mathlib

namespace FinanceCore.Decimal

/-- A rounding rule chooses an integer at distance at most one half. -/
structure Rounding where
  round : ℚ → ℤ
  integer : ∀ value : ℤ, round value = value
  monotone : Monotone round
  near : ∀ value : ℚ, |(round value : ℚ) - value| ≤ 1 / 2

/-- A tie moves to the even neighbour. -/
def roundHalfEven (value : ℚ) : ℤ :=
  let rest := value - ⌊value⌋
  if rest < 1 / 2 then ⌊value⌋
  else if 1 / 2 < rest then ⌊value⌋ + 1
  else if ⌊value⌋ % 2 = 0 then ⌊value⌋ else ⌊value⌋ + 1

/-- A tie moves away from zero. -/
def roundHalfUp (value : ℚ) : ℤ :=
  if 0 ≤ value then ⌊value + 1 / 2⌋ else -⌊-value + 1 / 2⌋

variable (value : ℚ)

/-- The even rule returns one of the two neighbours, each inside its own half. -/
theorem roundHalfEven_cases :
    (roundHalfEven value = ⌊value⌋ ∧ value - ⌊value⌋ ≤ 1 / 2) ∨
      (roundHalfEven value = ⌊value⌋ + 1 ∧ 1 / 2 ≤ value - ⌊value⌋) := by
  unfold roundHalfEven
  dsimp only
  split_ifs with below above even
  · exact .inl ⟨rfl, below.le⟩
  · exact .inr ⟨rfl, above.le⟩
  · exact .inl ⟨rfl, not_lt.mp above⟩
  · exact .inr ⟨rfl, not_lt.mp below⟩

theorem roundHalfEven_integer (value : ℤ) : roundHalfEven value = value := by
  simp [roundHalfEven]

theorem roundHalfEven_pow (exponent : ℕ) : roundHalfEven (10 ^ exponent) = 10 ^ exponent := by
  exact_mod_cast roundHalfEven_integer (10 ^ exponent)

theorem roundHalfEven_near : |(roundHalfEven value : ℚ) - value| ≤ 1 / 2 := by
  have lower := Int.floor_le value
  have upper := Int.lt_floor_add_one value
  obtain ⟨same, bound⟩ | ⟨same, bound⟩ := roundHalfEven_cases value
  · rw [same, abs_le]
    constructor <;> linarith
  · rw [same, abs_le]
    push_cast
    constructor <;> linarith

theorem roundHalfEven_monotone : Monotone roundHalfEven := by
  intro first second ordered
  have floors := Int.floor_le_floor ordered
  obtain strict | same := floors.lt_or_eq
  · obtain ⟨firstEq, _⟩ | ⟨firstEq, _⟩ := roundHalfEven_cases first <;>
      obtain ⟨secondEq, _⟩ | ⟨secondEq, _⟩ := roundHalfEven_cases second <;> omega
  · unfold roundHalfEven
    dsimp only
    rw [same]
    split_ifs <;> first | omega | (exfalso; linarith)

/-- Both neighbours swap under negation, so the even rule is odd. -/
theorem roundHalfEven_neg : roundHalfEven (-value) = -roundHalfEven value := by
  by_cases whole : (⌊value⌋ : ℚ) = value
  · rw [← whole, ← Int.cast_neg, roundHalfEven_integer, roundHalfEven_integer]
  · have lower : (⌊value⌋ : ℚ) < value := lt_of_le_of_ne (Int.floor_le value) whole
    have upper := Int.lt_floor_add_one value
    have reflected : ⌊-value⌋ = -⌊value⌋ - 1 := by
      rw [Int.floor_eq_iff]
      push_cast
      constructor <;> linarith
    unfold roundHalfEven
    rw [reflected]
    push_cast
    split_ifs <;> first | omega | (exfalso; linarith)

def halfEven : Rounding where
  round := roundHalfEven
  integer := roundHalfEven_integer
  monotone := roundHalfEven_monotone
  near := roundHalfEven_near

theorem roundHalfUp_neg : roundHalfUp (-value) = -roundHalfUp value := by
  unfold roundHalfUp
  rcases lt_trichotomy value 0 with negative | zero | positive
  · simp [negative.le, not_le.mpr negative]
  · subst zero
    norm_num
  · simp [positive.le, not_le.mpr positive]

theorem roundHalfUp_integer (value : ℤ) : roundHalfUp value = value := by
  unfold roundHalfUp
  split_ifs with sign
  · rw [Int.floor_eq_iff]
    constructor <;> linarith
  · have reflected : ⌊-(value : ℚ) + 1 / 2⌋ = -value := by
      rw [Int.floor_eq_iff]
      push_cast
      constructor <;> linarith
    omega

theorem roundHalfUp_near : |(roundHalfUp value : ℚ) - value| ≤ 1 / 2 := by
  unfold roundHalfUp
  split_ifs with sign
  · have lower := Int.floor_le (value + 1 / 2)
    have upper := Int.lt_floor_add_one (value + 1 / 2)
    rw [abs_le]
    constructor <;> linarith
  · have lower := Int.floor_le (-value + 1 / 2)
    have upper := Int.lt_floor_add_one (-value + 1 / 2)
    rw [abs_le]
    push_cast
    constructor <;> linarith

variable {value first second start : ℚ} {digits places : ℕ} {values : List ℚ}

theorem roundHalfUp_nonneg (nonneg : 0 ≤ value) : 0 ≤ roundHalfUp value := by
  rw [roundHalfUp, if_pos nonneg]
  exact Int.floor_nonneg.mpr (by linarith)

theorem roundHalfUp_monotone : Monotone roundHalfUp := by
  apply monotone_of_odd_of_monotoneOn_nonneg roundHalfUp_neg
  intro first sign second later ordered
  rw [roundHalfUp, if_pos (Set.mem_Ici.mp sign), roundHalfUp, if_pos (Set.mem_Ici.mp later)]
  exact Int.floor_le_floor (by linarith)

def halfUp : Rounding where
  round := roundHalfUp
  integer := roundHalfUp_integer
  monotone := roundHalfUp_monotone
  near := roundHalfUp_near

/-- The unit in the last place of a coefficient with the given digits. -/
def ulp (digits : ℕ) (value : ℚ) : ℚ := 10 ^ (Int.log 10 |value| + 1 - digits)

/-- The coefficient keeps the given number of significant digits. -/
def roundDigits (digits : ℕ) (value : ℚ) : ℚ :=
  roundHalfEven (value / ulp digits value) * ulp digits value

/-- A coefficient of the given digits and one power of ten denote the value. -/
def Representable (digits : ℕ) (value : ℚ) : Prop :=
  ∃ coefficient exponent : ℤ, |coefficient| ≤ 10 ^ digits ∧ value = coefficient * 10 ^ exponent

theorem ulp_pos (digits : ℕ) (value : ℚ) : 0 < ulp digits value := by
  unfold ulp
  positivity

theorem ulp_neg (digits : ℕ) (value : ℚ) : ulp digits (-value) = ulp digits value := by
  rw [ulp, ulp, abs_neg]

theorem roundDigits_neg (digits : ℕ) (value : ℚ) : roundDigits digits (-value) = -roundDigits digits value := by
  rw [roundDigits, roundDigits, ulp_neg, neg_div, roundHalfEven_neg]
  push_cast
  ring

@[simp] theorem roundDigits_zero (digits : ℕ) : roundDigits digits 0 = 0 := by
  have zero := roundHalfEven_integer 0
  norm_num at zero
  simp [roundDigits, zero]

theorem roundDigits_error (digits : ℕ) (value : ℚ) : |roundDigits digits value - value| ≤ ulp digits value / 2 := by
  have positive := ulp_pos digits value
  have near := roundHalfEven_near (value / ulp digits value)
  have scaled : roundDigits digits value - value =
      ((roundHalfEven (value / ulp digits value) : ℚ) - value / ulp digits value) * ulp digits value := by
    rw [sub_mul, div_mul_cancel₀ _ positive.ne']
    rfl
  rw [scaled, abs_mul, abs_of_pos positive]
  nlinarith

/-- The scaled value has at most the given number of digits before its point. -/
theorem abs_div_ulp_lt (digits : ℕ) (value : ℚ) : |value / ulp digits value| < 10 ^ digits := by
  have positive := ulp_pos digits value
  have upper := Int.lt_zpow_succ_log_self (R := ℚ) (b := 10) (by norm_num) |value|
  rw [abs_div, abs_of_pos positive, div_lt_iff₀ positive]
  calc |value| < 10 ^ (Int.log 10 |value| + 1) := by exact_mod_cast upper
    _ = 10 ^ digits * ulp digits value := by
        rw [ulp, ← zpow_natCast, ← zpow_add₀ (by norm_num)]
        ring_nf

theorem le_abs_div_ulp (digits : ℕ) (value : ℚ) (nonzero : value ≠ 0) :
    (10 : ℚ) ^ ((digits : ℤ) - 1) ≤ |value / ulp digits value| := by
  have positive := ulp_pos digits value
  have lower := Int.zpow_log_le_self (R := ℚ) (b := 10) (by norm_num) (abs_pos.mpr nonzero)
  rw [abs_div, abs_of_pos positive, le_div_iff₀ positive]
  calc (10 : ℚ) ^ ((digits : ℤ) - 1) * ulp digits value = 10 ^ Int.log 10 |value| := by
        rw [ulp, ← zpow_add₀ (by norm_num)]
        ring_nf
    _ ≤ |value| := by exact_mod_cast lower

/-- A value with few enough digits survives the rounding. -/
theorem roundDigits_of_representable (positive : 0 < digits) (short : Representable digits value) :
    roundDigits digits value = value := by
  by_cases zero : value = 0
  · rw [zero, roundDigits_zero]
  obtain ⟨coefficient, exponent, bound, same⟩ := short
  have boundRat : |(coefficient : ℚ)| ≤ 10 ^ digits := by exact_mod_cast bound
  have lower := Int.zpow_log_le_self (R := ℚ) (b := 10) (by norm_num) (abs_pos.mpr zero)
  have magnitude : |value| ≤ (10 : ℚ) ^ ((digits : ℤ) + exponent) := by
    rw [same, abs_mul, abs_of_pos (by positivity : (0 : ℚ) < 10 ^ exponent), zpow_add₀ (by norm_num)]
    exact mul_le_mul_of_nonneg_right boundRat (by positivity)
  have order : Int.log 10 |value| ≤ digits + exponent := by
    have powers : (10 : ℚ) ^ Int.log 10 |value| ≤ 10 ^ ((digits : ℤ) + exponent) :=
      le_trans (by exact_mod_cast lower) magnitude
    exact (zpow_le_zpow_iff_right₀ (by norm_num)).mp powers
  obtain ⟨scaled, whole⟩ : ∃ scaled : ℤ, value / ulp digits value = scaled := by
    obtain inside | edge := order.lt_or_eq
    · -- The last place lies at or below the given exponent.
      obtain ⟨shift, shiftEq⟩ := Int.eq_ofNat_of_zero_le
        (show 0 ≤ exponent - (Int.log 10 |value| + 1 - digits) by omega)
      refine ⟨coefficient * 10 ^ shift, ?_⟩
      calc value / ulp digits value =
            coefficient * ((10 : ℚ) ^ exponent / 10 ^ (Int.log 10 |value| + 1 - digits)) := by
              rw [← mul_div_assoc, ← same, ulp]
        _ = ((coefficient * 10 ^ shift : ℤ) : ℚ) := by
              rw [← zpow_sub₀ (by norm_num), shiftEq]
              push_cast
              rfl
    · -- Only a full power of ten reaches the next decade.
      have full : |value| = (10 : ℚ) ^ ((digits : ℤ) + exponent) := by
        apply le_antisymm magnitude
        rw [← edge]
        exact_mod_cast lower
      obtain ⟨shift, shiftEq⟩ := Int.eq_ofNat_of_zero_le (show 0 ≤ (digits : ℤ) - 1 by omega)
      have quotient : (10 : ℚ) ^ ((digits : ℤ) + exponent) / ulp digits value = 10 ^ shift := by
        rw [ulp, ← zpow_sub₀ (by norm_num), ← zpow_natCast]
        congr 1
        omega
      obtain sign | sign := abs_choice value
      · refine ⟨10 ^ shift, ?_⟩
        push_cast
        rw [← quotient, ← full, sign]
      · refine ⟨-10 ^ shift, ?_⟩
        have negative : value = -(10 : ℚ) ^ ((digits : ℤ) + exponent) := by
          rw [← full, sign, neg_neg]
        push_cast
        rw [← quotient, ← neg_div, ← negative]
  rw [roundDigits, whole, roundHalfEven_integer, ← whole, div_mul_cancel₀ _ (ulp_pos digits value).ne']

/-- The rounded coefficient has at most the given number of digits. -/
theorem roundDigits_representable (digits : ℕ) (value : ℚ) : Representable digits (roundDigits digits value) := by
  refine ⟨roundHalfEven (value / ulp digits value), Int.log 10 |value| + 1 - digits, ?_, rfl⟩
  have bound := (abs_lt.mp (abs_div_ulp_lt digits value))
  have upper := roundHalfEven_monotone bound.2.le
  have lower := roundHalfEven_monotone bound.1.le
  rw [roundHalfEven_pow] at upper
  rw [roundHalfEven_neg, roundHalfEven_pow] at lower
  exact abs_le.mpr ⟨lower, upper⟩

theorem roundDigits_nonneg (digits : ℕ) (nonneg : 0 ≤ value) : 0 ≤ roundDigits digits value := by
  have scaled := roundHalfEven_monotone (div_nonneg nonneg (ulp_pos digits value).le)
  have zero : roundHalfEven 0 = 0 := by exact_mod_cast roundHalfEven_integer 0
  rw [zero] at scaled
  exact mul_nonneg (by exact_mod_cast scaled) (ulp_pos digits value).le

/-- Rounding stays inside the decade of a positive value. -/
theorem roundDigits_decade (positive : 0 < digits) (sign : 0 < value) :
    (10 : ℚ) ^ Int.log 10 value ≤ roundDigits digits value ∧
      roundDigits digits value ≤ 10 ^ (Int.log 10 value + 1) := by
  have unit := ulp_pos digits value
  have scaledPos : 0 < value / ulp digits value := div_pos sign unit
  have lower := le_abs_div_ulp digits value sign.ne'
  have upper := abs_div_ulp_lt digits value
  rw [abs_of_pos scaledPos] at lower upper
  obtain ⟨shift, shiftEq⟩ := Int.eq_ofNat_of_zero_le (show 0 ≤ (digits : ℤ) - 1 by omega)
  have lowerRound : (10 : ℤ) ^ shift ≤ roundHalfEven (value / ulp digits value) := by
    rw [shiftEq] at lower
    rw [← roundHalfEven_pow]
    exact roundHalfEven_monotone (by exact_mod_cast lower)
  have upperRound : roundHalfEven (value / ulp digits value) ≤ (10 : ℤ) ^ digits := by
    rw [← roundHalfEven_pow]
    exact roundHalfEven_monotone upper.le
  constructor
  · calc (10 : ℚ) ^ Int.log 10 value = (10 : ℚ) ^ shift * ulp digits value := by
          rw [ulp, abs_of_pos sign, ← zpow_natCast, ← zpow_add₀ (by norm_num)]
          congr 1
          omega
      _ ≤ roundDigits digits value :=
          mul_le_mul_of_nonneg_right (by exact_mod_cast lowerRound) unit.le
  · calc roundDigits digits value ≤ (10 : ℚ) ^ digits * ulp digits value :=
          mul_le_mul_of_nonneg_right (by exact_mod_cast upperRound) unit.le
      _ = 10 ^ (Int.log 10 value + 1) := by
          rw [ulp, abs_of_pos sign, ← zpow_natCast, ← zpow_add₀ (by norm_num)]
          congr 1
          omega

/-- Values of one decade share their last place, and decades do not overlap. -/
theorem roundDigits_monotone_pos (positive : 0 < digits) (sign : 0 < first)
    (ordered : first ≤ second) :
    roundDigits digits first ≤ roundDigits digits second := by
  have secondSign := sign.trans_le ordered
  have logs : Int.log 10 first ≤ Int.log 10 second := Int.log_mono_right sign ordered
  obtain strict | same := logs.lt_or_eq
  · calc roundDigits digits first ≤ 10 ^ (Int.log 10 first + 1) := (roundDigits_decade positive sign).2
      _ ≤ 10 ^ Int.log 10 second := zpow_le_zpow_right₀ (by norm_num) (by omega)
      _ ≤ roundDigits digits second := (roundDigits_decade positive secondSign).1
  · have units : ulp digits first = ulp digits second := by
      rw [ulp, ulp, abs_of_pos sign, abs_of_pos secondSign, same]
    have unit := ulp_pos digits second
    rw [roundDigits, units]
    apply mul_le_mul_of_nonneg_right _ unit.le
    exact_mod_cast roundHalfEven_monotone (div_le_div_of_nonneg_right ordered unit.le)

theorem roundDigits_monotone (positive : 0 < digits) : Monotone (roundDigits digits) := by
  apply monotone_of_odd_of_monotoneOn_nonneg (roundDigits_neg digits)
  intro first nonneg second _ ordered
  rcases (Set.mem_Ici.mp nonneg).lt_or_eq with sign | rfl
  · exact roundDigits_monotone_pos positive sign ordered
  · rw [roundDigits_zero]
    exact roundDigits_nonneg digits ordered

/-- A context limits the digits of each result; without a limit each result is exact. -/
structure Context where
  precision : Option ℕ
  positive : ∀ digits, precision = some digits → 0 < digits

variable {ctx : Context} {rounding : Rounding} {result : ℚ}

namespace Context

/-- Every operation of this context is exact. -/
def unlimited : Context := ⟨none, by simp⟩

/-- The default context keeps 28 digits. -/
def standard : Context := ⟨some 28, by simp⟩

section

variable (context : Context)

/-- Each operation computes its exact result and then fixes it. -/
def fix (value : ℚ) : ℚ :=
  match context.precision with
  | none => value
  | some digits => roundDigits digits value

/-- A coefficient fits when it has no more digits than the precision. -/
def fits (coefficient : ℤ) : Bool :=
  match context.precision with
  | none => true
  | some digits => decide (|coefficient| < 10 ^ digits)

section

variable (first second : ℚ)

def add : ℚ := context.fix (first + second)

def sub : ℚ := context.fix (first - second)

def mul : ℚ := context.fix (first * second)

def div : ℚ := context.fix (first / second)

end

def neg (value : ℚ) : ℚ := context.fix (-value)

def abs (value : ℚ) : ℚ := context.fix |value|

/-- The additions run from left to right and each one is fixed. -/
def sumFrom (start : ℚ) (values : List ℚ) : ℚ :=
  values.foldl context.add start

/-- Quantizing moves a value to the given places, or fails when its coefficient is too long. -/
def quantize (rounding : Rounding) (places : ℕ) (value : ℚ) : Option ℚ :=
  let coefficient := rounding.round (value * 10 ^ places)
  if context.fits coefficient then some (coefficient / 10 ^ places) else none

end

@[simp] theorem fix_unlimited : unlimited.fix value = value := rfl

@[simp] theorem fix_zero (ctx : Context) : ctx.fix 0 = 0 := by
  unfold fix
  split
  · rfl
  · exact roundDigits_zero _

theorem fix_neg (ctx : Context) (value : ℚ) : ctx.fix (-value) = -ctx.fix value := by
  unfold fix
  split
  · rfl
  · exact roundDigits_neg _ _

theorem fix_monotone (ctx : Context) : Monotone ctx.fix := by
  intro first second ordered
  unfold fix
  split
  · exact ordered
  · next digits limited => exact roundDigits_monotone (ctx.positive digits limited) ordered

@[simp] theorem fix_fix (ctx : Context) (value : ℚ) : ctx.fix (ctx.fix value) = ctx.fix value := by
  unfold fix
  split
  · rfl
  · next digits limited =>
    exact roundDigits_of_representable (ctx.positive digits limited) (roundDigits_representable digits value)

theorem fix_nonneg (ctx : Context) (nonneg : 0 ≤ value) : 0 ≤ ctx.fix value := by
  simpa using ctx.fix_monotone nonneg

/-- A fitting coefficient at any scale survives the context. -/
theorem fix_scaled (ctx : Context) {coefficient : ℤ} (fitting : ctx.fits coefficient)
    (places : ℕ) : ctx.fix (coefficient / 10 ^ places) = coefficient / 10 ^ places := by
  unfold fix
  unfold fits at fitting
  split
  · rfl
  · next digits limited =>
    rw [limited] at fitting
    apply roundDigits_of_representable (ctx.positive digits limited)
    refine ⟨coefficient, -(places : ℤ), (of_decide_eq_true fitting).le, ?_⟩
    rw [zpow_neg, zpow_natCast, div_eq_mul_inv]

theorem fits_of_abs_le (ctx : Context) {small large : ℤ} (fitting : ctx.fits large)
    (bound : |small| ≤ |large|) : ctx.fits small := by
  unfold fits at *
  split
  · rfl
  · next digits limited =>
    rw [limited] at fitting
    exact decide_eq_true (bound.trans_lt (of_decide_eq_true fitting))

theorem fits_zero (ctx : Context) : ctx.fits 0 := by
  unfold fits
  split
  · rfl
  · exact decide_eq_true (by simp)

/-- Below the largest coefficient of a scale one operation moves its result by at most half a unit. -/
theorem fix_error (ctx : Context) (places : ℕ) (value : ℚ)
    (inside : ∀ digits, ctx.precision = some digits → |value| < 10 ^ digits / 10 ^ places) :
    |ctx.fix value - value| ≤ 1 / 2 / 10 ^ places := by
  unfold fix
  split
  · simp only [sub_self, abs_zero]
    positivity
  · next digits limited =>
    by_cases zero : value = 0
    · rw [zero, roundDigits_zero, sub_self]
      positivity
    have lower := Int.zpow_log_le_self (R := ℚ) (b := 10) (by norm_num) (abs_pos.mpr zero)
    have order : Int.log 10 |value| < (digits : ℤ) - places := by
      have powers : (10 : ℚ) ^ Int.log 10 |value| < 10 ^ ((digits : ℤ) - places) := by
        rw [zpow_sub₀ (by norm_num)]
        exact lt_of_le_of_lt (by exact_mod_cast lower) (inside digits limited)
      exact (zpow_lt_zpow_iff_right₀ (by norm_num)).mp powers
    have unit : ulp digits value ≤ 1 / 10 ^ places := by
      rw [one_div, ← zpow_natCast, ← zpow_neg]
      exact zpow_le_zpow_right₀ (by norm_num) (by omega)
    calc |roundDigits digits value - value| ≤ ulp digits value / 2 := roundDigits_error digits value
      _ ≤ 1 / 2 / 10 ^ places := by
          rw [div_right_comm]
          linarith

end Context

/-- The values of one scale are the multiples of its smallest unit. -/
def AtScale (places : ℕ) (value : ℚ) : Prop := ∃ coefficient : ℤ, value = coefficient / 10 ^ places

theorem AtScale.zero (places : ℕ) : AtScale places 0 := ⟨0, by simp⟩

theorem AtScale.add (left : AtScale places first) (right : AtScale places second) :
    AtScale places (first + second) := by
  obtain ⟨m, rfl⟩ := left
  obtain ⟨n, rfl⟩ := right
  exact ⟨m + n, by push_cast; ring⟩

theorem AtScale.neg (scaled : AtScale places value) : AtScale places (-value) := by
  obtain ⟨n, rfl⟩ := scaled
  exact ⟨-n, by push_cast; ring⟩

theorem AtScale.sub (left : AtScale places first) (right : AtScale places second) :
    AtScale places (first - second) := by
  rw [sub_eq_add_neg]
  exact left.add right.neg

namespace Context

/-- A scaled value fits when its coefficient does. -/
def Holds (context : Context) (places : ℕ) (value : ℚ) : Prop :=
  ∃ coefficient : ℤ, context.fits coefficient ∧ value = coefficient / 10 ^ places

theorem Holds.atScale (held : ctx.Holds places value) : AtScale places value := by
  obtain ⟨coefficient, _, same⟩ := held
  exact ⟨coefficient, same⟩

theorem Holds.fix (held : ctx.Holds places value) : ctx.fix value = value := by
  obtain ⟨coefficient, fitting, rfl⟩ := held
  exact ctx.fix_scaled fitting places

theorem Holds.of_abs_le {small large : ℚ} (held : ctx.Holds places large)
    (scaled : AtScale places small) (bound : |small| ≤ |large|) : ctx.Holds places small := by
  obtain ⟨large, fitting, rfl⟩ := held
  obtain ⟨small, rfl⟩ := scaled
  refine ⟨small, ctx.fits_of_abs_le fitting ?_, rfl⟩
  have unit : (0 : ℚ) < 10 ^ places := by positivity
  rw [abs_div, abs_div, abs_of_pos unit, div_le_div_iff_of_pos_right unit] at bound
  exact_mod_cast bound

theorem Holds.neg (held : ctx.Holds places value) : ctx.Holds places (-value) :=
  held.of_abs_le held.atScale.neg (abs_neg value).le

theorem holds_zero (ctx : Context) (places : ℕ) : ctx.Holds places 0 :=
  ⟨0, ctx.fits_zero, by simp⟩

/-- Quantizing succeeds exactly with a held value that is the nearest one of its scale. -/
theorem quantize_eq_some :
    ctx.quantize rounding places value = some result ↔ ctx.fits (rounding.round (value * 10 ^ places)) ∧
        result = rounding.round (value * 10 ^ places) / 10 ^ places := by
  unfold quantize
  dsimp only
  split_ifs with fitting
  · simp [fitting, eq_comm]
  · simp [fitting]

theorem quantize_holds (done : ctx.quantize rounding places value = some result) : ctx.Holds places result := by
  obtain ⟨fitting, rfl⟩ := quantize_eq_some.mp done
  exact ⟨_, fitting, rfl⟩

/-- A held value is its own quantization under every rule. -/
theorem Holds.quantize (held : ctx.Holds places value) (rounding : Rounding) :
    ctx.quantize rounding places value = some value := by
  obtain ⟨coefficient, fitting, rfl⟩ := held
  have whole : (coefficient : ℚ) / 10 ^ places * 10 ^ places = coefficient := by
    field_simp
  rw [quantize_eq_some, whole, rounding.integer]
  exact ⟨fitting, rfl⟩

theorem quantize_self : ctx.quantize rounding places value = some value ↔ ctx.Holds places value :=
  ⟨quantize_holds, fun held => held.quantize rounding⟩

end Context

instance (context : Context) (places : ℕ) (value : ℚ) : Decidable (context.Holds places value) :=
  decidable_of_iff (context.quantize halfEven places value = some value) Context.quantize_self

@[simp] theorem Context.sumFrom_nil (ctx : Context) (start : ℚ) :
    ctx.sumFrom start [] = start := rfl

@[simp] theorem Context.sumFrom_cons (ctx : Context) (start value : ℚ) (values : List ℚ) :
    ctx.sumFrom start (value :: values) = ctx.sumFrom (ctx.add start value) values := rfl

theorem Context.sumFrom_unlimited (start : ℚ) (values : List ℚ) :
    Context.unlimited.sumFrom start values = start + values.sum := by
  induction values generalizing start with
  | nil => simp
  | cons value values ih =>
    rw [sumFrom_cons, ih, add, fix_unlimited, List.sum_cons]
    ring

/-- Every partial sum from the start is free of rounding. -/
def Context.SumsExactly (context : Context) : ℚ → List ℚ → Prop
  | _, [] => True
  | start, value :: values =>
    context.fix (start + value) = start + value ∧ context.SumsExactly (start + value) values

instance Context.decidableSumsExactly (context : Context) :
    (start : ℚ) → (values : List ℚ) → Decidable (context.SumsExactly start values)
  | _, [] => isTrue trivial
  | start, value :: values =>
    have := context.decidableSumsExactly (start + value) values
    inferInstanceAs (Decidable (_ ∧ _))

theorem Context.SumsExactly.sumFrom_eq (exactly : ctx.SumsExactly start values) :
    ctx.sumFrom start values = start + values.sum := by
  induction values generalizing start with
  | nil => simp
  | cons value values ih =>
    rw [sumFrom_cons, add, exactly.1, ih exactly.2, List.sum_cons]
    ring

theorem Context.start_le_sumFrom (ctx : Context) (kept : ctx.fix start = start)
    (nonneg : ∀ value ∈ values, 0 ≤ value) : start ≤ ctx.sumFrom start values := by
  induction values generalizing start with
  | nil => exact le_rfl
  | cons value values ih =>
    have grown : start ≤ ctx.add start value := by
      have larger := ctx.fix_monotone (le_add_of_nonneg_right (a := start) (nonneg value (by simp)))
      rwa [kept] at larger
    exact grown.trans (ih (ctx.fix_fix _) fun later member => nonneg later (by simp [member]))

theorem Context.fix_limit (limited : ctx.precision = some digits) (places : ℕ) :
    ctx.fix (10 ^ digits / 10 ^ places) = 10 ^ digits / 10 ^ places := by
  unfold fix
  rw [limited]
  apply roundDigits_of_representable (ctx.positive digits limited)
  refine ⟨10 ^ digits, -(places : ℤ), by simp, ?_⟩
  rw [zpow_neg]
  push_cast
  rfl

/-- A sum that stays below the limit of a scale drifts by at most half a unit for each addition. -/
theorem Context.sumFrom_error (ctx : Context) (places : ℕ) (kept : ctx.fix start = start)
    (startNonneg : 0 ≤ start) (nonneg : ∀ value ∈ values, 0 ≤ value)
    (inside : ∀ digits, ctx.precision = some digits → ctx.sumFrom start values < 10 ^ digits / 10 ^ places) :
    |ctx.sumFrom start values - (start + values.sum)| ≤ values.length * (1 / 2 / 10 ^ places) := by
  induction values generalizing start with
  | nil => simp
  | cons value values ih =>
    have restNonneg : ∀ later ∈ values, 0 ≤ later := fun later member => nonneg later (by simp [member])
    have headNonneg := add_nonneg startNonneg (nonneg value (by simp))
    have tail := ih (ctx.fix_fix (start + value)) (ctx.fix_nonneg headNonneg) restNonneg inside
    have grown := ctx.start_le_sumFrom (ctx.fix_fix (start + value)) restNonneg
    have head := ctx.fix_error places (start + value) (by
      intro digits limited
      rw [abs_of_nonneg headNonneg]
      by_contra outside
      have reached := ctx.fix_monotone (not_lt.mp outside)
      rw [ctx.fix_limit limited] at reached
      exact absurd (reached.trans grown) (not_le.mpr (inside digits limited)))
    rw [sumFrom_cons, List.sum_cons, List.length_cons, add]
    push_cast
    rw [abs_le] at *
    constructor <;> linarith [tail.1, tail.2, head.1, head.2]

end FinanceCore.Decimal

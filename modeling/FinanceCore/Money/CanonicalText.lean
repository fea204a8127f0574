import FinanceCore.Money

namespace FinanceCore.Money

open Decimal Text List

/-- The longest plain text of a canonical decimal. -/
def maxCanonicalDecimalChars : ℤ := 1048576

def isZeroDigit (char : Char) : Bool := char = '0'

/-- The digits of a coefficient without its trailing zeros. -/
def significantDigits (coefficient : ℕ) : List Char := (natDigits coefficient).rdropWhile isZeroDigit

def trailingZeros (coefficient : ℕ) : ℕ := ((natDigits coefficient).rtakeWhile isZeroDigit).length

/-- The length that the plain text is going to have. -/
def outputLength (sign digits : ℕ) (exponent : ℤ) : ℤ :=
  if 0 ≤ exponent then sign + digits + exponent
  else if (digits : ℤ) ≤ -exponent then sign + 2 - exponent
  else sign + digits + 1

/-- The digits with their zeros or with their decimal point. -/
def plainBody (digits : List Char) (exponent : ℤ) : List Char :=
  if 0 ≤ exponent then digits ++ List.replicate exponent.toNat '0'
  else
    let places := (-exponent).toNat
    if digits.length ≤ places then '0' :: '.' :: (List.replicate (places - digits.length) '0' ++ digits)
    else digits.take (digits.length - places) ++ '.' :: digits.drop (digits.length - places)

/-- The canonical text of a decimal has no exponent, no trailing zero and no negative zero; a text over the
limit is refused before it is built. -/
def canonicalDecimalStr (amount : Number) : Option String :=
  if amount.coefficient = 0 then some "0"
  else
    let digits := significantDigits amount.coefficient
    let exponent := amount.exponent + trailingZeros amount.coefficient
    let sign := if amount.negative then 1 else 0
    if maxCanonicalDecimalChars < outputLength sign digits.length exponent then none
    else some (String.ofList ((if amount.negative then ['-'] else []) ++ plainBody digits exponent))

/-- The canonical text before the limit is applied. -/
def plainText (amount : Number) : List Char :=
  if amount.coefficient = 0 then ['0']
  else
    (if amount.negative then ['-'] else []) ++ plainBody (significantDigits amount.coefficient)
      (amount.exponent + trailingZeros amount.coefficient)

/-- The shape `-?(0|[1-9][0-9]*)(\.[0-9]*[1-9])?` of a text without idle zeros. -/
def CanonicalShape (text : String) : Prop :=
  ∃ negative whole fraction, text = String.ofList (plainChars negative whole fraction) ∧
    AsciiDigits whole ∧ whole ≠ [] ∧ (whole = ['0'] ∨ whole.head? ≠ some '0') ∧
    AsciiDigits fraction ∧ fraction.getLast? ≠ some '0'

theorem significantDigits_append (coefficient : ℕ) :
    significantDigits coefficient ++ replicate (trailingZeros coefficient) '0' = natDigits coefficient := by
  have zeros : (natDigits coefficient).rtakeWhile isZeroDigit = replicate (trailingZeros coefficient) '0' := by
    refine eq_replicate_of_mem fun char member => ?_
    simpa [isZeroDigit] using mem_rtakeWhile_imp member
  rw [← zeros]
  exact rdropWhile_append_rtakeWhile

theorem digitsValue_significantDigits (coefficient : ℕ) :
    digitsValue (significantDigits coefficient) * 10 ^ trailingZeros coefficient = coefficient := by
  have whole := congrArg digitsValue (significantDigits_append coefficient)
  rw [digitsValue_append, digitsValue_zeros, length_replicate, digitsValue_natDigits] at whole
  exact whole

theorem asciiDigits_significantDigits (coefficient : ℕ) : AsciiDigits (significantDigits coefficient) := by
  intro char member
  exact asciiDigits_fixedDigits _ _ char (( rdropWhile_prefix isZeroDigit (natDigits coefficient)).subset member)

variable {coefficient : ℕ}

theorem significantDigits_ne_nil (nonzero : coefficient ≠ 0) : significantDigits coefficient ≠ [] := by
  intro empty
  have value := digitsValue_significantDigits coefficient
  rw [empty] at value
  exact nonzero (by rw [← value]; simp [digitsValue])

/-- The body is the plain text of a whole part and a fraction with the same value. -/
theorem plainBody_eq {digits : List Char} (ascii : AsciiDigits digits) (nonempty : digits ≠ [])
    (exponent : ℤ) :
    ∃ whole fraction, AsciiDigits whole ∧ whole ≠ [] ∧ AsciiDigits fraction ∧
      plainBody digits exponent = plainChars false whole fraction ∧
      (digitsValue (whole ++ fraction) : ℚ) * 10 ^ (-(fraction.length : ℤ)) = digitsValue digits * 10 ^ exponent ∧
      (whole = ['0'] ∨ whole.head? = digits.head?) ∧ (fraction = [] ∨ fraction.getLast? = digits.getLast?) := by
  unfold plainBody
  by_cases large : 0 ≤ exponent
  · refine ⟨digits ++ replicate exponent.toNat '0', [], asciiDigits_append ascii (asciiDigits_zeros _), ?_, ?_,
      ?_, ?_, ?_⟩
    · simp [nonempty]
    · intro char member
      cases member
    · rw [if_pos large]
      simp [plainChars]
    · have power : (10 : ℚ) ^ exponent = 10 ^ exponent.toNat := by
        rw [← zpow_natCast, Int.toNat_of_nonneg large]
      rw [append_nil, digitsValue_append, digitsValue_zeros, power]
      simp
    · exact ⟨.inr (head?_append_of_ne_nil _ nonempty), .inl rfl⟩
  · obtain ⟨places, same⟩ : ∃ places : ℕ, exponent = -places := ⟨(-exponent).toNat, by omega⟩
    subst same
    simp only [neg_neg, Int.toNat_natCast]
    split_ifs with short
    · refine ⟨['0'], replicate (places - digits.length) '0' ++ digits, asciiDigits_zeros 1, by simp,
        asciiDigits_append (asciiDigits_zeros _) ascii, ?_, ?_, ?_⟩
      · simp [plainChars, nonempty]
      · rw [digitsValue_append, digitsValue_append, digitsValue_zeros]
        have length : (replicate (places - digits.length) '0' ++ digits).length = places := by
          simp [short]
        have zero : digitsValue ['0'] = 0 := rfl
        rw [length, zero]
        simp
      · exact ⟨.inl rfl, .inr (getLast?_append_of_ne_nil _ nonempty)⟩
    · refine ⟨digits.take (digits.length - places), digits.drop (digits.length - places),
        fun char member => ascii char (mem_of_mem_take member), ?_,
        fun char member => ascii char (mem_of_mem_drop member), ?_, ?_, ?_⟩
      · intro empty
        have length := congrArg length empty
        simp at length
        omega
      · have someFraction : digits.drop (digits.length - places) ≠ [] := by
          intro empty
          have length := congrArg length empty
          simp at length
          omega
        simp [plainChars, someFraction]
      · rw [take_append_drop, length_drop]
        congr 3
        omega
      · refine ⟨.inr ?_, .inr ?_⟩
        · rw [head?_take, if_neg (by omega)]
        · rw [getLast?_drop, if_neg (by omega)]

/-- The length is known before the text is built. -/
theorem length_plainBody (digits : List Char) (exponent : ℤ) :
    ((plainBody digits exponent).length : ℤ) = outputLength 0 digits.length exponent := by
  unfold plainBody outputLength
  dsimp only
  split_ifs <;> simp <;> omega

theorem digitValue_lt {char : Char} {digit : ℕ} (found : digitValue char = some digit) : digit < 10 := by
  obtain ⟨start, inside, rfl⟩ := Option.map_eq_some_iff.mp found
  have range := find?_some inside
  simp at range
  omega

theorem digitsValue_lt (chars : List Char) : digitsValue chars < 10 ^ chars.length := by
  induction chars using reverseRecOn with
  | nil => simp [digitsValue]
  | append_singleton rest char ih =>
    have last : digitsValue [char] < 10 := by
      cases found : digitValue char with
      | none => simp [digitsValue, found]
      | some digit => simpa [digitsValue, found] using digitValue_lt found
    rw [digitsValue_append, length_append, length_singleton]
    omega

theorem digitCount_digitsValue_le {chars : List Char} (nonempty : chars ≠ []) :
    digitCount (digitsValue chars) ≤ chars.length := by
  have length : chars.length ≠ 0 := fun empty => nonempty (length_eq_zero_iff.mp empty)
  exact Nat.log_lt_of_lt_pow' length (digitsValue_lt chars)

theorem outputLength_sign (sign digits : ℕ) (exponent : ℤ) :
    outputLength sign digits exponent = sign + outputLength 0 digits exponent := by
  unfold outputLength
  split_ifs <;> omega

theorem length_plainText {amount : Number} (nonzero : amount.coefficient ≠ 0) :
    ((plainText amount).length : ℤ) =
      outputLength (if amount.negative then 1 else 0) (significantDigits amount.coefficient).length
        (amount.exponent + trailingZeros amount.coefficient) := by
  rw [plainText, if_neg nonzero, outputLength_sign, ← length_plainBody]
  cases amount.negative <;> simp [add_comm]

/-- The limit is applied to the length of the text itself. -/
theorem canonicalDecimalStr_eq (amount : Number) :
    canonicalDecimalStr amount =
      if maxCanonicalDecimalChars < (plainText amount).length then none
      else some (String.ofList (plainText amount)) := by
  unfold canonicalDecimalStr
  by_cases zero : amount.coefficient = 0
  · rw [if_pos zero, plainText, if_pos zero]
    rfl
  · rw [if_neg zero, length_plainText zero, plainText, if_neg zero]

/-- The significant digits neither start nor end with a zero. -/
theorem significantDigits_ends (nonzero : coefficient ≠ 0) :
    (significantDigits coefficient).head? ≠ some '0' ∧ (significantDigits coefficient).getLast? ≠ some '0' := by
  have filled := significantDigits_ne_nil nonzero
  constructor
  · intro zero
    obtain ⟨rest, same⟩ := head?_eq_some_iff.mp zero
    have whole := significantDigits_append coefficient
    obtain ⟨head, tail, digits, other⟩ := natDigits_head nonzero
    rw [same, digits] at whole
    exact other (cons.inj whole).1.symm
  · rw [getLast?_eq_some_getLast filled]
    intro zero
    exact rdropWhile_last_not isZeroDigit _ filled (decide_eq_true (Option.some.inj zero))

/-- The text is a plain numeral of the value without idle zeros. -/
theorem plainText_eq (amount : Number) :
    ∃ negative whole fraction, AsciiDigits whole ∧ whole ≠ [] ∧ AsciiDigits fraction ∧
      plainText amount = plainChars negative whole fraction ∧
      (Number.mk negative (digitsValue (whole ++ fraction)) (-fraction.length)).value = amount.value ∧
      (whole = ['0'] ∨ whole.head? ≠ some '0') ∧ fraction.getLast? ≠ some '0' := by
  by_cases zero : amount.coefficient = 0
  · refine ⟨false, ['0'], [], asciiDigits_zeros 1, by simp, asciiDigits_zeros 0, if_pos zero, ?_, .inl rfl,
      by simp⟩
    have digits : digitsValue ['0'] = 0 := digitsValue_zeros 1
    simp [Number.value, zero, digits]
  · obtain ⟨whole, fraction, wholeDigits, nonempty, fractionDigits, body, value, head, last⟩ :=
      plainBody_eq (asciiDigits_significantDigits amount.coefficient) (significantDigits_ne_nil zero)
        (amount.exponent + trailingZeros amount.coefficient)
    have ends := significantDigits_ends zero
    refine ⟨amount.negative, whole, fraction, wholeDigits, nonempty, fractionDigits, ?_, ?_, ?_, ?_⟩
    · rw [plainText, if_neg zero, body]
      simp [plainChars]
    · have coefficient : (digitsValue (significantDigits amount.coefficient) : ℚ) *
          10 ^ trailingZeros amount.coefficient = amount.coefficient := by
        exact_mod_cast digitsValue_significantDigits amount.coefficient
      rw [Number.value, Number.value, mul_assoc, value, ← coefficient, zpow_add₀ (by norm_num), zpow_natCast]
      ring
    · exact head.imp_right fun same => by rw [same]; exact ends.1
    · rcases last with empty | same
      · simp [empty]
      · rw [same]
        exact ends.2

variable {amount : Number} {text : String}

variable (written : canonicalDecimalStr amount = some text) {first second : Number}
include written

/-- A canonical text is a plain numeral inside the exponent range with the value it was written from. -/
theorem canonicalDecimalStr_plain :
    ∃ negative whole fraction, AsciiDigits whole ∧ whole ≠ [] ∧ AsciiDigits fraction ∧
      text = String.ofList (plainChars negative whole fraction) ∧
      (Number.mk negative (digitsValue (whole ++ fraction)) (-fraction.length)).inRange ∧
      (Number.mk negative (digitsValue (whole ++ fraction)) (-fraction.length)).value = amount.value := by
  obtain ⟨negative, whole, fraction, wholeDigits, nonempty, fractionDigits, same, value, _⟩ := plainText_eq amount
  rw [canonicalDecimalStr_eq, same] at written
  split_ifs at written with long
  obtain rfl := Option.some.inj written
  refine ⟨negative, whole, fraction, wholeDigits, nonempty, fractionDigits, rfl, ?_, value⟩
  have digits := digitCount_digitsValue_le (append_ne_nil_of_left_ne_nil nonempty fraction)
  have longer : whole.length + fraction.length ≤ (plainChars negative whole fraction).length := by
    by_cases empty : fraction = []
    · simp [plainChars, empty]
    · simp [plainChars, empty]
      omega
  rw [length_append] at digits
  rw [maxCanonicalDecimalChars] at long
  rw [Number.inRange, Bool.and_eq_true, decide_eq_true_iff, decide_eq_true_iff]
  dsimp only [Number.adjusted, maxAdjusted, minExponent]
  omega

/-- A canonical text reads back as the value it was written from. -/
theorem moneyDecimal_canonicalDecimalStr {label : L} :
    ∃ exact, moneyDecimal (.text text) label = .ok exact ∧ exact.value = amount.value := by
  obtain ⟨negative, whole, fraction, wholeDigits, nonempty, fractionDigits, rfl, inRange, value⟩ :=
    canonicalDecimalStr_plain written
  rw [moneyDecimal_plain wholeDigits nonempty fractionDigits, if_pos inRange]
  exact ⟨_, rfl, value⟩

theorem parseLiteral_canonicalDecimalStr :
    ∃ exact, parseLiteral text = some (.finite exact) ∧ exact.value = amount.value := by
  obtain ⟨negative, whole, fraction, wholeDigits, nonempty, fractionDigits, rfl, inRange, value⟩ :=
    canonicalDecimalStr_plain written
  rw [parseLiteral_plain wholeDigits nonempty fractionDigits, if_pos inRange]
  exact ⟨_, rfl, value⟩

omit written

/-- A canonical text determines the value of its decimal. -/
theorem value_eq_of_canonicalDecimalStr (one : canonicalDecimalStr first = some text)
    (two : canonicalDecimalStr second = some text) : first.value = second.value := by
  obtain ⟨exact, read, same⟩ := parseLiteral_canonicalDecimalStr one
  obtain ⟨exact', read', same'⟩ := parseLiteral_canonicalDecimalStr two
  obtain rfl := Literal.finite.inj (Option.some.inj (read.symm.trans read'))
  exact same.symm.trans same'

theorem natDigits_mul_ten {number : ℕ} (nonzero : number ≠ 0) :
    natDigits (number * 10) = natDigits number ++ ['0'] := by
  have digit : digitChar (number * 10) = '0' := by simp [digitChar]
  rw [natDigits, digitCount, Nat.log_mul_base (by norm_num) nonzero, fixedDigits, digit,
    Nat.mul_div_cancel _ (by norm_num)]
  rfl

/-- A power of ten only adds trailing zeros. -/
theorem significantDigits_mul (nonzero : coefficient ≠ 0) (count : ℕ) :
    significantDigits (coefficient * 10 ^ count) = significantDigits coefficient ∧
      trailingZeros (coefficient * 10 ^ count) = trailingZeros coefficient + count := by
  induction count with
  | zero => simp
  | succ count ih =>
    have shifted := natDigits_mul_ten (mul_ne_zero nonzero (pow_ne_zero count (by norm_num : (10 : ℕ) ≠ 0)))
    rw [pow_succ, ← mul_assoc]
    unfold significantDigits trailingZeros at *
    rw [shifted, rdropWhile_concat_pos _ _ _ (by rfl), rtakeWhile_concat_pos _ _ _ (by rfl), length_append]
    exact ⟨ih.1, by rw [ih.2]; rfl⟩

/-- The canonical text depends on the value alone. -/
theorem plainText_congr (same : first.value = second.value) : plainText first = plainText second := by
  wlog order : first.exponent ≤ second.exponent generalizing first second
  · exact (this same.symm (le_of_not_ge order)).symm
  have zeros : first.coefficient = 0 ↔ second.coefficient = 0 := by
    rw [← Number.value_eq_zero, same, Number.value_eq_zero]
  unfold plainText
  by_cases zero : second.coefficient = 0
  · rw [if_pos zero, if_pos (zeros.mpr zero)]
  have sign := Number.negative_of_value same (mt (zeros.mp ∘ Number.value_eq_zero.mp) zero)
  obtain ⟨count, shift⟩ := Int.le.dest order
  have coefficient : first.coefficient = second.coefficient * 10 ^ count := by
    have size := first.value_eq_abs.2
    rw [same, second.value_eq_abs.2, ← shift, zpow_add₀ (by norm_num), mul_left_comm, mul_comm,
      mul_left_inj' (zpow_ne_zero _ (by norm_num))] at size
    exact_mod_cast size.symm
  have digits := significantDigits_mul zero count
  rw [if_neg zero, if_neg (mt zeros.mp zero), sign, coefficient, digits.1, digits.2, ← shift]
  push_cast
  ring_nf

/-- The canonical text identifies the value, has one shape and is refused exactly for its own length. -/
theorem canonicalDecimalStr_canonical (first second : Number) :
    (∀ text other, canonicalDecimalStr first = some text → canonicalDecimalStr second = some other →
      (text = other ↔ first.value = second.value)) ∧
    (∀ text, canonicalDecimalStr first = some text →
      (∃ exact, parseLiteral text = some (.finite exact) ∧ exact.value = first.value) ∧
      CanonicalShape text ∧ text ≠ "-0" ∧ text = String.ofList (plainText first)) ∧
    (first.coefficient ≠ 0 → ((plainText first).length : ℤ) =
      outputLength (if first.negative then 1 else 0) (significantDigits first.coefficient).length
        (first.exponent + trailingZeros first.coefficient)) ∧
    (canonicalDecimalStr first = none ↔ maxCanonicalDecimalChars < (plainText first).length) := by
  refine ⟨fun text other one two => ⟨?_, ?_⟩, fun text written => ⟨parseLiteral_canonicalDecimalStr written, ?_⟩,
    length_plainText, ?_⟩
  · rintro rfl
    exact value_eq_of_canonicalDecimalStr one two
  · intro same
    rw [canonicalDecimalStr_eq, plainText_congr same, ← canonicalDecimalStr_eq] at one
    exact Option.some.inj (one.symm.trans two)
  · obtain ⟨negative, whole, fraction, wholeDigits, nonempty, fractionDigits, same, _, head, last⟩ :=
      plainText_eq first
    have built := written
    rw [canonicalDecimalStr_eq] at built
    split_ifs at built
    obtain rfl := Option.some.inj built
    refine ⟨⟨negative, whole, fraction, by rw [same], wholeDigits, nonempty, head, fractionDigits, last⟩, ?_, rfl⟩
    intro minus
    obtain ⟨exact, read, value⟩ := parseLiteral_canonicalDecimalStr written
    have zero : parseLiteral "-0" = some (.finite ⟨true, 0, 0⟩) := by decide
    rw [minus] at read
    obtain rfl := Literal.finite.inj (Option.some.inj read)
    rw [Number.value_eq_zero.mpr rfl, eq_comm, Number.value_eq_zero] at value
    simp [plainText, value] at minus
  · rw [canonicalDecimalStr_eq]
    split_ifs with long <;> simp [long]

/-- A value of a known scale as the decimal with exactly that many places. -/
def scaledNumber (places : ℕ) (value : ℚ) : Number :=
  ⟨decide (value < 0), (value * 10 ^ places).num.natAbs, -places⟩

theorem scaledNumber_value {places : ℕ} {value : ℚ} (scaled : AtScale places value) :
    (scaledNumber places value).value = value := by
  obtain ⟨coefficient, rfl⟩ := scaled
  have power : (0 : ℚ) < 10 ^ places := by positivity
  have whole : (coefficient / 10 ^ places * 10 ^ places : ℚ) = coefficient := div_mul_cancel₀ _ power.ne'
  have sign : decide ((coefficient : ℚ) / 10 ^ places < 0) = decide (coefficient < 0) := by
    rw [decide_eq_decide, div_lt_iff₀ power, zero_mul]
    exact Int.cast_lt_zero
  have integer := Number.value_ofInt coefficient
  unfold Number.ofInt Number.value at integer
  rw [zpow_zero, mul_one] at integer
  unfold scaledNumber Number.value
  rw [whole, sign, Rat.num_intCast, integer, zpow_neg, zpow_natCast, ← div_eq_mul_inv]

end FinanceCore.Money

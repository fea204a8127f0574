import FinanceCore.Foundation.SignedSums
import FinanceCore.Money

namespace FinanceCore.Money

open Decimal Exceptions Text List

variable {L : Type}

/-- An answer of the contract is typed exactly when the rounded amount has at most 28 digits: an amount at the scale of
the currency passes and any other one is refused for its scale. -/
theorem validateAmountForCurrency_typed_iff (amount : Number) (currency : Currency) (label : L) :
    ((AtScale (minorUnits currency) amount.value →
        validateAmountForCurrency .standard amount.value currency label = .ok ()) ∧
      (¬ AtScale (minorUnits currency) amount.value →
        validateAmountForCurrency .standard amount.value currency label =
          .error (.scale label amount.value currency))) ↔
      |roundHalfEven (amount.value * 10 ^ minorUnits currency)| < 10 ^ 28 := by
  constructor
  · rintro ⟨passes, refused⟩
    by_contra long
    have failed : validateAmountForCurrency .standard amount.value currency label = .error .invalidOperation := by
      have unfit : Context.standard.fits (halfEven.round (amount.value * 10 ^ minorUnits currency)) = false :=
        decide_eq_false long
      rw [validateAmountForCurrency, Context.quantize, unfit]
      rfl
    by_cases scaled : AtScale (minorUnits currency) amount.value
    · cases failed.symm.trans (passes scaled)
    · cases failed.symm.trans (refused scaled)
  · intro short
    have quantized := Context.quantize_eq_some.mpr ⟨show Context.standard.fits (halfEven.round _) = true from
      decide_eq_true short, rfl⟩
    refine ⟨fun scaled => ?_, fun unscaled => ?_⟩
    · exact validateAmountForCurrency_ok.mpr (Context.quantize_atScale scaled quantized).2
    · rw [validateAmountForCurrency, quantized, expect, ok_bind, require, if_neg]
      exact fun same => unscaled ⟨_, same⟩

/-- A whole amount of 29 digits in minor units is at the scale and fails inside the decimal library. -/
theorem validateAmountForCurrency_untyped :
    AtScale (minorUnits .sgd) (Number.mk false 1 26).value ∧
      validateAmountForCurrency .standard (Number.mk false 1 26).value .sgd () = .error .invalidOperation := by
  refine ⟨⟨10 ^ 28, ?_⟩, ?_⟩
  · norm_num [Number.value, minorUnits]
  · decide +kernel

section Text

variable {ctx : Context} {amount first second : Number} {currency : Currency} {text other : String}

variable (held : ctx.Holds (minorUnits currency) amount.value)
  (written : canonicalMoneyStr (L := L) ctx amount currency = .ok text)
include held written

/-- The text of held money is a fixed-point text of the same value. -/
theorem canonicalMoneyStr_held :
    ∃ coefficient : ℕ, ctx.fits coefficient ∧ text = fixedText amount.negative coefficient (minorUnits currency) ∧
      (Number.mk amount.negative coefficient (-minorUnits currency)).value = amount.value := by
  obtain ⟨quantized, rounded, written⟩ := bind_ok.mp written
  rw [quantizeForCurrency_eq_ok, held.quantize] at rounded
  obtain rfl := Option.some.inj rounded
  obtain rfl := pure_ok.mp written
  obtain ⟨coefficient, fitting, same⟩ := held
  have unit : (0 : ℚ) < 10 ^ minorUnits currency := by positivity
  have whole : amount.value * 10 ^ minorUnits currency = coefficient := by
    rw [same, div_mul_cancel₀ _ unit.ne']
  rw [whole, Rat.num_intCast]
  refine ⟨_, ctx.fits_of_abs_le fitting (by simp), rfl, ?_⟩
  rw [amount.value_eq_abs.1, Number.value, same, abs_div, abs_of_pos unit, zpow_neg, zpow_natCast, Nat.cast_natAbs,
    Int.cast_abs, mul_assoc, div_eq_mul_inv]

/-- The canonical text of held money reads back as the same amount. -/
theorem value_of_canonicalMoneyStr {label : L} {exact : Number}
    (read : moneyDecimal (.text text) label = .ok exact) : exact.value = amount.value ∧ text ≠ "" := by
  obtain ⟨coefficient, -, rfl, same⟩ := canonicalMoneyStr_held held written
  obtain rfl := number_of_moneyDecimal_fixedText read
  exact ⟨same, fixedText_ne_empty _ _ _⟩

omit held written

/-- A fixed-point text of money with at most 28 digits is inside the exponent range. -/
theorem moneyDecimal_written (negative : Bool) {coefficient : ℕ}
    (fitting : Context.standard.fits coefficient) (currency : Currency) (label : L) :
    moneyDecimal (.text (fixedText negative coefficient (minorUnits currency))) label =
      .ok ⟨negative, coefficient, -minorUnits currency⟩ := by
  rw [moneyDecimal_fixedText, if_pos]
  have short : coefficient < 10 ^ 28 := by exact_mod_cast of_decide_eq_true fitting
  have digits : digitCount coefficient ≤ 28 := by
    rcases Nat.eq_zero_or_pos coefficient with rfl | positive
    · decide
    · exact Nat.log_lt_of_lt_pow positive.ne' short
  have places : minorUnits currency ≤ 2 := by cases currency <;> decide
  rw [Number.inRange, Bool.and_eq_true, decide_eq_true_eq, decide_eq_true_eq]
  unfold Number.adjusted maxAdjusted minExponent
  dsimp only
  omega

/-- Canonical texts of scaled amounts are equal exactly for equal amounts, up to the sign of zero, and a text reads back
as its amount. -/
theorem canonicalMoneyStr_identifies (scaled : AtScale (minorUnits currency) first.value)
    (scaledToo : AtScale (minorUnits currency) second.value)
    (written : canonicalMoneyStr (L := L) .standard first currency = .ok text)
    (writtenToo : canonicalMoneyStr (L := L) .standard second currency = .ok other) (label : L) :
    (text = other ↔ first.value = second.value ∧ (first.value = 0 → first.negative = second.negative)) ∧
      ∃ exact, moneyDecimal (.text text) label = .ok exact ∧ exact.value = first.value ∧
        validateAmountForCurrency .standard exact.value currency label = .ok () := by
  have held {amount : Number} {text : String} (scaled : AtScale (minorUnits currency) amount.value)
      (written : canonicalMoneyStr (L := L) .standard amount currency = .ok text) :
      Context.standard.Holds (minorUnits currency) amount.value := by
    obtain ⟨quantized, rounded, -⟩ := bind_ok.mp written
    exact (Context.quantize_atScale scaled (quantizeForCurrency_eq_ok.mp rounded)).2
  obtain ⟨coefficient, fitting, rfl, same⟩ := canonicalMoneyStr_held (held scaled written) written
  obtain ⟨coefficientToo, fittingToo, rfl, sameToo⟩ := canonicalMoneyStr_held (held scaledToo writtenToo) writtenToo
  have read := moneyDecimal_written first.negative fitting currency label
  refine ⟨⟨fun equal => ?_, fun ⟨equal, zero⟩ => ?_⟩, _, read, same, ?_⟩
  · have again := read
    rw [equal, moneyDecimal_written _ fittingToo, Except.ok.injEq] at again
    refine ⟨by rw [← same, ← sameToo, again], fun _ => (congrArg Number.negative again).symm⟩
  · have sign : first.negative = second.negative := by
      by_cases nonzero : first.value = 0
      · exact zero nonzero
      · exact Number.negative_of_value equal nonzero
    have size := congrArg abs (same.trans (equal.trans sameToo.symm))
    rw [(Number.value_eq_abs _).2, (Number.value_eq_abs _).2, mul_left_inj' (by positivity)] at size
    rw [sign, show coefficient = coefficientToo from Nat.cast_injective size]
  · rw [same]
    exact validateAmountForCurrency_ok.mpr (held scaled written)

theorem canonicalMoneyStr_identifies_dollars :
    ("12.50" = "12.50" ↔ (Number.mk false 1250 (-2)).value = (Number.mk false 125 (-1)).value ∧
        ((Number.mk false 1250 (-2)).value = 0 → false = false)) ∧
      ∃ exact, moneyDecimal (.text "12.50") () = .ok exact ∧ exact.value = (Number.mk false 1250 (-2)).value ∧
        validateAmountForCurrency .standard exact.value .sgd () = .ok () :=
  canonicalMoneyStr_identifies ⟨1250, by decide +kernel⟩ ⟨1250, by decide +kernel⟩ (by decide +kernel)
    (by decide +kernel) ()

/-- The two zeros have two texts. -/
theorem canonicalMoneyStr_two_zeros :
    (Number.mk true 0 0).value = (Number.mk false 0 0).value ∧
      canonicalMoneyStr (L := Unit) .standard ⟨true, 0, 0⟩ .sgd = .ok "-0.00" ∧
      canonicalMoneyStr (L := Unit) .standard ⟨false, 0, 0⟩ .sgd = .ok "0.00" := by
  decide +kernel

end Text

/-- The characters that the decimal library reads of a text that the contract has stripped. -/
def numeralOf (text : String) : Option (List Char) := asciiNumeral (stripChars (stripChars text.toList))

/-- A sign, digits and at most one point. -/
def PlainNumeral (chars : List Char) : Prop :=
  ∃ sign whole fraction : List Char, sign ∈ [[], ['+'], ['-']] ∧ whole.all isDigit ∧ fraction.all isDigit ∧
    (chars = sign ++ whole ∨ chars = sign ++ whole ++ '.' :: fraction)

theorem PlainNumeral.no_exponent {chars : List Char} (plain : PlainNumeral chars) : 'e' ∉ chars ∧ 'E' ∉ chars := by
  obtain ⟨sign, whole, fraction, signed, wholeDigits, fractionDigits, shape⟩ := plain
  have letter {digits : List Char} (all : digits.all isDigit) : 'e' ∉ digits ∧ 'E' ∉ digits := by
    rw [all_eq_true] at all
    exact ⟨fun member => absurd (all _ member) (by decide), fun member => absurd (all _ member) (by decide)⟩
  have front : 'e' ∉ sign ∧ 'E' ∉ sign := by
    revert signed
    simp only [mem_cons, not_mem_nil, or_false]
    rintro (rfl | rfl | rfl) <;> decide
  rcases shape with rfl | rfl <;> simp [front, letter wholeDigits, letter fractionDigits]

/-- An unsigned numeral is plain up to its exponent part. -/
theorem parseUnsigned_split {negative : Bool} {chars : List Char} {number : Number}
    (read : parseUnsigned negative chars = some number) :
    ∃ whole fraction tail : List Char, whole.all isDigit ∧ fraction.all isDigit ∧
      (tail = [] ∨ 'e' ∈ tail ∨ 'E' ∈ tail) ∧ (chars = whole ++ tail ∨ chars = whole ++ '.' :: (fraction ++ tail)) := by
  have exponent {tail : List Char} {value : ℤ} (parsed : parseExponent tail = some value) :
      tail = [] ∨ 'e' ∈ tail ∨ 'E' ∈ tail := by
    cases tail with
    | nil => exact .inl rfl
    | cons marker rest =>
      rw [parseExponent] at parsed
      split_ifs at parsed with letter
      · rcases letter with rfl | rfl <;> simp
  simp only [parseUnsigned] at read
  split_ifs at read
  obtain ⟨value, parsed, -⟩ := Option.map_eq_some_iff.mp read
  rw [span_eq_takeWhile_dropWhile] at parsed
  have whole := (takeWhile_append_dropWhile (p := isDigit) (l := chars)).symm
  unfold takeFraction at parsed
  split at parsed
  · rename_i behind point
    rw [span_eq_takeWhile_dropWhile] at parsed
    refine ⟨chars.takeWhile isDigit, behind.takeWhile isDigit, _, all_takeWhile, all_takeWhile, exponent parsed, .inr ?_⟩
    rw [takeWhile_append_dropWhile, ← point]
    exact whole
  · exact ⟨_, [], _, all_takeWhile, rfl, exponent parsed, .inl whole⟩

/-- The characters of a finite reading are plain exactly when no exponent letter stands among them. -/
theorem numeralOf_finite {text : String} {number : Number}
    (read : parseLiteral (strip text) = some (.finite number)) :
    ∃ chars, numeralOf text = some chars ∧ (PlainNumeral chars ↔ 'e' ∉ chars ∧ 'E' ∉ chars) := by
  have signed (chars : List Char) : ∃ sign ∈ [[], ['+'], ['-']], chars = sign ++ (takeSign chars).2 := by
    unfold takeSign
    split <;> simp
  have finite {negative : Bool} {chars : List Char} : parseSpecial negative chars ≠ some (.finite number) := by
    simp only [parseSpecial]
    split_ifs <;> simp
  rw [parseLiteral, strip, String.toList_ofList] at read
  split at read
  · cases read
  · rename_i chars same
    refine ⟨chars, same, PlainNumeral.no_exponent, ?_⟩
    rintro ⟨lower, upper⟩
    obtain ⟨sign, listed, front⟩ := signed chars
    dsimp only at read
    split at read
    · rename_i special found
      exact absurd (found.trans read) finite
    · split at read
      · rename_i parsed
        obtain ⟨whole, fraction, tail, wholeDigits, fractionDigits, ends, shape⟩ := parseUnsigned_split parsed
        have plain : tail = [] := by
          rw [front] at lower upper
          rcases shape with shape | shape <;> rw [shape] at lower upper <;> simp at lower upper <;> tauto
        subst plain
        rw [append_nil, append_nil] at shape
        refine ⟨sign, whole, fraction, listed, wholeDigits, fractionDigits, ?_⟩
        rw [append_assoc]
        rcases shape with shape | shape
        · exact .inl (shape ▸ front)
        · exact .inr (shape ▸ front)
      · cases read

/-- Stripping loses blanks only. -/
theorem mem_stripChars {chars : List Char} {char : Char} (visible : isSpace char = false) :
    char ∈ stripChars chars ↔ char ∈ chars := by
  have front (chars : List Char) : char ∈ chars.dropWhile isSpace ↔ char ∈ chars := by
    conv_rhs => rw [← takeWhile_append_dropWhile (p := isSpace) (l := chars), mem_append]
    refine ⟨.inr, fun found => found.resolve_left fun blank => ?_⟩
    rw [mem_takeWhile_imp blank] at visible
    cases visible
  rw [stripChars, rdropWhile, mem_reverse, front, mem_reverse, front]

/-- The numeral of a text has the exponent letters of the text. -/
theorem mem_asciiNumeral {chars numeral : List Char} {marker : Char} (letter : marker ∈ ['e', 'E'])
    (read : asciiNumeral chars = some numeral) : marker ∈ numeral ↔ marker ∈ chars := by
  induction chars generalizing numeral with
  | nil => rw [← Option.some.inj read]
  | cons char rest ih =>
    have other {char : Char} (outside : char = '_' ∨ ¬ (0 < char.toNat ∧ char.toNat ≤ 127)) : marker ≠ char := by
      rintro rfl
      simp only [mem_cons, not_mem_nil, or_false] at letter
      rcases letter with rfl | rfl <;> revert outside <;> decide
    rw [asciiNumeral] at read
    split_ifs at read with underscore ascii blank
    · rw [ih read, mem_cons, or_iff_right (other (.inl underscore))]
    · obtain ⟨tail, found, rfl⟩ := Option.map_eq_some_iff.mp read
      rw [mem_cons, mem_cons, ih found]
    · obtain ⟨tail, found, rfl⟩ := Option.map_eq_some_iff.mp read
      have space : marker ≠ ' ' := by
        rintro rfl
        revert letter
        decide
      rw [mem_cons, mem_cons, ih found, or_iff_right space, or_iff_right (other (.inr ascii))]
    · split at read
      · obtain ⟨tail, found, rfl⟩ := Option.map_eq_some_iff.mp read
        rename_i digit _
        have numeric : marker ≠ digitChar digit := by
          have apart := digitChar_induction (P := fun char => char ≠ 'e' ∧ char ≠ 'E') (by decide) digit
          rintro rfl
          simp only [mem_cons, not_mem_nil, or_false] at letter
          exact letter.elim apart.1 apart.2
        rw [mem_cons, mem_cons, ih found, or_iff_right numeric, or_iff_right (other (.inr ascii))]
      · cases read

/-- The contract keeps exponents out of a text that the library reads as a number exactly when the text has no exponent
letter or a framed one. -/
theorem moneyDecimal_plain_iff (text : String) (label : L) :
    ((∃ number, moneyDecimal (.text text) label = .ok number) →
        ∃ chars, numeralOf text = some chars ∧ PlainNumeral chars) ↔
      ∀ number, parseLiteral (strip text) = some (.finite number) →
        ('e' ∉ text.toList ∧ 'E' ∉ text.toList) ∨ FramedExponent (stripChars text.toList) := by
  have letters {chars : List Char} (numeral : numeralOf text = some chars) :
      ('e' ∉ chars ∧ 'E' ∉ chars) ↔ 'e' ∉ text.toList ∧ 'E' ∉ text.toList := by
    rw [mem_asciiNumeral (by simp) numeral, mem_asciiNumeral (by simp) numeral, mem_stripChars (by decide),
      mem_stripChars (by decide), mem_stripChars (by decide), mem_stripChars (by decide)]
  simp only [moneyDecimal_ok, RawMoney.literal?, Option.ite_none_left_eq_some, looksLikeScientific_iff]
  constructor
  · intro plain number read
    by_cases framed : FramedExponent (stripChars text.toList)
    · exact .inr framed
    · obtain ⟨chars, numeral, shape⟩ := plain ⟨number, framed, read⟩
      exact .inl ((letters numeral).mp shape.no_exponent)
  · rintro guarded ⟨number, missed, read⟩
    obtain ⟨chars, numeral, shape⟩ := numeralOf_finite read
    have bare := (guarded number read).resolve_right missed
    exact ⟨chars, numeral, shape.mpr ((letters numeral).mpr bare)⟩

/-- An exponent behind a point passes the guard. -/
theorem moneyDecimal_exponent :
    moneyDecimal (.text "1.e5") () = .ok ⟨false, 1, 5⟩ ∧ numeralOf "1.e5" = some ['1', '.', 'e', '5'] ∧
      ¬ PlainNumeral ['1', '.', 'e', '5'] :=
  ⟨by decide, by decide, fun plain => absurd plain.no_exponent (by decide)⟩

end FinanceCore.Money

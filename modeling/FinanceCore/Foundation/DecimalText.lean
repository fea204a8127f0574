import FinanceCore.Foundation.Text

namespace FinanceCore.Decimal

open Text List

/-- A finite decimal is a signed coefficient with a power of ten. -/
structure Number where
  negative : Bool
  coefficient : ℕ
  exponent : ℤ
deriving DecidableEq

def Number.value (number : Number) : ℚ :=
  (if number.negative then -1 else 1) * number.coefficient * 10 ^ number.exponent

def Number.ofInt (value : ℤ) : Number := ⟨decide (value < 0), value.natAbs, 0⟩

theorem Number.value_ofInt (value : ℤ) : (Number.ofInt value).value = value := by
  have size : ((value.natAbs : ℤ) : ℚ) = |(value : ℚ)| := by rw [Int.natCast_natAbs, Int.cast_abs]
  unfold Number.ofInt Number.value
  rw [← Int.cast_natCast, size]
  by_cases sign : value < 0
  · rw [decide_eq_true sign, if_pos rfl, abs_of_neg (by exact_mod_cast sign)]
    ring
  · rw [decide_eq_false sign, abs_of_nonneg (by exact_mod_cast not_lt.mp sign)]
    simp

theorem Number.value_eq_abs (number : Number) :
    number.value = (if number.negative then -1 else 1) * |number.value| ∧
      |number.value| = number.coefficient * 10 ^ number.exponent := by
  have size : (0 : ℚ) ≤ number.coefficient * 10 ^ number.exponent := by positivity
  have absolute : |number.value| = number.coefficient * 10 ^ number.exponent := by
    unfold Number.value
    split_ifs
    · rw [mul_assoc, neg_one_mul, abs_neg, abs_of_nonneg size]
    · rw [one_mul, abs_of_nonneg size]
  exact ⟨by rw [absolute, Number.value, mul_assoc], absolute⟩

theorem Number.value_eq_zero {number : Number} : number.value = 0 ↔ number.coefficient = 0 := by
  rw [← abs_eq_zero, number.value_eq_abs.2]
  simp [zpow_ne_zero]

/-- The sign of a value other than zero is the sign of its number. -/
theorem Number.negative_of_value {first second : Number} (same : first.value = second.value)
    (nonzero : first.value ≠ 0) : first.negative = second.negative := by
  have one := first.value_eq_abs.1
  have two := second.value_eq_abs.1
  have size := abs_pos.mpr nonzero
  rw [← same] at two
  cases left : first.negative <;> cases right : second.negative
  · rfl
  · simp [left, right] at one two
    linarith
  · simp [left, right] at one two
    linarith
  · rfl

/-- A decimal value is a finite number or a special value. -/
inductive Literal where
  | finite (number : Number)
  | infinite (negative : Bool)
  | nan (negative signaling : Bool)
deriving DecidableEq

/-- The largest adjusted exponent of an exact decimal. -/
def maxAdjusted : ℤ := 999999999999999999

/-- The smallest exponent of an exact decimal. -/
def minExponent : ℤ := -1999999999999999997

def Number.adjusted (number : Number) : ℤ := number.exponent + digitCount number.coefficient - 1

/-- Conversion from text refuses a number outside the exponent range. -/
def Number.inRange (number : Number) : Bool :=
  decide (number.adjusted ≤ maxAdjusted) && decide (minExponent ≤ number.exponent)

/-- Digits of any script become ASCII digits and underscores vanish. -/
def asciiNumeral : List Char → Option (List Char)
  | [] => some []
  | char :: rest =>
    if char = '_' then asciiNumeral rest
    else if 0 < char.toNat ∧ char.toNat ≤ 127 then (asciiNumeral rest).map (char :: ·)
    else if isSpace char then (asciiNumeral rest).map (' ' :: ·)
    else
      match digitValue char with
      | some digit => (asciiNumeral rest).map (digitChar digit :: ·)
      | none => none

def takeSign : List Char → Bool × List Char
  | '-' :: rest => (true, rest)
  | '+' :: rest => (false, rest)
  | chars => (false, chars)

/-- The exponent part is empty or a letter, an optional sign and digits. -/
def parseExponent : List Char → Option ℤ
  | [] => some 0
  | marker :: rest =>
    if marker = 'e' ∨ marker = 'E' then
      let signed := takeSign rest
      if signed.2 ≠ [] ∧ signed.2.all isDigit then
        some (if signed.1 then -(digitsValue signed.2 : ℤ) else digitsValue signed.2)
      else none
    else none

/-- The fraction follows a single point. -/
def takeFraction : List Char → List Char × List Char
  | '.' :: rest => rest.span isDigit
  | chars => ([], chars)

section

variable (negative : Bool)

/-- An unsigned numeral is digits with an optional fraction and exponent. -/
def parseUnsigned (chars : List Char) : Option Number :=
  let whole := chars.span isDigit
  let fraction := takeFraction whole.2
  if whole.1 ++ fraction.1 = [] then none
  else
    (parseExponent fraction.2).map fun exponent =>
      ⟨negative, digitsValue (whole.1 ++ fraction.1), exponent - fraction.1.length⟩

/-- Special values are words in any letter case. -/
def parseSpecial (chars : List Char) : Option Literal :=
  let word := chars.map Char.toLower
  if word = "inf".toList ∨ word = "infinity".toList then some (.infinite negative)
  else if word.take 3 = "nan".toList ∧ (word.drop 3).all isDigit then some (.nan negative false)
  else if word.take 4 = "snan".toList ∧ (word.drop 4).all isDigit then some (.nan negative true)
  else none

/-- A decimal text is a sign with a special word or a number inside the exponent range. -/
def parseLiteral (text : String) : Option Literal :=
  match asciiNumeral (stripChars text.toList) with
  | none => none
  | some chars =>
    let signed := takeSign chars
    match parseSpecial signed.1 signed.2 with
    | some special => some special
    | none =>
      match parseUnsigned signed.1 signed.2 with
      | some number => if number.inRange then some (.finite number) else none
      | none => none

/-- A plain numeral writes its sign, its whole digits and its fraction after a point. -/
def plainChars (whole fraction : List Char) : List Char :=
  (if negative then ['-'] else []) ++ whole ++ if fraction = [] then [] else '.' :: fraction

/-- The fixed-point text of a coefficient keeps every decimal place. -/
def fixedText (coefficient places : ℕ) : String :=
  String.ofList
    (plainChars negative (natDigits (coefficient / 10 ^ places)) (fixedDigits places coefficient))

end

/-- The exponent part of a printed decimal. -/
def exponentChars (exponent : ℤ) : List Char :=
  'E' :: (if exponent < 0 then '-' else '+') :: natDigits exponent.natAbs

/-- These characters are the ASCII digits. -/
def AsciiDigits (chars : List Char) : Prop := ∀ char ∈ chars, ∃ digit, char = digitChar digit

theorem asciiDigits_fixedDigits (places number : ℕ) : AsciiDigits (fixedDigits places number) :=
  fun _ member => mem_fixedDigits member

theorem asciiDigits_append {first second : List Char} (left : AsciiDigits first)
    (right : AsciiDigits second) : AsciiDigits (first ++ second) := by
  intro char member
  rcases mem_append.mp member with early | late
  · exact left char early
  · exact right char late

/-- A numeral character is not blank, and conversion to ASCII keeps it. -/
def PlainChar (char : Char) : Prop := isSpace char = false ∧ char ≠ '_' ∧ 0 < char.toNat ∧ char.toNat ≤ 127

theorem plainChar_digitChar : ∀ digit, PlainChar (digitChar digit) := by
  apply digitChar_induction
  unfold PlainChar
  decide

variable {whole fraction chars : List Char}

theorem plainChars_plain (wholeDigits : AsciiDigits whole) (fractionDigits : AsciiDigits fraction)
    (negative : Bool) :
    ∀ char ∈ plainChars negative whole fraction, PlainChar char := by
  have digits {chars : List Char} (ascii : AsciiDigits chars) : ∀ char ∈ chars, PlainChar char := by
    intro char member
    obtain ⟨digit, rfl⟩ := ascii char member
    exact plainChar_digitChar digit
  have point : PlainChar '.' := by unfold PlainChar; decide
  have minus : PlainChar '-' := by unfold PlainChar; decide
  intro char member
  rcases mem_append.mp member with early | late
  · rcases mem_append.mp early with sign | inside
    · split_ifs at sign
      · rw [mem_singleton.mp sign]
        exact minus
      · simp at sign
    · exact digits wholeDigits char inside
  · split_ifs at late with empty
    · simp at late
    · rcases mem_cons.mp late with same | inside
      · rw [same]
        exact point
      · exact digits fractionDigits char inside

theorem stripChars_plain (plain : ∀ char ∈ chars, PlainChar char) : stripChars chars = chars := by
  have front : chars.dropWhile isSpace = chars := by
    cases chars with
    | nil => rfl
    | cons head rest => simp [dropWhile, (plain head (by simp)).1]
  rw [stripChars, front, rdropWhile_eq_self_iff]
  intro nonempty
  simp [(plain _ (getLast_mem nonempty)).1]

theorem asciiNumeral_plain (plain : ∀ char ∈ chars, PlainChar char) : asciiNumeral chars = some chars := by
  induction chars with
  | nil => rfl
  | cons head rest ih =>
    obtain ⟨_, visible, ascii⟩ := plain head (by simp)
    rw [asciiNumeral, if_neg visible, if_pos ascii, ih fun char member => plain char (by simp [member])]
    rfl

theorem isDigit_digitChar (digit : ℕ) : isDigit (digitChar digit) = true := by
  rw [isDigit, digitValue_digitChar]
  rfl

theorem span_digits (ascii : AsciiDigits chars) (rest : List Char)
    (stop : ∀ char ∈ rest.head?, isDigit char = false) : (chars ++ rest).span isDigit = (chars, rest) := by
  have each : ∀ char ∈ chars, isDigit char = true := by
    intro char member
    obtain ⟨digit, rfl⟩ := ascii char member
    exact isDigit_digitChar digit
  rw [span_eq_takeWhile_dropWhile, (while_append each stop).1, (while_append each stop).2]

section Reading

variable (wholeDigits : AsciiDigits whole) (nonempty : whole ≠ []) (fractionDigits : AsciiDigits fraction)

theorem asciiDigits_natDigits (number : ℕ) : AsciiDigits (natDigits number) := asciiDigits_fixedDigits _ _

theorem head_fraction (fraction : List Char) :
    ∀ char ∈ (if fraction = [] then [] else '.' :: fraction).head?, isDigit char = false := by
  have point : isDigit '.' = false := by decide
  split_ifs <;> simp [point]

/-- A digit starts no special word. -/
theorem parseSpecial_digit (negative : Bool) (digit : ℕ) (rest : List Char) :
    parseSpecial negative (digitChar digit :: rest) = none := by
  have lower := digitChar_induction (P := fun char => char.toLower = char) (by decide) digit
  have other := digitChar_induction (P := fun char => char ≠ 'i' ∧ char ≠ 'n' ∧ char ≠ 's') (by decide) digit
  simp [parseSpecial, lower, other.1, other.2.1, other.2.2]

theorem takeSign_plain (negative : Bool) (digit : ℕ) (rest fraction : List Char) :
    takeSign (plainChars negative (digitChar digit :: rest) fraction) =
      (negative, plainChars false (digitChar digit :: rest) fraction) := by
  have other := digitChar_induction (P := fun char => char ≠ '-' ∧ char ≠ '+') (by decide) digit
  cases negative with
  | true => rfl
  | false =>
    rw [takeSign]
    · rintro _ same
      exact other.1 (cons.inj same).1
    · rintro _ same
      exact other.2 (cons.inj same).1

include fractionDigits in
theorem takeFraction_plain : takeFraction (if fraction = [] then [] else '.' :: fraction) = (fraction, []) := by
  split_ifs with empty
  · rw [empty]
    rfl
  · have spanned := span_digits fractionDigits [] (by simp)
    rwa [append_nil] at spanned

include wholeDigits nonempty fractionDigits in
/-- Reading a plain numeral inside the exponent range returns its sign, digits and scale. -/
theorem parseLiteral_plain (negative : Bool) :
    parseLiteral (String.ofList (plainChars negative whole fraction)) =
      if (Number.mk negative (digitsValue (whole ++ fraction)) (-fraction.length)).inRange then
        some (.finite ⟨negative, digitsValue (whole ++ fraction), -fraction.length⟩)
      else none := by
  have plain := plainChars_plain wholeDigits fractionDigits negative
  have unsigned : parseUnsigned negative (plainChars false whole fraction) =
      some ⟨negative, digitsValue (whole ++ fraction), -fraction.length⟩ := by
    have shape : plainChars false whole fraction = whole ++ if fraction = [] then [] else '.' :: fraction := rfl
    rw [parseUnsigned, shape, span_digits wholeDigits _ (head_fraction fraction), takeFraction_plain fractionDigits,
      if_neg (by simp [nonempty])]
    simp [parseExponent]
  obtain ⟨head, rest, rfl⟩ := exists_cons_of_ne_nil nonempty
  obtain ⟨digit, rfl⟩ := wholeDigits head (by simp)
  rw [parseLiteral, String.toList_ofList, stripChars_plain plain, asciiNumeral_plain plain]
  dsimp only
  rw [takeSign_plain]
  rw [show parseSpecial negative (plainChars false (digitChar digit :: rest) fraction) = none from
    parseSpecial_digit negative digit _]
  rw [unsigned]

end Reading

theorem digitsValue_natDigits_append (number places : ℕ) :
    digitsValue (natDigits (number / 10 ^ places) ++ fixedDigits places number) = number := by
  induction places generalizing number with
  | zero => simp [fixedDigits, digitsValue_natDigits]
  | succ places ih =>
    rw [fixedDigits, ← append_assoc, digitsValue_append_digit]
    have shifted := ih (number / 10)
    rw [Nat.div_div_eq_div_mul, ← pow_succ'] at shifted
    omega

theorem digitsValue_append (first second : List Char) :
    digitsValue (first ++ second) = digitsValue first * 10 ^ second.length + digitsValue second := by
  induction second using reverseRecOn generalizing first with
  | nil => simp [digitsValue]
  | append_singleton rest char ih =>
    have last (chars : List Char) :
        digitsValue (chars ++ [char]) = 10 * digitsValue chars + (digitValue char).getD 0 := by
      simp [digitsValue]
    rw [← append_assoc, last, last, ih, length_append, length_singleton]
    ring

theorem digitsValue_zeros (count : ℕ) : digitsValue (replicate count '0') = 0 := by
  induction count with
  | zero => rfl
  | succ count ih =>
    rw [replicate_succ', digitsValue_append, ih]
    rfl

theorem asciiDigits_zeros (count : ℕ) : AsciiDigits (replicate count '0') := by
  intro char member
  exact ⟨0, (eq_of_mem_replicate member).trans rfl⟩

/-- The digits before and after the point of a printed decimal. -/
def printedDigits (number : Number) : List Char × List Char :=
  let digits := natDigits number.coefficient
  let left := number.exponent + digits.length
  if number.exponent ≤ 0 ∧ -6 < left then
    if left ≤ 0 then (['0'], List.replicate (-left).toNat '0' ++ digits)
    else (digits.take left.toNat, digits.drop left.toNat)
  else (digits.take 1, digits.drop 1)

/-- The exponent that is printed after the digits, if one is. -/
def printedExponent (number : Number) : Option ℤ :=
  if number.exponent ≤ 0 ∧ -6 < number.exponent + (natDigits number.coefficient).length then none
  else some number.adjusted

/-- The scientific text of a decimal; it keeps the coefficient and the exponent. -/
def decimalStr (number : Number) : String :=
  String.ofList (plainChars number.negative (printedDigits number).1 (printedDigits number).2 ++
    (printedExponent number).elim [] exponentChars)

end FinanceCore.Decimal

import FinanceCore.Foundation.Decimal
import FinanceCore.Foundation.DecimalText
import FinanceCore.Foundation.Exceptions

namespace FinanceCore.Money

open Decimal Exceptions Text

/-- The registry of supported currencies. -/
inductive Currency where
  | sgd | usd | eur | gbp | aud | cny | hkd | jpy
deriving DecidableEq

def Currency.code : Currency → String
  | sgd => "SGD"
  | usd => "USD"
  | eur => "EUR"
  | gbp => "GBP"
  | aud => "AUD"
  | cny => "CNY"
  | hkd => "HKD"
  | jpy => "JPY"

def supportedCurrencies : List Currency := [.sgd, .usd, .eur, .gbp, .aud, .cny, .hkd, .jpy]

/-- The number of minor-unit decimal places. -/
def minorUnits : Currency → ℕ
  | .jpy => 0
  | _ => 2

/-- A monetary input as it arrives, before any conversion. -/
inductive RawMoney where
  | boolean (value : Bool)
  | float
  | missing
  | decimal (value : Literal)
  | integer (value : ℤ)
  | text (value : String)
  | other
deriving DecidableEq

/-- The rejections of the contract, each with the label of the checked field.
`invalidOperation` is the signal of the decimal library and no validation error. -/
inductive MoneyError (Label : Type) where
  | emptyCurrency
  | unsupportedCurrency (code : String)
  | boolean (label : Label)
  | float (label : Label)
  | missing (label : Label)
  | emptyText (label : Label)
  | scientificNotation (label : Label) (text : String)
  | malformedText (label : Label) (text : String)
  | unsupportedType (label : Label)
  | notFinite (label : Label)
  | scale (label : Label) (amount : ℚ) (currency : Currency)
  | negative (label : Label) (amount : ℚ)
  | notPositive (label : Label) (amount : ℚ)
  | currencyMismatch (labelA : Label) (a : Currency) (labelB : Label) (b : Currency)
  | invalidOperation
deriving DecidableEq

variable {L : Type} {number : Number}

/-- Upper case on the characters that can spell a supported code; the long s becomes S. -/
def upperChar (char : Char) : Char := if char = 'ſ' then 'S' else char.toUpper

def normalizeCurrency (raw : String) : Except (MoneyError L) Currency :=
  let normalized := String.ofList ((stripChars raw.toList).map upperChar)
  if normalized = "" then .error .emptyCurrency
  else
    expect (supportedCurrencies.find? fun currency => currency.code = normalized)
      (.unsupportedCurrency normalized)

theorem normalizeCurrency_code (currency : Currency) : normalizeCurrency (L := L) currency.code = .ok currency := by
  cases currency <;> rfl

/-- An exponent marker stands directly after a digit and before a signed or plain digit. -/
def exponentAhead : List Char → Bool
  | marker :: rest =>
    (marker == 'e' || marker == 'E') &&
      match rest with
      | '+' :: digit :: _ => isDigit digit
      | '-' :: digit :: _ => isDigit digit
      | digit :: _ => isDigit digit
      | [] => false
  | [] => false

def looksLikeScientific : List Char → Bool
  | [] => false
  | char :: rest => (isDigit char && exponentAhead rest) || looksLikeScientific rest

/-- The single entry point for monetary values. -/
def moneyDecimal (value : RawMoney) (label : L) : Except (MoneyError L) Number :=
  let converted : Except (MoneyError L) Literal :=
    match value with
    | .boolean _ => .error (.boolean label)
    | .float => .error (.float label)
    | .missing => .error (.missing label)
    | .decimal literal => .ok literal
    | .integer number => .ok (.finite (Number.ofInt number))
    | .text text =>
      let stripped := stripChars text.toList
      if stripped = [] then .error (.emptyText label)
      else if looksLikeScientific stripped then .error (.scientificNotation label text)
      else expect (parseLiteral (String.ofList stripped)) (.malformedText label text)
    | .other => .error (.unsupportedType label)
  converted.bind fun literal =>
    match literal with
    | .finite number => .ok number
    | _ => .error (.notFinite label)

/-- What the contract reads of an input, whatever the field is called. -/
def RawMoney.literal? : RawMoney → Option Literal
  | .decimal literal => some literal
  | .integer number => some (.finite (Number.ofInt number))
  | .text raw => if looksLikeScientific (stripChars raw.toList) then none else parseLiteral (strip raw)
  | _ => none

theorem moneyDecimal_ok {raw : RawMoney} {label : L} :
    moneyDecimal raw label = .ok number ↔ raw.literal? = some (.finite number) := by
  unfold moneyDecimal RawMoney.literal?
  cases raw with
  | boolean | float | missing | other => simp [Except.bind]
  | decimal literal => cases literal <;> simp [Except.bind]
  | integer value => simp [Except.bind]
  | text text =>
    dsimp only
    rw [← strip.eq_1]
    split_ifs with empty matched matched
    · simp [Except.bind]
    · rw [show strip text = "" by rw [strip, empty]]
      simp [Except.bind, show parseLiteral "" = none by decide]
    · simp [Except.bind]
    · rcases parseLiteral (strip text) with _ | (_ | _ | _) <;> simp [expect, Except.bind]

/-- An amount passes when quantizing to the currency leaves it unchanged. -/
def validateAmountForCurrency (context : Context) (amount : ℚ) (currency : Currency) (label : L) :
    Except (MoneyError L) Unit := do
  let quantized ← expect (context.quantize halfEven (minorUnits currency) amount) .invalidOperation
  require (amount = quantized) (.scale label amount currency)

/-- The explicit rounding to the currency moves ties away from zero. -/
def quantizeForCurrency (context : Context) (amount : ℚ)
    (currency : Currency) : Except (MoneyError L) ℚ :=
  expect (context.quantize halfUp (minorUnits currency) amount) .invalidOperation

inductive SignPolicy where
  | any
  | nonNegative
  | strictlyPositive

def SignPolicy.enforce (policy : SignPolicy) (amount : ℚ)
    (label : L) : Except (MoneyError L) Unit :=
  match policy with
  | .any => .ok ()
  | .nonNegative => require (0 ≤ amount) (.negative label amount)
  | .strictlyPositive => require (0 < amount) (.notPositive label amount)

def requireSameCurrency (currencyA currencyB : String) (labelA labelB : L) : Except (MoneyError L) Unit := do
  let a ← normalizeCurrency currencyA
  let b ← normalizeCurrency currencyB
  require (a = b) (.currencyMismatch labelA a labelB b)

/-- The canonical text keeps every minor unit of the quantized amount and its sign. -/
def canonicalMoneyStr (context : Context) (amount : Number)
    (currency : Currency) : Except (MoneyError L) String := do
  let places := minorUnits currency
  let quantized ← quantizeForCurrency context amount.value currency
  return fixedText amount.negative (quantized * 10 ^ places).num.natAbs places

variable {amount : ℚ} {currency : Currency} {label : L} {result : Unit}

variable {context : Context} {whole fraction : List Char}

@[simp] theorem validateAmountForCurrency_ok :
    validateAmountForCurrency context amount currency label = .ok result ↔
      context.Holds (minorUnits currency) amount := by
  unfold validateAmountForCurrency
  rw [bind_ok]
  simp only [expect_ok, require_ok]
  rw [← show context.quantize halfEven (minorUnits currency) amount = some amount ↔ _ from Context.quantize_self]
  constructor
  · rintro ⟨quantized, done, same⟩
    rw [done, same]
  · intro done
    exact ⟨amount, done, rfl⟩

@[simp] theorem quantizeForCurrency_eq_ok {result : ℚ} :
    quantizeForCurrency (L := L) context amount currency = .ok result ↔
      context.quantize halfUp (minorUnits currency) amount = some result := by
  rw [quantizeForCurrency, expect_ok]

@[simp] theorem enforce_nonNegative_eq_ok :
    SignPolicy.nonNegative.enforce amount label = .ok result ↔ 0 ≤ amount := by
  rw [SignPolicy.enforce, require_ok]

theorem requireSameCurrency_code {raw : String} {labelA labelB : L} :
    requireSameCurrency currency.code raw labelA labelB = .ok result ↔
      normalizeCurrency (L := L) raw = .ok currency := by
  unfold requireSameCurrency
  rw [normalizeCurrency_code]
  simp only [bind_ok, require_ok]
  constructor
  · rintro ⟨a, same, b, done, equal⟩
    obtain rfl := Except.ok.inj same
    rw [done, equal]
  · intro done
    exact ⟨currency, rfl, currency, done, rfl⟩

/-- An exponent letter has a digit directly before it and a digit directly behind it or behind its sign. -/
def FramedExponent (chars : List Char) : Prop :=
  ∃ before digit marker sign next after,
    chars = before ++ digit :: marker :: (sign ++ next :: after) ∧
      isDigit digit ∧ marker ∈ ['e', 'E'] ∧ sign ∈ [[], ['+'], ['-']] ∧ isDigit next

/-- The look ahead of the guard finds a letter, at most one sign and a digit. -/
theorem exponentAhead_iff {chars : List Char} :
    exponentAhead chars = true ↔ ∃ marker sign next after, chars = marker :: (sign ++ next :: after) ∧
      marker ∈ ['e', 'E'] ∧ sign ∈ [[], ['+'], ['-']] ∧ isDigit next := by
  constructor
  · intro ahead
    cases chars with
    | nil => cases ahead
    | cons marker rest =>
      simp only [exponentAhead, Bool.and_eq_true] at ahead
      obtain ⟨letter, behind⟩ := ahead
      refine ⟨marker, ?_⟩
      have letter : marker ∈ ['e', 'E'] := by simpa using letter
      split at behind
      · exact ⟨['+'], _, _, rfl, letter, by simp, behind⟩
      · exact ⟨['-'], _, _, rfl, letter, by simp, behind⟩
      · exact ⟨[], _, _, rfl, letter, by simp, behind⟩
      · cases behind
  · rintro ⟨marker, sign, next, after, rfl, letter, signed, digit⟩
    have plus : next ≠ '+' := by
      rintro rfl
      exact absurd digit (by decide)
    have minus : next ≠ '-' := by
      rintro rfl
      exact absurd digit (by decide)
    simp only [List.mem_cons, List.not_mem_nil, or_false] at letter signed
    rcases signed with rfl | rfl | rfl <;> rcases letter with rfl | rfl <;> simp [exponentAhead, plus, minus, digit]

/-- The guard matches exactly the texts with a framed exponent letter. -/
theorem looksLikeScientific_iff {chars : List Char} : looksLikeScientific chars = true ↔ FramedExponent chars := by
  induction chars with
  | nil => simp [looksLikeScientific, FramedExponent]
  | cons char rest ih =>
    rw [looksLikeScientific, Bool.or_eq_true, Bool.and_eq_true, exponentAhead_iff, ih]
    constructor
    · rintro (⟨digit, marker, sign, next, after, rfl, held⟩ | ⟨before, digit, marker, sign, next, after, rfl, held⟩)
      · exact ⟨[], char, marker, sign, next, after, rfl, digit, held⟩
      · exact ⟨char :: before, digit, marker, sign, next, after, rfl, held⟩
    · rintro ⟨before, digit, marker, sign, next, after, same, isDigit, held⟩
      cases before with
      | nil =>
        obtain ⟨rfl, rfl⟩ := List.cons.inj same
        exact .inl ⟨isDigit, marker, sign, next, after, rfl, held⟩
      | cons head before =>
        obtain ⟨rfl, rfl⟩ := List.cons.inj same
        exact .inr ⟨before, digit, marker, sign, next, after, rfl, isDigit, held⟩

/-- Scientific notation needs an exponent letter. -/
theorem looksLikeScientific_plain {chars : List Char} (plain : 'e' ∉ chars ∧ 'E' ∉ chars) :
    looksLikeScientific chars = false := by
  rw [Bool.eq_false_iff, Ne, looksLikeScientific_iff]
  rintro ⟨before, digit, marker, sign, next, after, rfl, -, letter, -⟩
  simp only [List.mem_cons, List.not_mem_nil, or_false] at letter
  rcases letter with rfl | rfl
  · exact plain.1 (by simp)
  · exact plain.2 (by simp)

theorem plainChars_no_exponent (wholeDigits : AsciiDigits whole)
    (fractionDigits : AsciiDigits fraction)
    (negative : Bool) : 'e' ∉ plainChars negative whole fraction ∧
      'E' ∉ plainChars negative whole fraction := by
  have absent (chars : List Char) (ascii : AsciiDigits chars) : 'e' ∉ chars ∧ 'E' ∉ chars := by
    constructor <;>
    · intro member
      obtain ⟨digit, same⟩ := ascii _ member
      have code := congrArg Char.toNat same
      rw [digitChar_toNat] at code
      simp at code
      omega
  have left := absent whole wholeDigits
  have right := absent fraction fractionDigits
  unfold plainChars
  constructor <;> cases negative <;> split_ifs <;> simp [left, right]

theorem fixedText_ne_empty (negative : Bool) (coefficient places : ℕ) :
    fixedText negative coefficient places ≠ "" := by
  intro empty
  have chars := congrArg String.toList empty
  rw [fixedText, plainChars] at chars
  simp [natDigits_ne_nil] at chars

/-- The contract reads a plain text as the decimal library does. -/
theorem moneyDecimal_plain (wholeDigits : AsciiDigits whole) (nonempty : whole ≠ [])
    (fractionDigits : AsciiDigits fraction) (negative : Bool) (label : L) :
    moneyDecimal (.text (String.ofList (plainChars negative whole fraction))) label =
      if (Number.mk negative (digitsValue (whole ++ fraction)) (-fraction.length)).inRange then
        .ok ⟨negative, digitsValue (whole ++ fraction), -fraction.length⟩
      else .error (.malformedText label (String.ofList (plainChars negative whole fraction))) := by
  have stripped := stripChars_plain (plainChars_plain wholeDigits fractionDigits negative)
  have someText : plainChars negative whole fraction ≠ [] := by
    simp [plainChars, nonempty]
  have plain := looksLikeScientific_plain (plainChars_no_exponent wholeDigits fractionDigits negative)
  unfold moneyDecimal
  simp only [String.toList_ofList, stripped, someText, plain, if_false, Bool.false_eq_true,
    parseLiteral_plain wholeDigits nonempty fractionDigits]
  split_ifs
  · rfl
  · rfl

/-- The contract reads a fixed-point text inside the exponent range as it was written. -/
theorem moneyDecimal_fixedText (negative : Bool) (coefficient places : ℕ) (label : L) :
    moneyDecimal (.text (fixedText negative coefficient places)) label =
      if (Number.mk negative coefficient (-places)).inRange then .ok ⟨negative, coefficient, -places⟩
      else .error (.malformedText label (fixedText negative coefficient places)) := by
  rw [fixedText, moneyDecimal_plain (asciiDigits_natDigits _) (natDigits_ne_nil _) (asciiDigits_fixedDigits _ _),
    digitsValue_natDigits_append, length_fixedDigits]

theorem number_of_moneyDecimal_fixedText {negative : Bool} {coefficient places : ℕ}
    (read : moneyDecimal (.text (fixedText negative coefficient places)) label = .ok number) :
    number = ⟨negative, coefficient, -places⟩ := by
  rw [moneyDecimal_fixedText] at read
  split_ifs at read
  exact (Except.ok.inj read).symm

end FinanceCore.Money

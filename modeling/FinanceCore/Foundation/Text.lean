import Mathlib

namespace FinanceCore.Text

/-- These characters count as white space in Unicode text. -/
def isSpace (char : Char) : Bool :=
  let code := char.toNat
  (9 ≤ code && code ≤ 13) || (28 ≤ code && code ≤ 32) || code == 0x85 || code == 0xA0 ||
    code == 0x1680 || (0x2000 ≤ code && code ≤ 0x200A) || code == 0x2028 || code == 0x2029 ||
    code == 0x202F || code == 0x205F || code == 0x3000

/-- Stripping removes white space at both ends. -/
def stripChars (chars : List Char) : List Char := (chars.dropWhile isSpace).rdropWhile isSpace

def strip (text : String) : String := String.ofList (stripChars text.toList)

/-- A text is blank when stripping leaves nothing. -/
def isBlank (text : String) : Bool := text.toList.all isSpace

/-- The decimal digits of each script start at one of these code points. -/
def digitZeros : List ℕ :=
  [0x30, 0x660, 0x6F0, 0x7C0, 0x966, 0x9E6, 0xA66, 0xAE6, 0xB66, 0xBE6, 0xC66, 0xCE6, 0xD66, 0xDE6,
   0xE50, 0xED0, 0xF20, 0x1040, 0x1090, 0x17E0, 0x1810, 0x1946, 0x19D0, 0x1A80, 0x1A90, 0x1B50,
   0x1BB0, 0x1C40, 0x1C50, 0xA620, 0xA8D0, 0xA900, 0xA9D0, 0xA9F0, 0xAA50, 0xABF0, 0xFF10, 0x104A0,
   0x10D30, 0x11066, 0x110F0, 0x11136, 0x111D0, 0x112F0, 0x11450, 0x114D0, 0x11650, 0x116C0, 0x11730,
   0x118E0, 0x11950, 0x11C50, 0x11D50, 0x11DA0, 0x11F50, 0x16A60, 0x16AC0, 0x16B50, 0x1D7CE, 0x1D7D8,
   0x1D7E2, 0x1D7EC, 0x1D7F6, 0x1E140, 0x1E2F0, 0x1E4F0, 0x1E950, 0x1FBF0]

/-- A decimal digit of any script denotes its offset from the zero of the script. -/
def digitValue (char : Char) : Option ℕ :=
  (digitZeros.find? fun start => start ≤ char.toNat && char.toNat < start + 10).map fun start =>
    char.toNat - start

def isDigit (char : Char) : Bool := (digitValue char).isSome

/-- The ASCII digit of a small number. -/
def digitChar (digit : ℕ) : Char := Char.ofNat (48 + digit % 10)

theorem digitChar_toNat (digit : ℕ) : (digitChar digit).toNat = 48 + digit % 10 := by
  have bound : digit % 10 < 10 := Nat.mod_lt _ (by norm_num)
  unfold digitChar
  interval_cases digit % 10 <;> rfl

theorem digitValue_digitChar (digit : ℕ) : digitValue (digitChar digit) = some (digit % 10) := by
  have bound : digit % 10 < 10 := Nat.mod_lt _ (by norm_num)
  unfold digitChar
  interval_cases digit % 10 <;> rfl

/-- What holds of the ten digits holds of every digit that is printed. -/
theorem digitChar_induction {P : Char → Prop} (listed : ∀ digit < 10, P (Char.ofNat (48 + digit)))
    (digit : ℕ) :
    P (digitChar digit) := listed _ (Nat.mod_lt _ (by decide))

/-- The last decimal places of a number, with leading zeros. -/
def fixedDigits : ℕ → ℕ → List Char
  | 0, _ => []
  | places + 1, number => fixedDigits places (number / 10) ++ [digitChar number]

def digitCount (number : ℕ) : ℕ := Nat.log 10 number + 1

/-- The decimal text of a number without leading zeros. -/
def natDigits (number : ℕ) : List Char := fixedDigits (digitCount number) number

/-- The number that a digit list denotes. -/
def digitsValue (chars : List Char) : ℕ :=
  chars.foldl (fun total char => 10 * total + (digitValue char).getD 0) 0

theorem digitsValue_append_digit (chars : List Char) (digit : ℕ) :
    digitsValue (chars ++ [digitChar digit]) = 10 * digitsValue chars + digit % 10 := by
  simp [digitsValue, digitValue_digitChar]

theorem digitsValue_fixedDigits (places number : ℕ) :
    digitsValue (fixedDigits places number) = number % 10 ^ places := by
  induction places generalizing number with
  | zero => simp [fixedDigits, digitsValue, Nat.mod_one]
  | succ places ih =>
    rw [fixedDigits, digitsValue_append_digit, ih, pow_succ', Nat.mod_mul]
    omega

@[simp] theorem length_fixedDigits (places number : ℕ) : (fixedDigits places number).length = places := by
  induction places generalizing number with
  | zero => rfl
  | succ places ih => simp [fixedDigits, ih]

theorem mem_fixedDigits {places number : ℕ} {char : Char}
    (member : char ∈ fixedDigits places number) :
    ∃ digit, char = digitChar digit := by
  induction places generalizing number with
  | zero => simp [fixedDigits] at member
  | succ places ih =>
    rcases List.mem_append.mp member with early | last
    · exact ih early
    · exact ⟨number, List.mem_singleton.mp last⟩

theorem lt_pow_digitCount (number : ℕ) : number < 10 ^ digitCount number :=
  Nat.lt_pow_succ_log_self (by norm_num) number

theorem digitsValue_natDigits (number : ℕ) : digitsValue (natDigits number) = number := by
  rw [natDigits, digitsValue_fixedDigits, Nat.mod_eq_of_lt (lt_pow_digitCount number)]

theorem natDigits_ne_nil (number : ℕ) : natDigits number ≠ [] := by
  intro empty
  have length := congrArg List.length empty
  simp [natDigits, digitCount] at length

theorem fixedDigits_head (places number : ℕ) :
    fixedDigits (places + 1) number = digitChar (number / 10 ^ places) :: fixedDigits places number := by
  induction places generalizing number with
  | zero => simp [fixedDigits]
  | succ places ih =>
    rw [fixedDigits, ih, Nat.div_div_eq_div_mul, ← pow_succ']
    rfl

theorem natDigits_head {number : ℕ} (positive : number ≠ 0) :
    ∃ head tail, natDigits number = head :: tail ∧ head ≠ '0' := by
  refine ⟨_, _, fixedDigits_head (Nat.log 10 number) number, fun zero => ?_⟩
  have low : 0 < number / 10 ^ Nat.log 10 number :=
    Nat.div_pos (Nat.pow_log_le_self 10 positive) (by positivity)
  have high : number / 10 ^ Nat.log 10 number < 10 := by
    rw [Nat.div_lt_iff_lt_mul (by positivity), ← pow_succ']
    exact lt_pow_digitCount number
  have code := congrArg Char.toNat zero
  rw [digitChar_toNat] at code
  change _ = 48 at code
  omega

/-- A run of characters ends where the next one fails the test. -/
theorem while_append {test : Char → Bool} {chars rest : List Char}
    (all : ∀ char ∈ chars, test char = true) (stop : ∀ char ∈ rest.head?, test char = false) :
    (chars ++ rest).takeWhile test = chars ∧ (chars ++ rest).dropWhile test = rest := by
  have ends : rest.takeWhile test = [] ∧ rest.dropWhile test = rest := by
    cases rest with
    | nil => simp
    | cons head tail => simp [stop head (by simp)]
  rw [List.takeWhile_append_of_pos all, List.dropWhile_append_of_pos all, ends.1, ends.2, List.append_nil]
  exact ⟨rfl, rfl⟩

end FinanceCore.Text

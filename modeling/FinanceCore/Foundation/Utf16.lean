import Mathlib

namespace FinanceCore.Utf16

open List

/-- A string of a host that counts in 16-bit units. -/
abbrev Units := List ℕ

def isHigh (unit : ℕ) : Bool := 0xD800 ≤ unit && unit < 0xDC00

def isLow (unit : ℕ) : Bool := 0xDC00 ≤ unit && unit < 0xE000

/-- The units of one character; one above the basic plane takes a surrogate pair. -/
def unitsOf (char : Char) : Units :=
  if char.toNat < 0x10000 then [char.toNat]
  else [0xD800 + (char.toNat - 0x10000) / 0x400, 0xDC00 + (char.toNat - 0x10000) % 0x400]

/-- The units of a well-formed text. -/
def encode (text : String) : Units := text.toList.flatMap unitsOf

def pairValue (high low : ℕ) : ℕ := 0x10000 + (high - 0xD800) * 0x400 + (low - 0xDC00)

theorem pairValue_parts (offset : ℕ) :
    pairValue (0xD800 + offset / 0x400) (0xDC00 + offset % 0x400) = 0x10000 + offset := by
  unfold pairValue
  rw [Nat.add_sub_cancel_left, Nat.add_sub_cancel_left, Nat.add_assoc, Nat.div_add_mod']

def utf8Of (codePoint : ℕ) : List UInt8 := String.utf8EncodeChar (Char.ofNat codePoint)

/-- The character that stands for a surrogate without its partner. -/
def replacement : List UInt8 := utf8Of 0xFFFD

/-- The UTF-8 bytes that the host writes for a string. -/
def toUtf8 : Units → List UInt8
  | [] => []
  | [unit] => if isHigh unit || isLow unit then replacement else utf8Of unit
  | unit :: next :: rest =>
    if isHigh unit then
      if isLow next then utf8Of (pairValue unit next) ++ toUtf8 rest else replacement ++ toUtf8 (next :: rest)
    else if isLow unit then replacement ++ toUtf8 (next :: rest)
    else utf8Of unit ++ toUtf8 (next :: rest)

/-- A unit outside the surrogates is a character of its own. -/
theorem toUtf8_unit {unit : ℕ} (high : isHigh unit = false) (low : isLow unit = false)
    (rest : Units) :
    toUtf8 (unit :: rest) = utf8Of unit ++ toUtf8 rest := by
  cases rest with
  | nil => simp [toUtf8, high, low]
  | cons next rest => simp [toUtf8, high, low]

theorem toUtf8_pair {high low : ℕ} (isHighUnit : isHigh high = true) (isLowUnit : isLow low = true)
    (rest : Units) :
    toUtf8 (high :: low :: rest) = utf8Of (pairValue high low) ++ toUtf8 rest := by
  rw [toUtf8, if_pos isHighUnit, if_pos isLowUnit]

theorem utf8Of_toNat (char : Char) : utf8Of char.toNat = String.utf8EncodeChar char := by
  rw [utf8Of, Char.ofNat_toNat]

theorem toUtf8_char (char : Char) (rest : Units) :
    toUtf8 (unitsOf char ++ rest) = String.utf8EncodeChar char ++ toUtf8 rest := by
  have valid : char.toNat < 0xD800 ∨ (0xDFFF < char.toNat ∧ char.toNat < 0x110000) := char.valid
  by_cases basic : char.toNat < 0x10000
  · have high : isHigh char.toNat = false := by
      simp only [isHigh, Bool.and_eq_false_iff, decide_eq_false_iff_not]
      omega
    have low : isLow char.toNat = false := by
      simp only [isLow, Bool.and_eq_false_iff, decide_eq_false_iff_not]
      omega
    rw [unitsOf, if_pos basic, singleton_append, toUtf8_unit high low, utf8Of_toNat]
  · have high : isHigh (0xD800 + (char.toNat - 0x10000) / 0x400) = true := by
      simp only [isHigh, Bool.and_eq_true, decide_eq_true_eq]
      omega
    have low : isLow (0xDC00 + (char.toNat - 0x10000) % 0x400) = true := by
      simp only [isLow, Bool.and_eq_true, decide_eq_true_eq]
      omega
    have value : pairValue (0xD800 + (char.toNat - 0x10000) / 0x400) (0xDC00 + (char.toNat - 0x10000) % 0x400) =
        char.toNat := by
      rw [pairValue_parts]
      omega
    rw [unitsOf, if_neg basic, cons_append, singleton_append, toUtf8_pair high low, value, utf8Of_toNat]

/-- A well-formed string has the UTF-8 bytes of its text. -/
theorem toUtf8_encode (text : String) : toUtf8 (encode text) = text.toList.flatMap String.utf8EncodeChar := by
  rw [encode]
  induction text.toList with
  | nil => rfl
  | cons char rest ih => rw [flatMap_cons, toUtf8_char, ih, flatMap_cons]

/-- The UTF-8 bytes of a text. -/
def utf8Bytes (text : String) : List UInt8 := text.toUTF8.data.toList

theorem utf8Bytes_eq (text : String) : utf8Bytes text = text.toList.flatMap String.utf8EncodeChar := by
  have encoded : text.toUTF8 = text.toList.utf8Encode := String.utf8Encode_toList.symm
  rw [utf8Bytes, encoded, utf8Encode, data_toByteArray]

theorem utf8Bytes_injective : Function.Injective utf8Bytes := by
  intro first second same
  apply String.toByteArray_inj.mp
  apply ByteArray.ext
  apply Array.ext'
  exact same

end FinanceCore.Utf16

import Mathlib

namespace FinanceCore.Json

open Option

/-- The lower-case hexadecimal digit of a small number. -/
def hexDigit (digit : ℕ) : Char :=
  if digit % 16 < 10 then Char.ofNat (48 + digit % 16) else Char.ofNat (87 + digit % 16)

def hexValue (char : Char) : Option ℕ :=
  if '0' ≤ char ∧ char ≤ '9' then some (char.toNat - 48)
  else if 'a' ≤ char ∧ char ≤ 'f' then some (char.toNat - 87)
  else if 'A' ≤ char ∧ char ≤ 'F' then some (char.toNat - 55)
  else none

theorem hexValue_hexDigit (digit : ℕ) : hexValue (hexDigit digit) = some (digit % 16) := by
  have bound : digit % 16 < 16 := Nat.mod_lt _ (by norm_num)
  unfold hexDigit
  interval_cases digit % 16 <;> rfl

def hexDigits (code : ℕ) : List Char :=
  [hexDigit (code / 4096), hexDigit (code / 256), hexDigit (code / 16), hexDigit code]

/-- A code unit as an escape of four hexadecimal digits. -/
def hexEscape (code : ℕ) : List Char := '\\' :: 'u' :: hexDigits code

def parseHex : List Char → Option (ℕ × List Char)
  | first :: second :: third :: fourth :: rest => do
    let first ← hexValue first
    let second ← hexValue second
    let third ← hexValue third
    let fourth ← hexValue fourth
    return (((first * 16 + second) * 16 + third) * 16 + fourth, rest)
  | _ => none

/-- The escape of a character; with `ascii` everything outside printable ASCII is escaped. -/
def escapeChar (ascii : Bool) (char : Char) : List Char :=
  if char = '"' then ['\\', '"']
  else if char = '\\' then ['\\', '\\']
  else if char = '\n' then ['\\', 'n']
  else if char = '\r' then ['\\', 'r']
  else if char = '\t' then ['\\', 't']
  else if char = '\x0c' then ['\\', 'f']
  else if char = '\x08' then ['\\', 'b']
  else if char.toNat < 32 then hexEscape char.toNat
  else if ascii ∧ 127 ≤ char.toNat then
    if char.toNat < 0x10000 then hexEscape char.toNat
    else hexEscape (0xd800 + (char.toNat - 0x10000) / 1024) ++ hexEscape (0xdc00 + (char.toNat - 0x10000) % 1024)
  else [char]

def simpleEscape (char : Char) : Option Char :=
  if char = '"' then some '"'
  else if char = '\\' then some '\\'
  else if char = '/' then some '/'
  else if char = 'b' then some '\x08'
  else if char = 'f' then some '\x0c'
  else if char = 'n' then some '\n'
  else if char = 'r' then some '\r'
  else if char = 't' then some '\t'
  else none

/-- The character of a code unit, or of a pair of surrogates. An unpaired surrogate is refused, since a character cannot
hold it; the decoder of the program accepts it. -/
def parseUnicode (chars : List Char) : Option (Char × List Char) := do
  let (code, rest) ← parseHex chars
  if 0xd800 ≤ code ∧ code < 0xdc00 then
    match rest with
    | '\\' :: 'u' :: more => do
      let (low, rest) ← parseHex more
      if 0xdc00 ≤ low ∧ low < 0xe000 then
        return (Char.ofNat (0x10000 + (code - 0xd800) * 1024 + (low - 0xdc00)), rest)
      else none
    | _ => none
  else if 0xdc00 ≤ code ∧ code < 0xe000 then none
  else return (Char.ofNat code, rest)

/-- The escape behind a backslash. -/
def parseEscape : List Char → Option (Char × List Char)
  | 'u' :: rest => parseUnicode rest
  | char :: rest => (simpleEscape char).map (·, rest)
  | [] => none

/-- The characters up to the closing quote; a control character is refused. -/
def parseChars : ℕ → List Char → Option (List Char × List Char)
  | 0, _ => none
  | _ + 1, [] => none
  | fuel + 1, char :: rest =>
    if char = '"' then some ([], rest)
    else if char = '\\' then do
      let (found, rest) ← parseEscape rest
      let (chars, rest) ← parseChars fuel rest
      return (found :: chars, rest)
    else if char.toNat < 32 then none
    else do
      let (chars, rest) ← parseChars fuel rest
      return (char :: chars, rest)

theorem parseHex_hexDigits {code : ℕ} (small : code < 0x10000) (rest : List Char) :
    parseHex (hexDigits code ++ rest) = some (code, rest) := by
  unfold hexDigits
  simp only [List.cons_append, List.nil_append]
  unfold parseHex
  simp only [hexValue_hexDigit, bind_eq_bind, bind_some, pure_def, some.injEq, Prod.mk.injEq, and_true]
  omega

theorem parseEscape_unit {code : ℕ} (valid : code < 0xd800 ∨ 0xdfff < code) (small : code < 0x10000)
    (rest : List Char) : parseEscape ('u' :: (hexDigits code ++ rest)) = some (Char.ofNat code, rest) := by
  change parseUnicode (hexDigits code ++ rest) = _
  unfold parseUnicode
  rw [parseHex_hexDigits small, bind_eq_bind, bind_some]
  dsimp only
  rw [if_neg (by omega), if_neg (by omega)]
  rfl

theorem parseEscape_pair {high low : ℕ} (highRange : 0xd800 ≤ high ∧ high < 0xdc00)
    (lowRange : 0xdc00 ≤ low ∧ low < 0xe000) (rest : List Char) :
    parseEscape ('u' :: (hexDigits high ++ (hexEscape low ++ rest))) =
      some (Char.ofNat (0x10000 + (high - 0xd800) * 1024 + (low - 0xdc00)), rest) := by
  change parseUnicode (hexDigits high ++ '\\' :: 'u' :: (hexDigits low ++ rest)) = _
  unfold parseUnicode
  rw [parseHex_hexDigits (by omega), bind_eq_bind, bind_some]
  dsimp only
  rw [if_pos highRange]
  change Option.bind (parseHex (hexDigits low ++ rest)) _ = _
  rw [parseHex_hexDigits (by omega), Option.bind_some, if_pos lowRange]
  rfl

theorem parseChars_backslash {tail rest : List Char} {char : Char}
    (read : parseEscape tail = some (char, rest))
    (fuel : ℕ) : parseChars (fuel + 1) ('\\' :: tail) =
      (parseChars fuel rest).map fun parsed => (char :: parsed.1, parsed.2) := by
  rw [parseChars, read, bind_eq_bind, bind_some]
  dsimp only
  cases parseChars fuel rest <;> rfl

/-- Reading a string undoes the escape of its first character. -/
theorem parseChars_escapeChar (ascii : Bool) (char : Char) (fuel : ℕ) (rest : List Char) :
    parseChars (fuel + 1) (escapeChar ascii char ++ rest) =
      (parseChars fuel rest).map fun parsed => (char :: parsed.1, parsed.2) := by
  have valid : char.toNat < 0xd800 ∨ 0xdfff < char.toNat ∧ char.toNat < 0x110000 := char.valid
  have unit (small : char.toNat < 0x10000) : parseChars (fuel + 1) (hexEscape char.toNat ++ rest) =
      (parseChars fuel rest).map fun parsed => (char :: parsed.1, parsed.2) := by
    have read := parseEscape_unit (by omega) small rest
    rw [Char.ofNat_toNat] at read
    exact parseChars_backslash read fuel
  unfold escapeChar
  split_ifs with quote backslash newline carriage tab feed back control outside small
  · exact parseChars_backslash (by rw [quote]; rfl) fuel
  · exact parseChars_backslash (by rw [backslash]; rfl) fuel
  · exact parseChars_backslash (by rw [newline]; rfl) fuel
  · exact parseChars_backslash (by rw [carriage]; rfl) fuel
  · exact parseChars_backslash (by rw [tab]; rfl) fuel
  · exact parseChars_backslash (by rw [feed]; rfl) fuel
  · exact parseChars_backslash (by rw [back]; rfl) fuel
  · exact unit (by omega)
  · exact unit small
  · obtain ⟨offset, same⟩ : ∃ offset, char.toNat = 0x10000 + offset := ⟨char.toNat - 0x10000, by omega⟩
    have highRange : 0xd800 ≤ 0xd800 + offset / 1024 ∧ 0xd800 + offset / 1024 < 0xdc00 := by omega
    have lowRange : 0xdc00 ≤ 0xdc00 + offset % 1024 ∧ 0xdc00 + offset % 1024 < 0xe000 := by omega
    have read := parseEscape_pair highRange lowRange rest
    have code : 0x10000 + (0xd800 + offset / 1024 - 0xd800) * 1024 + (0xdc00 + offset % 1024 - 0xdc00) =
        char.toNat := by omega
    rw [code, Char.ofNat_toNat] at read
    rw [same, Nat.add_sub_cancel_left]
    exact parseChars_backslash read fuel
  · rw [List.cons_append, List.nil_append, parseChars, if_neg quote, if_neg backslash, if_neg control]
    cases parseChars fuel rest <;> rfl

end FinanceCore.Json

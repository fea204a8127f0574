import Mathlib

namespace FinanceCore.Unicode

variable {char : Char}

inductive GeneralCategory where
  | Lu | Ll | Lt | Lm | Lo
  | Mn | Mc | Me
  | Nd | Nl | No
  | Pc | Pd | Ps | Pe | Pi | Pf | Po
  | Sm | Sc | Sk | So
  | Zs | Zl | Zp
  | Cc | Cf | Cs | Co | Cn
deriving DecidableEq

/-- The categories of controls, formats, surrogates, private and unassigned characters. -/
def GeneralCategory.isOther : GeneralCategory → Bool
  | .Cc | .Cf | .Cs | .Co | .Cn => true
  | _ => false

def isAscii (char : Char) : Bool := char.toNat < 128

/-- The unified ideographs of the first block. -/
def isIdeograph (char : Char) : Bool := 0x4E00 ≤ char.toNat && char.toNat ≤ 0x9FA5

def capitalSigma : Char := Char.ofNat 0x3A3

def capitalDottedI : Char := Char.ofNat 0x130

def combiningDot : Char := Char.ofNat 0x307

def kelvinSign : Char := Char.ofNat 0x212A

/-- The tables of the Unicode character database that text processing reads, for one version of the standard, with
the entries that no version changes. The case mappings are the simple lower case and the full case folding. -/
structure CharacterDatabase where
  category : Char → GeneralCategory
  lowercase : Char → Char
  caseFolding : Char → List Char
  (cased caseIgnorable : Char → Bool)
  category_control : ∀ char, category char = .Cc ↔ char.toNat < 32 ∨ (127 ≤ char.toNat ∧ char.toNat < 160)
  category_lineSeparator : ∀ char, category char = .Zl ↔ char.toNat = 0x2028
  category_paragraphSeparator : ∀ char, category char = .Zp ↔ char.toNat = 0x2029
  lowercase_ascii : ∀ char, isAscii char → lowercase char = char.toLower
  lowercase_ideograph : ∀ char, isIdeograph char → lowercase char = char
  lowercase_kelvinSign : lowercase kelvinSign = 'k'
  ascii_of_lowercase : ∀ char, isAscii (lowercase char) → isAscii char ∨ char = capitalDottedI ∨ char = kelvinSign
  ideograph_of_lowercase : ∀ char, isIdeograph (lowercase char) → isIdeograph char
  caseFolding_ascii : ∀ char, isAscii char → caseFolding char = [char.toLower]
  caseFolding_ideograph : ∀ char, isIdeograph char → caseFolding char = [char]

namespace CharacterDatabase

variable (database : CharacterDatabase)

/-- A capital sigma ends a word when a cased letter stands before it and none after it. -/
def finalSigma (before after : List Char) : Bool :=
  let nextTo (chars : List Char) : Bool := (chars.dropWhile database.caseIgnorable).head?.any database.cased
  nextTo before && !nextTo after

def lowerFrom (before : List Char) : List Char → List Char
  | [] => []
  | char :: rest =>
    (if char = capitalSigma then [Char.ofNat (if database.finalSigma before rest then 0x3C2 else 0x3C3)]
      else if char = capitalDottedI then ['i', combiningDot]
      else [database.lowercase char]) ++ lowerFrom (char :: before) rest

/-- The full lower case of a text. -/
def lower (text : List Char) : List Char := database.lowerFrom [] text

/-- The full case folding of a text. -/
def casefold (text : List Char) : List Char := text.flatMap database.caseFolding

end CharacterDatabase

/-- The target is a lower case spelling of the character that every version of the standard knows. -/
def Spells (char target : Char) : Prop :=
  (isAscii char ∧ char.toLower = target) ∨ (isIdeograph char ∧ char = target)

/-- Lower case words of ASCII characters other than the letter k and of ideographs. -/
def isPlain (char : Char) : Bool := (isAscii char && char != 'k') || isIdeograph char

section Spelling

variable {database : CharacterDatabase}

variable {text target : List Char}

theorem Spells.lowercase {target : Char} (spells : Spells char target)
    (database : CharacterDatabase) :
    database.lowercase char = target := by
  rcases spells with ⟨ascii, same⟩ | ⟨ideograph, same⟩
  · rw [database.lowercase_ascii char ascii, same]
  · rw [database.lowercase_ideograph char ideograph, same]

theorem Spells.caseFolding {target : Char} (spells : Spells char target)
    (database : CharacterDatabase) :
    database.caseFolding char = [target] := by
  rcases spells with ⟨ascii, same⟩ | ⟨ideograph, same⟩
  · rw [database.caseFolding_ascii char ascii, same]
  · rw [database.caseFolding_ideograph char ideograph, same]

/-- A character with a plain lower case spells it. -/
theorem spells_of_lowercase (plain : isPlain (database.lowercase char))
    (dotless : char ≠ capitalDottedI) :
    Spells char (database.lowercase char) := by
  rcases Bool.or_eq_true _ _ |>.mp plain with ascii | ideograph
  · obtain ⟨ascii, other⟩ := Bool.and_eq_true _ _ |>.mp ascii
    rcases database.ascii_of_lowercase char ascii with known | dotted | kelvin
    · exact .inl ⟨known, (database.lowercase_ascii char known).symm⟩
    · exact absurd dotted dotless
    · rw [kelvin, database.lowercase_kelvinSign] at other
      exact absurd other (by decide)
  · have known := database.ideograph_of_lowercase char ideograph
    exact .inr ⟨known, (database.lowercase_ideograph char known).symm⟩

/-- A text whose lower case is plain spells it character by character. -/
theorem spells_of_lowerFrom {before : List Char} (plain : ∀ char ∈ target, isPlain char)
    (same : database.lowerFrom before text = target) : List.Forall₂ Spells text target := by
  induction text generalizing before target with
  | nil =>
    rw [← same]
    exact .nil
  | cons char rest ih =>
    rw [CharacterDatabase.lowerFrom] at same
    split_ifs at same with sigma final dotted
    · have bad := plain (Char.ofNat 0x3C2) (by rw [← same]; simp)
      exact absurd bad (by decide)
    · have bad := plain (Char.ofNat 0x3C3) (by rw [← same]; simp)
      exact absurd bad (by decide)
    · have bad := plain combiningDot (by rw [← same]; simp)
      exact absurd bad (by decide)
    · rw [← same] at plain ⊢
      refine .cons (spells_of_lowercase (plain _ (by simp)) dotted) (ih ?_ rfl)
      intro other member
      exact plain other (List.mem_cons_of_mem _ member)

theorem spells_of_lower (plain : ∀ char ∈ target, isPlain char)
    (same : database.lower text = target) :
    List.Forall₂ Spells text target := spells_of_lowerFrom plain same

theorem casefold_of_spells (spells : List.Forall₂ Spells text target)
    (database : CharacterDatabase) :
    database.casefold text = target := by
  induction spells with
  | nil => rfl
  | cons head rest ih =>
    rw [CharacterDatabase.casefold, List.flatMap_cons, head.caseFolding database]
    exact congrArg _ ih

end Spelling

theorem toLower_of_not_ascii (outside : ¬ isAscii char) : char.toLower = char := by
  have large : ¬ char.toNat < 128 := fun small => outside (decide_eq_true small)
  unfold Char.toLower
  rw [dif_neg]
  rintro ⟨_, upper⟩
  have bound : char.toNat ≤ 90 := upper
  omega

theorem isAscii_toLower (ascii : isAscii char) : isAscii char.toLower := by
  have all : ∀ code < 128, isAscii (Char.ofNat code).toLower := by decide
  have lowered := all char.toNat (of_decide_eq_true ascii)
  rwa [Char.ofNat_toNat] at lowered

theorem not_ascii_of_ideograph (ideograph : isIdeograph char) : ¬ isAscii char := by
  simp only [isIdeograph, isAscii, Bool.and_eq_true, decide_eq_true_eq] at ideograph ⊢
  omega

/-- A database that knows only the entries that no version changes. -/
def CharacterDatabase.minimal : CharacterDatabase where
  category char :=
    if char.toNat < 32 || (127 ≤ char.toNat && char.toNat < 160) then .Cc
    else if char.toNat = 32 then .Zs
    else if char.toNat = 0x2028 then .Zl
    else if char.toNat = 0x2029 then .Zp
    else .Lo
  lowercase char := if char = kelvinSign then 'k' else if char = capitalDottedI then 'i' else char.toLower
  caseFolding char :=
    if char = kelvinSign then ['k'] else if char = capitalDottedI then ['i', combiningDot] else [char.toLower]
  cased _ := false
  caseIgnorable _ := false
  category_control char := by
    split_ifs with control <;> simp_all
  category_lineSeparator char := by
    split_ifs with control space line <;> simp_all
    omega
  category_paragraphSeparator char := by
    split_ifs with control space line <;> simp_all
    omega
  lowercase_ascii char ascii := by
    rw [if_neg, if_neg] <;> rintro rfl <;> exact absurd ascii (by decide)
  lowercase_ideograph char ideograph := by
    rw [if_neg, if_neg, toLower_of_not_ascii (not_ascii_of_ideograph ideograph)] <;>
      rintro rfl <;> exact absurd ideograph (by decide)
  lowercase_kelvinSign := rfl
  ascii_of_lowercase char ascii := by
    by_contra other
    push Not at other
    obtain ⟨outside, dotted, kelvin⟩ := other
    rw [if_neg kelvin, if_neg dotted, toLower_of_not_ascii outside] at ascii
    exact outside ascii
  ideograph_of_lowercase char ideograph := by
    split_ifs at ideograph with kelvin dotted
    · exact absurd ideograph (by decide)
    · exact absurd ideograph (by decide)
    · by_cases ascii : isAscii char
      · exact absurd (isAscii_toLower ascii) (not_ascii_of_ideograph ideograph)
      · rwa [toLower_of_not_ascii ascii] at ideograph
  caseFolding_ascii char ascii := by
    rw [if_neg, if_neg] <;> rintro rfl <;> exact absurd ascii (by decide)
  caseFolding_ideograph char ideograph := by
    rw [if_neg, if_neg, toLower_of_not_ascii (not_ascii_of_ideograph ideograph)] <;>
      rintro rfl <;> exact absurd ideograph (by decide)

end FinanceCore.Unicode

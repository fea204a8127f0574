import FinanceCore.Foundation.Unicode

namespace FinanceCore.Unicode

/-- The tables that normalization reads: the full canonical decompositions, the combining classes and the primary
composites. -/
structure NormalizationTables where
  decomposition : Char → List Char
  combiningClass : Char → ℕ
  composition : Char → Char → Option Char

namespace NormalizationTables

variable (tables : NormalizationTables)

/-- A mark moves behind the marks of smaller class that follow it. -/
def insertMark (char : Char) : List Char → List Char
  | [] => [char]
  | next :: rest =>
    if 0 < tables.combiningClass next ∧ tables.combiningClass next < tables.combiningClass char then
      next :: insertMark char rest
    else char :: next :: rest

/-- The canonical order of marks. -/
def reorder : List Char → List Char
  | [] => []
  | char :: rest => tables.insertMark char (reorder rest)

/-- A character is blocked from the starter by a character between them that is not of smaller class. -/
def blocked (kept : List Char) (char : Char) : Bool :=
  kept.getLast?.any fun between => tables.combiningClass char ≤ tables.combiningClass between

/-- The composition behind a starter, with the marks that were kept since. -/
def composeFrom (starter : Char) (kept : List Char) : List Char → List Char
  | [] => starter :: kept
  | char :: rest =>
    match if tables.blocked kept char then none else tables.composition starter char with
    | some composite => composeFrom composite kept rest
    | none =>
      if tables.combiningClass char = 0 then starter :: (kept ++ composeFrom char [] rest)
      else composeFrom starter (kept ++ [char]) rest

def compose : List Char → List Char
  | [] => []
  | char :: rest => if tables.combiningClass char = 0 then tables.composeFrom char [] rest else char :: compose rest

/-- Normalization form C. -/
def nfcChars (text : List Char) : List Char := tables.compose (tables.reorder (text.flatMap tables.decomposition))

def nfc (text : String) : String := String.ofList (tables.nfcChars text.toList)

end NormalizationTables

/-- Tables of a version of the standard: ASCII text is normalized, and normalization is stable. -/
structure Normalization extends NormalizationTables where
  decomposition_ascii : ∀ char, isAscii char → decomposition char = [char]
  combiningClass_ascii : ∀ char, isAscii char → combiningClass char = 0
  composition_ascii : ∀ starter char, isAscii char → composition starter char = none
  nfc_stable : ∀ text, toNormalizationTables.nfc (toNormalizationTables.nfc text) = toNormalizationTables.nfc text

section Plain

variable {tables : NormalizationTables}

variable {text : List Char}

variable (starters : ∀ char ∈ text, tables.combiningClass char = 0)

include starters in
theorem reorder_of_starters : tables.reorder text = text := by
  induction text with
  | nil => rfl
  | cons char rest ih =>
    rw [NormalizationTables.reorder, ih fun other member => starters other (by simp [member])]
    cases rest with
    | nil => rfl
    | cons next rest =>
      have zero := starters next (by simp)
      rw [NormalizationTables.insertMark, if_neg (by omega)]

include starters in
theorem composeFrom_of_plain {starter : Char}
    (single : ∀ char ∈ text, ∀ first, tables.composition first char = none) :
    tables.composeFrom starter [] text = starter :: text := by
  induction text generalizing starter with
  | nil => rfl
  | cons char rest ih =>
    have alone : (if tables.blocked [] char then none else tables.composition starter char) = none := by
      rw [single char (by simp), ite_self]
    rw [NormalizationTables.composeFrom, alone]
    simp only [starters char (by simp), if_true, List.nil_append]
    rw [ih (fun other member => starters other (by simp [member])) fun other member => single other (by simp [member])]

include starters in
/-- A text of starters that compose with nothing before them is composed. -/
theorem compose_of_plain (single : ∀ char ∈ text, ∀ first, tables.composition first char = none) :
    tables.compose text = text := by
  cases text with
  | nil => rfl
  | cons char rest =>
    rw [NormalizationTables.compose, if_pos (starters char (by simp)),
      composeFrom_of_plain (fun other member => starters other (by simp [member]))
        fun other member => single other (by simp [member])]

end Plain

/-- ASCII text is normalized. -/
theorem Normalization.nfc_ascii (normalization : Normalization) {text : String}
    (ascii : text.toList.all isAscii) :
    normalization.nfc text = text := by
  have each := List.all_eq_true.mp ascii
  have decomposed : text.toList.flatMap normalization.decomposition = text.toList := by
    have same : text.toList.flatMap normalization.decomposition = text.toList.flatMap fun char => [char] :=
      List.flatMap_congr fun char member => normalization.decomposition_ascii char (each char member)
    rw [same, List.flatMap_singleton']
  have starters := fun char member => normalization.combiningClass_ascii char (each char member)
  have single := fun char member first => normalization.composition_ascii first char (each char member)
  rw [NormalizationTables.nfc, NormalizationTables.nfcChars, decomposed, reorder_of_starters starters,
    compose_of_plain starters single, String.ofList_toList]

/-- Tables that know one canonical equivalence, of the Kelvin sign with the letter. -/
def kelvinTables : NormalizationTables where
  decomposition char := if char = kelvinSign then ['K'] else [char]
  combiningClass _ := 0
  composition _ _ := none

def Normalization.kelvin : Normalization where
  toNormalizationTables := kelvinTables
  decomposition_ascii char ascii := by
    change (if char = kelvinSign then ['K'] else [char]) = [char]
    rw [if_neg]
    rintro rfl
    exact absurd ascii (by decide)
  combiningClass_ascii _ _ := rfl
  composition_ascii _ _ _ := rfl
  nfc_stable text := by
    have plain (chars : List Char) : kelvinTables.nfcChars chars = chars.flatMap kelvinTables.decomposition := by
      rw [NormalizationTables.nfcChars, reorder_of_starters fun _ _ => rfl,
        compose_of_plain (fun _ _ => rfl) fun _ _ _ => rfl]
    simp only [NormalizationTables.nfc, String.toList_ofList, plain, List.flatMap_assoc]
    congr 1
    apply List.flatMap_congr
    intro char _
    change (if char = kelvinSign then ['K'] else [char]).flatMap kelvinTables.decomposition =
      if char = kelvinSign then ['K'] else [char]
    split_ifs with kelvin
    · decide
    · simp [kelvinTables, kelvin]

end FinanceCore.Unicode

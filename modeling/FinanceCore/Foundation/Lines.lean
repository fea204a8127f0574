import Mathlib

namespace FinanceCore.Text

open List

/-- Trimming of spaces and tabs only. -/
def isBlankChar (char : Char) : Bool := char == ' ' || char == '\t'

def stripBlanks (chars : List Char) : List Char := (chars.dropWhile isBlankChar).rdropWhile isBlankChar

/-- The pieces between the breaks of a text; a carriage return and its line feed are one break. -/
def splitBreaks (isBreak : Char → Bool) : List Char → List (List Char)
  | [] => [[]]
  | '\r' :: '\n' :: rest => [] :: splitBreaks isBreak rest
  | char :: rest =>
    if isBreak char then [] :: splitBreaks isBreak rest
    else (splitBreaks isBreak rest).modifyHead (char :: ·)

/-- The line boundaries of Unicode text. -/
def isLineBoundary (char : Char) : Bool :=
  let code := char.toNat
  (10 ≤ code && code ≤ 13) || (28 ≤ code && code ≤ 30) || code == 0x85 || code == 0x2028 || code == 0x2029

/-- The lines of a text; a boundary at the end opens no further line. -/
def splitLines (chars : List Char) : List (List Char) :=
  if (splitBreaks isLineBoundary chars).getLast? = some [] then (splitBreaks isLineBoundary chars).dropLast
  else splitBreaks isLineBoundary chars

section Strip

variable {chars : List Char} {char : Char}

theorem mem_of_mem_stripBlanks (member : char ∈ stripBlanks chars) : char ∈ chars :=
  (dropWhile_suffix _).subset (( rdropWhile_prefix _ _).subset member)

theorem mem_stripBlanks (member : char ∈ chars) (visible : isBlankChar char = false) : char ∈ stripBlanks chars := by
  have kept {values : List Char} (listed : char ∈ values) : char ∈ values.dropWhile isBlankChar := by
    rw [← takeWhile_append_dropWhile (p := isBlankChar) (l := values), mem_append] at listed
    rcases listed with early | late
    · rw [mem_takeWhile_imp early] at visible
      cases visible
    · exact late
  rw [stripBlanks, List.rdropWhile, mem_reverse]
  exact kept (mem_reverse.mpr (kept member))

end Strip

section Breaks

variable {isBreak other : Char → Bool}

theorem splitBreaks_ne_nil (isBreak : Char → Bool) (chars : List Char) : splitBreaks isBreak chars ≠ [] := by
  fun_induction splitBreaks isBreak chars with
  | case1 | case2 | case3 => simp
  | case4 char rest _ plain ih => simpa using ih

variable {chars line : List Char} {char : Char}

/-- Two notions of a break that agree on the text split it alike. -/
theorem splitBreaks_congr (agree : ∀ char ∈ chars, isBreak char = other char) :
    splitBreaks isBreak chars = splitBreaks other chars := by
  fun_induction splitBreaks isBreak chars with
  | case1 => rfl
  | case2 rest ih =>
    rw [splitBreaks, ih fun char member => agree char (by simp [member])]
  | case3 char rest ordinary found ih =>
    rw [splitBreaks, ← agree char (by simp), if_pos found, ih fun char member => agree char (by simp [member])]
    exact ordinary
  | case4 char rest ordinary absent ih =>
    rw [splitBreaks, ← agree char (by simp), if_neg absent, ih fun char member => agree char (by simp [member])]
    exact ordinary

/-- The pieces hold characters of the text that break nothing. -/
theorem of_mem_splitBreaks (piece : line ∈ splitBreaks isBreak chars) (member : char ∈ line) :
    char ∈ chars ∧ isBreak char = false := by
  fun_induction splitBreaks isBreak chars generalizing line with
  | case1 =>
    rw [mem_singleton.mp piece] at member
    cases member
  | case2 rest ih =>
    rcases mem_cons.mp piece with rfl | later
    · cases member
    · exact ⟨by simp [(ih later member).1], (ih later member).2⟩
  | case3 head rest _ found ih =>
    rcases mem_cons.mp piece with rfl | later
    · cases member
    · exact ⟨by simp [(ih later member).1], (ih later member).2⟩
  | case4 head rest _ absent ih =>
    obtain ⟨first, others, shape⟩ := exists_cons_of_ne_nil (splitBreaks_ne_nil isBreak rest)
    rw [shape] at piece ih
    rcases mem_cons.mp piece with rfl | later
    · rcases mem_cons.mp member with rfl | inside
      · exact ⟨by simp, by simpa using absent⟩
      · have known := ih (by simp) inside
        exact ⟨by simp [known.1], known.2⟩
    · have known := ih (by simp [later]) member
      exact ⟨by simp [known.1], known.2⟩

/-- A character that breaks nothing stands in a piece. -/
theorem exists_mem_splitBreaks (member : char ∈ chars) (ordinary : isBreak char = false)
    (notReturn : char ≠ '\r')
    (notFeed : char ≠ '\n') : ∃ line ∈ splitBreaks isBreak chars, char ∈ line := by
  fun_induction splitBreaks isBreak chars with
  | case1 => cases member
  | case2 rest ih =>
    have inside : char ∈ rest := by simpa [notReturn, notFeed] using member
    obtain ⟨line, piece, listed⟩ := ih inside
    exact ⟨line, by simp [piece], listed⟩
  | case3 head rest _ found ih =>
    rcases mem_cons.mp member with rfl | inside
    · rw [found] at ordinary
      cases ordinary
    · obtain ⟨line, piece, listed⟩ := ih inside
      exact ⟨line, by simp [piece], listed⟩
  | case4 head rest _ absent ih =>
    obtain ⟨first, others, shape⟩ := exists_cons_of_ne_nil (splitBreaks_ne_nil isBreak rest)
    rw [shape] at ih ⊢
    rcases mem_cons.mp member with rfl | inside
    · exact ⟨char :: first, by simp, by simp⟩
    · obtain ⟨line, piece, listed⟩ := ih inside
      rcases mem_cons.mp piece with rfl | later
      · exact ⟨head :: line, by simp, by simp [listed]⟩
      · exact ⟨line, by simp [later], listed⟩

theorem of_mem_splitLines (piece : line ∈ splitLines chars) : line ∈ splitBreaks isLineBoundary chars := by
  unfold splitLines at piece
  split_ifs at piece
  · exact mem_of_mem_dropLast piece
  · exact piece

/-- A loop that ignores empty lines reads the lines and the pieces alike. -/
theorem foldlM_splitLines {ε σ : Type} {step : σ → List Char → Except ε σ}
    (skip : ∀ state, step state [] = .ok state) (chars : List Char) (start : σ) :
    (splitLines chars).foldlM step start = (splitBreaks isLineBoundary chars).foldlM step start := by
  unfold splitLines
  split_ifs with trailing
  · have whole := dropLast_append_getLast? [] trailing
    conv_rhs => rw [← whole, foldlM_append]
    cases (splitBreaks isLineBoundary chars).dropLast.foldlM step start with
    | error failure => rfl
    | ok state => exact (congrArg (fun done => done >>= pure) (skip state)).symm
  · rfl

end Breaks

end FinanceCore.Text

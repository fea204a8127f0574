import FinanceCore.Intake.InteractionRoutes

namespace FinanceCore.Intake

open Text Unicode HumanDrafts GuidedEdit List Bool

variable {database : CharacterDatabase}

/-- The letters that a plain pattern letter also stands for are not plain. -/
theorem caseMatches_of_spells {pattern char target : Char}
    (lower : database.lowercase pattern = pattern)
    (spells : Spells char target) (plain : isPlain target) : caseMatches database pattern char = (target == pattern) := by
  have plain_ne {other : Char} (foreign : isPlain other = false) : [other].contains target = false := by
    rw [contains_eq_mem, decide_eq_false_iff_not, mem_singleton]
    rintro rfl
    rw [foreign] at plain
    cases plain
  have foreign : (extraCases pattern).contains target = false := by
    unfold extraCases
    split_ifs
    · exact plain_ne (by decide)
    · exact plain_ne (by decide)
    · rfl
  rw [caseMatches, lower, spells.lowercase database, foreign, Bool.or_false]

theorem matchWord_spelled {text word : List Char} (spelled : Forall₂ Spells text word)
    (plain : ∀ char ∈ word, isPlain char) (lower : ∀ char ∈ word, database.lowercase char = char)
    (tail : List Char) :
    matchWord database word (text ++ tail) = some tail := by
  induction spelled with
  | nil => rfl
  | cons head rest ih =>
    rw [cons_append, matchWord, caseMatches_of_spells (lower _ (by simp)) head (plain _ (by simp))]
    simpa using ih (fun char member => plain char (by simp [member])) (fun char member => lower char (by simp [member]))

/-- A word that matches a spelled text with a foreign tail is the start of what the text spells. -/
theorem prefix_of_matchWord {text target word tail rest : List Char} (spelled : Forall₂ Spells text target)
    (plain : ∀ char ∈ target, isPlain char) (lower : ∀ char ∈ word, database.lowercase char = char)
    (foreign : ∀ pattern ∈ word, ∀ char ∈ tail.head?, caseMatches database pattern char = false)
    (found : matchWord database word (text ++ tail) = some rest) :
    word <+: target ∧ rest = text.drop word.length ++ tail := by
  induction spelled generalizing word with
  | nil =>
    cases word with
    | nil => simpa [matchWord, eq_comm] using found
    | cons pattern word =>
      cases tail with
      | nil => simp [matchWord] at found
      | cons char tail =>
        rw [nil_append, matchWord, foreign pattern (by simp) char (by simp)] at found
        cases found
  | @cons char letter text target head others ih =>
    cases word with
    | nil => simpa [matchWord, eq_comm] using found
    | cons pattern word =>
      rw [cons_append, matchWord, caseMatches_of_spells (lower pattern (by simp)) head (plain _ (by simp))] at found
      split_ifs at found with same
      obtain ⟨start, shape⟩ := ih (fun char member => plain char (by simp [member]))
        (fun char member => lower char (by simp [member]))
        (fun pattern member => foreign pattern (by simp [member])) found
      rw [eq_of_beq same]
      exact ⟨(cons_prefix_cons).mpr ⟨rfl, start⟩, by simpa using shape⟩

section Labels

/-- The words of the card label pattern. -/
def patternWords : List String := "card" :: "ref" :: cardLabels

variable {word key : String} {field : CardField}

variable (listed : word ∈ patternWords)
include listed

theorem patternWord_spells {char : Char} (member : char ∈ word.toList) : Spells char char ∧ char ≠ '=' := by
  have known : ∀ word ∈ patternWords, word.toList.all fun char =>
      ((isAscii char && char.toLower == char) || isIdeograph char) && char != '=' := by decide
  have fixed := all_eq_true.mp (known word listed) char member
  simp only [and_eq_true, or_eq_true, beq_iff_eq, bne_iff_ne] at fixed
  refine ⟨?_, fixed.2⟩
  rcases fixed.1 with ascii | ideograph
  · exact .inl ascii
  · exact .inr ⟨ideograph, rfl⟩

theorem patternWord_lowercase (char : Char) (member : char ∈ word.toList) :
    database.lowercase char = char := (patternWord_spells listed member).1.lowercase database

theorem patternWord_not_equals (pattern : Char) (member : pattern ∈ word.toList) :
    caseMatches database pattern '=' = false := by
  have equals : Spells '=' '=' := .inl ⟨by decide, by decide⟩
  rw [caseMatches_of_spells (patternWord_lowercase listed pattern member) equals (by decide)]
  exact beq_eq_false_iff_ne.mpr (patternWord_spells listed member).2.symm

omit listed

/-- A field name is a card label; no other label starts it. -/
theorem of_lookup_fieldAliases (found : fieldAliases.lookup key = some field) :
    key ∈ cardLabels ∧ (∀ char ∈ key.toList, isPlain char) ∧ key ≠ "" ∧
      (∀ label ∈ cardLabels, label.toList <+: key.toList → label = key) ∧ ¬ "card".toList <+: key.toList := by
  have known : ∀ entry ∈ fieldAliases, entry.1 ∈ cardLabels ∧ entry.1.toList.all isPlain ∧ entry.1 ≠ "" ∧
      (∀ label ∈ cardLabels, label.toList <+: entry.1.toList → label = entry.1) ∧
      ¬ "card".toList <+: entry.1.toList := by decide
  obtain ⟨before, after, shape, _⟩ := lookup_eq_some_iff.mp found
  obtain ⟨listed, plain, rest⟩ := known (key, field) (by simp [shape])
  exact ⟨listed, all_eq_true.mp plain, rest⟩

variable {name after : List Char}

variable (found : fieldAliases.lookup key = some field) (spelled : Forall₂ Spells name key.toList)
include found spelled

/-- A field name right before the equals sign does not start a card line. -/
theorem cardLabelStart_equals : cardLabelStart database (name ++ '=' :: after) = false := by
  obtain ⟨_, plain, _, only, notCard⟩ := of_lookup_fieldAliases found
  have start {word : String} (listed : word ∈ patternWords) {rest : List Char}
      (matched : matchWord database word.toList (name ++ '=' :: after) = some rest) :=
    prefix_of_matchWord spelled plain (patternWord_lowercase listed) (fun pattern member char head => by
        obtain rfl := Option.some.inj head
        exact patternWord_not_equals listed pattern member) matched
  rw [cardLabelStart, or_eq_false_iff, any_eq_false]
  constructor
  · intro label listed
    cases matched : matchWord database label.toList (name ++ '=' :: after) with
    | none => simp
    | some rest =>
      obtain ⟨initial, shape⟩ := start (by simp [patternWords, listed]) matched
      rw [only label listed initial, ← spelled.length_eq, drop_length, nil_append] at shape
      have ended : endsLabel ('=' :: after) = false := by
        change (isSpace '=' || '=' == ':' || '=' == fullWidthColon) = false
        decide
      rw [shape, Option.any_some, ended]
      decide
  · unfold matchCardReference
    cases matched : matchWord database "card".toList (name ++ '=' :: after) with
    | none => rfl
    | some rest => exact absurd (start (by decide) matched).1 notCard

/-- A field name before a blank starts a card line. -/
theorem cardLabelStart_blank {blank : Char} (isBlank : isBlankChar blank) :
    cardLabelStart database (name ++ blank :: after) = true := by
  obtain ⟨listed, plain, _⟩ := of_lookup_fieldAliases found
  have lower (char : Char) (member : char ∈ key.toList) : database.lowercase char = char :=
    patternWord_lowercase (by simp [patternWords, listed]) char member
  have matched := matchWord_spelled spelled plain lower (blank :: after)
  rw [cardLabelStart, or_eq_true, any_eq_true]
  refine .inl ⟨key, listed, ?_⟩
  rw [matched]
  change (isSpace blank || blank == ':' || blank == fullWidthColon) = true
  rcases or_eq_true _ _ |>.mp isBlank with space | tab
  · rw [eq_of_beq space]
    decide
  · rw [eq_of_beq tab]
    decide

omit found spelled

theorem cardLabelStart_completionText : cardLabelStart database completionText = false := by
  have spelled : Forall₂ Spells completionText completionText :=
    .cons (.inr ⟨by decide, rfl⟩) (.cons (.inr ⟨by decide, rfl⟩) .nil)
  have plain : ∀ char ∈ completionText, isPlain char := all_eq_true.mp (by decide)
  have other : ∀ word ∈ patternWords, ¬ word.toList <+: completionText := by decide
  have missing {word : String} (listed : word ∈ patternWords) :
      matchWord database word.toList completionText = none := by
    cases matched : matchWord database word.toList completionText with
    | none => rfl
    | some rest =>
      exact absurd (prefix_of_matchWord spelled plain (patternWord_lowercase listed) (by simp) matched).1
        (other word listed)
  rw [cardLabelStart, or_eq_false_iff, any_eq_false]
  constructor
  · intro label listed
    rw [missing (by simp [patternWords, listed])]
    decide
  · rw [matchCardReference, missing (by decide)]
    rfl

end Labels

section Commands

variable {char : Char} {normalized : List Char}

variable {chars rest : List Char}

theorem stripBlanks_head (shape : stripBlanks chars = char :: rest) : isBlankChar char = false := by
  have start : stripBlanks chars <+: chars.dropWhile isBlankChar := rdropWhile_prefix _ _
  rw [shape] at start
  obtain ⟨tail, whole⟩ := start
  have first := List.head?_dropWhile_not isBlankChar chars
  rw [← whole] at first
  simpa using first

/-- Trimming a text that starts with a visible character only removes blanks at its end. -/
theorem stripBlanks_of_head (rest : List Char) (visible : isBlankChar char = false) :
    ∃ blanks, char :: rest = stripBlanks (char :: rest) ++ blanks ∧
      ∀ blank ∈ blanks, isBlankChar blank := by
  refine ⟨(char :: rest).rtakeWhile isBlankChar, ?_, fun blank => mem_rtakeWhile_imp⟩
  rw [stripBlanks, dropWhile_cons_of_neg (by simp [visible]), List.rdropWhile, List.rtakeWhile,
    ← reverse_append, takeWhile_append_dropWhile, reverse_reverse]

/-- A blank stands between the field name and the equals sign. -/
def spacedName (normalized : List Char) : Bool :=
  ((stripBlanks normalized).takeWhile (· ≠ '=')).getLast?.any isBlankChar

theorem takeWhile_append_of_mem {line : List Char} (member : char ∈ line) :
    ∃ after, line = line.takeWhile (fun other => decide (other ≠ char)) ++ char :: after := by
  induction line with
  | nil => cases member
  | cons first rest ih =>
    by_cases same : first = char
    · exact ⟨rest, by simp [same]⟩
    · obtain ⟨after, shape⟩ := ih (by simpa [Ne.symm same] using member)
      refine ⟨after, ?_⟩
      rw [takeWhile_cons_of_pos (by simpa using same), cons_append, ← shape]

theorem getLast?_isBlank {blanks : List Char} (visible : isBlankChar char = false)
    (parts : char :: rest = stripBlanks (char :: rest) ++ blanks)
    (blank : ∀ blank ∈ blanks, isBlankChar blank) :
    (char :: rest).getLast?.any isBlankChar = true ↔ blanks ≠ [] := by
  rcases eq_nil_or_concat blanks with rfl | ⟨front, last, rfl⟩
  · rw [append_nil] at parts
    have drops : (char :: rest).rdropWhile isBlankChar = char :: rest := by
      rw [stripBlanks, dropWhile_cons_of_neg (by simp [visible])] at parts
      exact parts.symm
    have last := rdropWhile_eq_self_iff.mp drops (by simp)
    rw [List.getLast?_eq_some_getLast (by simp)]
    simpa using last
  · rw [parts]
    simp [blank last (by simp)]

/-- A guided update is a spelled field name, blanks, an equals sign and a value. -/
theorem guidedShape_update {field : CardField} {value : String}
    (shape : guidedShape database normalized = .update field value) :
    '\n' ∉ normalized ∧ '=' ∈ normalized ∧ ∃ name blanks after key,
      stripBlanks normalized = name ++ (blanks ++ '=' :: after) ∧
      (∀ blank ∈ blanks, isBlankChar blank) ∧
      fieldAliases.lookup key = some field ∧ Forall₂ Spells name key.toList ∧
      (spacedName normalized = true ↔ blanks ≠ []) := by
  unfold guidedShape at shape
  split_ifs at shape with feed
  dsimp only at shape
  by_cases complete : stripBlanks normalized = completionText
  · rw [if_pos complete] at shape
    cases shape
  rw [if_neg complete] at shape
  by_cases count : (stripBlanks normalized).count '=' ≠ 1 ∨ fullWidthEquals ∈ stripBlanks normalized
  · rw [if_pos count] at shape
    cases shape
  rw [if_neg count] at shape
  have present : '=' ∈ stripBlanks normalized := count_pos_iff.mp (by omega)
  generalize named : stripBlanks normalized = line at shape present count
  split at shape
  · cases shape
  · rename_i known found
    have same : known = field := by
      split_ifs at shape
      exact (GuidedShape.update.inj shape).1
    rw [same] at found
    obtain ⟨_, plain, filled, _⟩ := of_lookup_fieldAliases found
    rw [String.toList_ofList] at plain
    have spelled := spells_of_lower plain rfl
    obtain ⟨after, whole⟩ := takeWhile_append_of_mem present
    cases start : line.takeWhile (fun char => decide (char ≠ '=')) with
    | nil =>
      rw [start] at filled
      exact absurd rfl filled
    | cons first rest =>
      rw [start] at whole spelled found
      have visible := stripBlanks_head (named.trans whole)
      obtain ⟨blanks, parts, blank⟩ := stripBlanks_of_head rest visible
      refine ⟨feed, mem_of_mem_stripBlanks (named ▸ present), stripBlanks (first :: rest), blanks, after, _, ?_, blank,
        found, ?_, ?_⟩
      · rw [← append_assoc, ← parts]
        exact whole
      · rw [String.toList_ofList]
        exact spelled
      · unfold spacedName
        rw [named, start]
        exact getLast?_isBlank visible parts blank

theorem guidedShape_complete (shape : guidedShape database normalized = .complete) :
    '\n' ∉ normalized ∧ stripBlanks normalized = completionText := by
  unfold guidedShape at shape
  split_ifs at shape with feed
  dsimp only at shape
  by_cases complete : stripBlanks normalized = completionText
  · exact ⟨feed, complete⟩
  rw [if_neg complete] at shape
  split at shape
  · cases shape
  · split at shape
    · cases shape
    · split_ifs at shape

/-- A completion has no card marker. -/
theorem hasCardMarker_completion (line : stripBlanks normalized = completionText) :
    hasCardMarker database normalized = false := by
  have each (char : Char) (member : char ∈ normalized) : Spells char char ∧ char ≠ 'd' := by
    cases blank : isBlankChar char with
    | true =>
      rcases or_eq_true _ _ |>.mp blank with space | tab
      · rw [eq_of_beq space]
        exact ⟨.inl ⟨by decide, by decide⟩, by decide⟩
      · rw [eq_of_beq tab]
        exact ⟨.inl ⟨by decide, by decide⟩, by decide⟩
    | false =>
      have inside := mem_stripBlanks member blank
      rw [line] at inside
      rcases mem_cons.mp inside with rfl | rest
      · exact ⟨.inr ⟨by decide, rfl⟩, by decide⟩
      · rw [mem_singleton.mp rest]
        exact ⟨.inr ⟨by decide, rfl⟩, by decide⟩
  have folded : database.casefold normalized = normalized :=
    casefold_of_spells (forall₂_same.mpr fun char member => (each char member).1) database
  rw [hasCardMarker, folded, any_eq_false]
  intro tail listed found
  have start : cardMarker <+: tail := isPrefixOf_iff_prefix.mp found
  have inside : 'd' ∈ normalized := ((mem_tails _ _).mp listed).subset (start.subset (by decide))
  exact (each 'd' inside).2 rfl

/-- A chat with one active guided session. -/
def editingContext : InteractionContext := ⟨"actor", ⟨"account", "conversation", "binding"⟩⟩

def editingTables : Tables :=
  ⟨Dict.empty.set 1 ⟨1, ⟨1, 0, "hash"⟩, "actor", editingContext.chat, .active, 100, 7, none, none⟩, []⟩

end Commands

end FinanceCore.Intake

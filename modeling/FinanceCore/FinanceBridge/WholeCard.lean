import FinanceCore.HumanDrafts.CardFields

namespace FinanceCore.FinanceBridge

open Exceptions Text Unicode HumanDrafts List

variable {plugin core : CharacterDatabase} {card next : Card} {line : List Char}

structure ParsedWholeCard where
  cardReference : String
  fields : CardField → String

inductive WholeCardError where
  | unsafeText
  | noLabelSeparator
  | referenceDuplicated
  | unknownLabel
  | fieldDuplicated
  | referenceInvalid
  | fieldMissing

def wholeCardLabels : List (String × CardField) :=
  [("amount", .amount), ("金额", .amount), ("currency", .currency), ("币种", .currency), ("date", .transactionDate),
    ("日期", .transactionDate), ("merchant", .merchant), ("商户", .merchant), ("description", .description),
    ("描述", .description), ("category", .category), ("分类", .category)]

def wholeCardReferenceLabels : List String := ["card ref", "资料卡编号"]

/-- The plugin's breaks are line feeds and carriage returns. -/
def isCardBreak (char : Char) : Bool := char == '\n' || char == '\r'

section Parser

variable (database : CharacterDatabase)

def isUnsafeScalar (allowLineBreaks : Bool) (char : Char) : Bool :=
  [.Cf, .Co, .Cn, .Zl, .Zp].contains (database.category char) ||
    (char.toNat < 32 && !(char == '\t' || (allowLineBreaks && (char == '\r' || char == '\n')))) || char.toNat = 127

def containsUnsafeScalar (text : List Char) (allowLineBreaks : Bool) : Bool :=
  text.any (isUnsafeScalar database allowLineBreaks)

/-- A card reference is the fixed start and 32 lower case hexadecimal digits. -/
def isCardReference (reference : String) : Bool :=
  reference.toList.take 7 == "d1card_".toList && (reference.toList.drop 7).length = 32 &&
    (reference.toList.drop 7).all isLowerHex

def parseWholeCardLine (card : Card) (rawLine : List Char) : Except WholeCardError Card :=
  if (stripBlanks rawLine).length = 0 then .ok card
  else do
    let (label, value) ← expect (splitLabel (stripBlanks rawLine)) .noLabelSeparator
    let canonicalLabel := String.ofList (database.lower label)
    if canonicalLabel ∈ wholeCardReferenceLabels then do
      require (card.reference = none) .referenceDuplicated
      return { card with reference := some (String.ofList value) }
    else do
      let field ← expect (wholeCardLabels.lookup canonicalLabel) .unknownLabel
      require (card.fields.get? field = none) .fieldDuplicated
      return { card with fields := card.fields.set field (String.ofList value) }

def parseWholeCard (text : String) : Except WholeCardError ParsedWholeCard := do
  require (text.toList.length ≠ 0 ∧ text.utf8ByteSize ≤ 16384 ∧
    containsUnsafeScalar database text.toList true = false) .unsafeText
  let card ← (splitBreaks isCardBreak text.toList).foldlM (parseWholeCardLine database) Card.blank
  let cardReference ← expect (card.reference.filter isCardReference) .referenceInvalid
  require (∀ field ∈ fields, (card.fields.get? field).isSome) .fieldMissing
  return ⟨cardReference, fun field => (card.fields.get? field).getD ""⟩

end Parser

section Lines

variable {key : String}

/-- The plugin's labels are plain words that Core knows as labels of the same fields. -/
theorem of_lookup_wholeCardLabels {field : CardField} (found : wholeCardLabels.lookup key = some field) :
    key ∉ referenceLabels ∧ labels.lookup key = some field ∧ ∀ char ∈ key.toList, isPlain char := by
  have known : ∀ entry ∈ wholeCardLabels,
      entry.1 ∉ referenceLabels ∧ labels.lookup entry.1 = some entry.2 ∧ entry.1.toList.all isPlain := by
    decide
  obtain ⟨before, after, shape, _⟩ := lookup_eq_some_iff.mp found
  obtain ⟨other, same, plain⟩ := known (key, field) (by simp [shape])
  exact ⟨other, same, all_eq_true.mp plain⟩

theorem of_mem_wholeCardReferenceLabels (listed : key ∈ wholeCardReferenceLabels) :
    key ∈ referenceLabels ∧ ∀ char ∈ key.toList, isPlain char := by
  have known : ∀ label ∈ wholeCardReferenceLabels, label ∈ referenceLabels ∧ label.toList.all isPlain := by
    decide
  exact ⟨(known key listed).1, all_eq_true.mp (known key listed).2⟩

/-- The plugin skips a blank line, and it reads a line whose label spells a known key in any version of Unicode. -/
theorem parseWholeCardLine_ok (run : parseWholeCardLine plugin card line = .ok next) :
    (stripBlanks line = [] ∧ next = card) ∨
      ∃ label value key, splitLabel (stripBlanks line) = some (label, value) ∧
      stripBlanks line ≠ [] ∧
        Forall₂ Spells label key.toList ∧ Card.Reads card key value next := by
  unfold parseWholeCardLine at run
  split_ifs at run with blank
  · exact .inl ⟨length_eq_zero_iff.mp blank, (Except.ok.inj run).symm⟩
  · obtain ⟨⟨label, value⟩, split, run⟩ := bind_ok.mp run
    have filled : stripBlanks line ≠ [] := fun empty => blank (length_eq_zero_iff.mpr empty)
    have spelled {key : String} (same : String.ofList (plugin.lower label) = key)
        (plain : ∀ char ∈ key.toList, isPlain char) : Forall₂ Spells label key.toList := by
      apply spells_of_lower plain
      rw [← same, String.toList_ofList]
    refine .inr ⟨label, value, _, expect_ok.mp split, filled, spelled rfl ?_, ?_⟩
    all_goals dsimp only at run; split_ifs at run with reference
    · exact (of_mem_wholeCardReferenceLabels reference).2
    · obtain ⟨field, found, _⟩ := bind_ok.mp run
      exact (of_lookup_wholeCardLabels (expect_ok.mp found)).2.2
    · obtain ⟨_, absent, run⟩ := bind_ok.mp run
      exact .inl ⟨(of_mem_wholeCardReferenceLabels reference).1, require_ok.mp absent, (pure_ok.mp run).symm⟩
    · obtain ⟨field, found, run⟩ := bind_ok.mp run
      obtain ⟨_, absent, run⟩ := bind_ok.mp run
      have known := of_lookup_wholeCardLabels (expect_ok.mp found)
      exact .inr ⟨known.1, field, known.2.1, require_ok.mp absent, (pure_ok.mp run).symm⟩

/-- Core reads every line that the plugin reads, with the same effect. -/
theorem parseCardLine_of_wholeCard (core : CharacterDatabase)
    (run : parseWholeCardLine plugin card line = .ok next) :
    parseCardLine core card line = .ok next := by
  rw [parseCardLine_eq_ok]
  rcases parseWholeCardLine_ok run with blank | ⟨label, value, key, split, filled, spelled, reads⟩
  · exact .inl blank
  · refine .inr ⟨label, value, split, filled, ?_⟩
    rwa [casefold_of_spells spelled core, String.ofList_toList]

end Lines

section Agreement

/-- The next line control, which ends a line in Core and is an ordinary character for the plugin. -/
def nextLine : Char := Char.ofNat 0x85

variable {char : Char} {reference : String}

variable (run : parseWholeCardLine plugin card line = .ok next) {text : String}
include run

/-- A next line control of a line that the plugin reads stands in the value of the line. -/
theorem shows_of_parseWholeCardLine (member : nextLine ∈ line) : next.Shows nextLine := by
  have visible := mem_stripBlanks member (by decide)
  rcases parseWholeCardLine_ok run with ⟨blank, _⟩ | ⟨label, value, key, split, _, spelled, reads⟩
  · rw [blank] at visible
    cases visible
  · obtain ⟨before, colon, after, shape, isColon, rfl, rfl⟩ := splitLabel_eq_some split
    rw [shape] at visible
    rcases mem_append.mp visible with inLabel | rest
    · obtain ⟨target, _, spells⟩ := exists_of_mem_forall₂ spelled.flip (mem_stripBlanks inLabel (by decide))
      rcases spells with ⟨ascii, _⟩ | ⟨ideograph, _⟩
      · exact absurd ascii (by decide)
      · exact absurd ideograph (by decide)
    · rcases mem_cons.mp rest with same | inValue
      · rcases isColon with rfl | rfl <;> exact absurd same (by decide)
      · exact reads.shows_value (mem_stripBlanks inValue (by decide))

theorem shows_mono_of_parseWholeCardLine (shown : card.Shows char) : next.Shows char := by
  rcases parseWholeCardLine_ok run with ⟨_, rfl⟩ | ⟨_, _, _, _, _, _, reads⟩
  · exact shown
  · exact reads.shows_mono shown

omit run

/-- A line without the character adds no value that shows it. -/
theorem not_shows_of_parseCardLine (run : parseCardLine core card line = .ok next)
    (absent : char ∉ line) (hidden : ¬ card.Shows char) : ¬ next.Shows char := by
  rcases parseCardLine_eq_ok.mp run with ⟨_, rfl⟩ | ⟨label, value, split, _, reads⟩
  · exact hidden
  · obtain ⟨before, colon, after, shape, _, _, rfl⟩ := splitLabel_eq_some split
    have outside : char ∉ stripBlanks after := by
      intro member
      apply absent
      apply mem_of_mem_stripBlanks
      rw [shape]
      simp [mem_of_mem_stripBlanks member]
    exact reads.not_shows outside hidden

/-- No value that Core reads shows a line boundary. -/
theorem not_shows_of_parseCardFields {values : Dict CardField String}
    (run : parseCardFields core text = .ok (reference, values)) (field : CardField) (value : String)
    (found : values.get? field = some value) : nextLine ∉ value.toList := by
  simp only [parseCardFields, bind_ok] at run
  obtain ⟨_, _, card, folded, _, _, _, _, _, _, run⟩ := run
  have hidden : ¬ card.Shows nextLine := by
    refine foldlM_invariant (fun state => ¬ state.Shows nextLine) ?_ ?_ folded
    · intro state line next piece before step
      apply not_shows_of_parseCardLine step _ before
      intro member
      exact absurd (of_mem_splitBreaks (of_mem_splitLines piece) member).2 (by decide)
    · rintro (⟨_, absent, _⟩ | ⟨_, _, absent, _⟩) <;> cases absent
  obtain ⟨_, rfl⟩ := Prod.mk.inj (pure_ok.mp run)
  exact fun member => hidden (.inr ⟨field, value, found, member⟩)

/-- A next line control of any line that the plugin reads is shown by the card. -/
theorem shows_of_parseWholeCard {lines : List (List Char)} {read : Card}
    (folded : lines.foldlM (parseWholeCardLine plugin) Card.blank = .ok read) (piece : line ∈ lines)
    (member : nextLine ∈ line) : read.Shows nextLine := by
  let shown (before : List (List Char)) (state : Card) : Prop :=
    ∀ line ∈ before, nextLine ∈ line → state.Shows nextLine
  have all : shown lines read := by
    refine foldlM_visited shown ?_ (by simp [shown]) folded
    intro before value after state next _ earlier step line listed inside
    rcases mem_append.mp listed with old | new
    · exact shows_mono_of_parseWholeCardLine step (earlier line old inside)
    · rw [mem_singleton.mp new] at inside
      exact shows_of_parseWholeCardLine step inside
  exact all line piece member

/-- What an accepted card has passed. -/
theorem parseWholeCard_ok {card : ParsedWholeCard} (accepted : parseWholeCard plugin text = .ok card) :
    containsUnsafeScalar plugin text.toList true = false ∧
      ∃ read, (splitBreaks isCardBreak text.toList).foldlM (parseWholeCardLine plugin) Card.blank = .ok read ∧
        read.reference = some card.cardReference ∧ isCardReference card.cardReference ∧
        ∀ field, read.fields.get? field = some (card.fields field) := by
  simp only [parseWholeCard, bind_ok, require_ok, expect_ok] at accepted
  obtain ⟨_, safe, read, folded, reference, named, _, complete, run⟩ := accepted
  obtain ⟨found, valid⟩ := Option.filter_eq_some_iff.mp named
  rw [← pure_ok.mp run]
  refine ⟨safe.2.2, read, folded, found, valid, ?_⟩
  intro field
  obtain ⟨value, stored⟩ := Option.isSome_iff_exists.mp (complete field (mem_fields field))
  simp [stored]

/-- The characters of an accepted card break lines alike, but for the next line control. -/
theorem isLineBoundary_of_safe (safe : isUnsafeScalar plugin true char = false)
    (other : char ≠ nextLine) :
    isCardBreak char = isLineBoundary char ∧ isCardControl char = false := by
  obtain ⟨kinds, _⟩ := Bool.or_eq_false_iff.mp safe
  obtain ⟨categories, control⟩ := Bool.or_eq_false_iff.mp kinds
  have noLine : char.toNat ≠ 0x2028 := by
    intro same
    rw [(plugin.category_lineSeparator char).mpr same] at categories
    exact absurd categories (by decide)
  have noParagraph : char.toNat ≠ 0x2029 := by
    intro same
    rw [(plugin.category_paragraphSeparator char).mpr same] at categories
    exact absurd categories (by decide)
  by_cases small : char.toNat < 32
  · have allowed : char = '\t' ∨ char = '\r' ∨ char = '\n' := by
      by_contra other
      push Not at other
      simp [small, other] at control
    rcases allowed with rfl | rfl | rfl <;> decide
  · have notNext : char.toNat ≠ 0x85 := fun same => other (Char.toNat_inj.mp same)
    have notFeed : char ≠ '\n' := by
      rintro rfl
      exact small (by decide)
    have notReturn : char ≠ '\r' := by
      rintro rfl
      exact small (by decide)
    have noBoundary : isLineBoundary char = false := by
      simp only [isLineBoundary, Bool.or_eq_false_iff, Bool.and_eq_false_iff, decide_eq_false_iff_not, beq_eq_false_iff_ne]
      omega
    simp [isCardBreak, isCardControl, noBoundary, notFeed, notReturn, noLine, noParagraph, small]

theorem validReference_of_isCardReference (valid : isCardReference reference) : validReference reference := by
  unfold isCardReference at valid
  unfold validReference
  simp only [Bool.and_eq_true, beq_iff_eq, decide_eq_true_eq, length_drop] at valid ⊢
  obtain ⟨⟨start, count⟩, digits⟩ := valid
  refine ⟨⟨by omega, ?_⟩, digits⟩
  rw [ isPrefixOf_iff_prefix, ← start]
  exact take_prefix 7 _

theorem nextLine_not_mem_reference (valid : isCardReference reference) : nextLine ∉ reference.toList := by
  unfold isCardReference at valid
  simp only [Bool.and_eq_true, beq_iff_eq, decide_eq_true_eq] at valid
  obtain ⟨⟨start, _⟩, digits⟩ := valid
  rw [← take_append_drop 7 reference.toList, start, mem_append, not_or]
  refine ⟨by decide, ?_⟩
  intro member
  exact absurd (all_eq_true.mp digits _ member) (by decide)

/-- Core reads a card that the plugin accepts, with the same reference and the same six values, exactly when the card
has no next line control. -/
theorem whole_card_agreement (plugin core : CharacterDatabase) (text : String)
    (card : ParsedWholeCard) (accepted : parseWholeCard plugin text = .ok card) :
    (∃ values, parseCardFields core text = .ok (card.cardReference, values) ∧
      ∀ field, values.get? field = some (card.fields field)) ↔ nextLine ∉ text.toList := by
  obtain ⟨safe, read, folded, named, valid, stored⟩ := parseWholeCard_ok accepted
  have each (char : Char) (member : char ∈ text.toList) : isUnsafeScalar plugin true char = false := by
    simpa using List.any_eq_false.mp safe char member
  constructor
  · rintro ⟨values, run, same⟩ member
    have ordinary : isCardBreak nextLine = false := by decide
    obtain ⟨line, piece, listed⟩ := exists_mem_splitBreaks member ordinary (by decide) (by decide)
    have shown := shows_of_parseWholeCard folded piece listed
    have hidden := not_shows_of_parseCardFields run
    rcases shown with ⟨reference, found, inside⟩ | ⟨field, value, found, inside⟩
    · rw [named] at found
      rw [← Option.some.inj found] at inside
      exact nextLine_not_mem_reference valid inside
    · rw [stored field] at found
      rw [← Option.some.inj found] at inside
      exact hidden field _ (same field) inside
  · intro absent
    have known (char : Char) (member : char ∈ text.toList) :=
      isLineBoundary_of_safe (each char member) (fun same => absent (same ▸ member))
    have transferred : (splitBreaks isCardBreak text.toList).foldlM (parseCardLine core) Card.blank = .ok read := by
      refine foldlM_visited (fun before state => before.foldlM (parseCardLine core) Card.blank = .ok state)
        ?_ rfl folded
      intro before line after state next _ reached step
      rw [List.foldlM_append, reached]
      simpa using parseCardLine_of_wholeCard core step
    rw [splitBreaks_congr fun char member => (known char member).1] at transferred
    have plain : text.toList.all fun char => !isCardControl char := by
      rw [List.all_eq_true]
      intro char member
      rw [(known char member).2]
      rfl
    have filled : read.fields.entries ≠ [] := by
      intro empty
      have missing : read.fields.get? .amount = none := by
        unfold Dict.get?
        rw [empty]
        rfl
      rw [stored] at missing
      cases missing
    have skip (state : Card) : parseCardLine core state [] = .ok state := rfl
    refine ⟨read.fields, ?_, stored⟩
    simp only [parseCardFields, require, if_pos plain, ok_bind, foldlM_splitLines skip, transferred, expect, named,
      if_pos (validReference_of_isCardReference valid), if_pos filled]
    rfl

/-- A card in the plugin's own format, with the given merchant. -/
def englishCard (merchant : String) : String :=
  "Card Ref: d1card_aaaaaaaaaaaaaaaaaaaaaaaaaaaaaaaa\nAmount: 12.50\nCurrency: SGD\nDate: 2026-09-19\nMerchant: " ++
    merchant ++ "\nDescription: Lunch\nCategory: Food"

theorem whole_card_agreement_plain :
    ∃ card, parseWholeCard .minimal (englishCard "Example: Cafe") = .ok card ∧
      ∃ values, parseCardFields .minimal (englishCard "Example: Cafe") = .ok (card.cardReference, values) ∧
        ∀ field, values.get? field = some (card.fields field) := by
  obtain ⟨card, accepted⟩ : ∃ card, parseWholeCard .minimal (englishCard "Example: Cafe") = .ok card := by
    decide +kernel
  exact ⟨card, accepted, (whole_card_agreement _ _ _ card accepted).mpr (by decide +kernel)⟩

theorem whole_card_next_line_refused :
    (parseWholeCard .minimal (englishCard "Cafe\u0085Two")).isOk ∧
      parseCardFields .minimal (englishCard "Cafe\u0085Two") = .error .cardFormat :=
  ⟨by decide +kernel, by decide +kernel⟩

end Agreement

end FinanceCore.FinanceBridge

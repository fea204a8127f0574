import FinanceCore.Foundation.Dict
import FinanceCore.Foundation.Lines
import FinanceCore.Foundation.Unicode

namespace FinanceCore.HumanDrafts

open Exceptions Text Unicode List String

inductive CardField where
  | amount
  | currency
  | transactionDate
  | merchant
  | description
  | category
deriving DecidableEq

/-- The six supported fields in their order. -/
def fields : List CardField := [.amount, .currency, .transactionDate, .merchant, .description, .category]

theorem mem_fields (field : CardField) : field ∈ fields := by
  cases field <;> decide

def labels : List (String × CardField) :=
  [("金额", .amount), ("amount", .amount), ("币种", .currency), ("currency", .currency), ("日期", .transactionDate),
    ("date", .transactionDate), ("商户", .merchant), ("merchant", .merchant), ("描述", .description),
    ("description", .description), ("分类", .category), ("category", .category)]

def referenceLabels : List String := ["资料卡编号", "card ref"]

def isLowerHex (char : Char) : Bool := "0123456789abcdef".toList.contains char

def fullWidthColon : Char := '：'

/-- The first colon of a line, in either width. -/
def labelPosition (line : List Char) : Option ℕ :=
  [line.idxOf? ':', line.idxOf? fullWidthColon].reduceOption.min?

/-- The label and the value of a line, around its first colon. -/
def splitLabel (line : List Char) : Option (List Char × List Char) :=
  (labelPosition line).map fun position =>
    (stripBlanks (line.take position), stripBlanks (line.drop (position + 1)))

/-- What the lines of a card have given so far. -/
structure Card where
  reference : Option String
  fields : Dict CardField String

def Card.blank : Card := ⟨none, Dict.empty⟩

inductive CardRefusal where
  | controlCharacter
  | cardFormat
  | referenceDuplicate
  | unknownField
  | duplicateField
  | referenceMissing
  | referenceInvalid
  | noSupportedField
deriving DecidableEq

/-- A line separator, a paragraph separator or a control character other than a line end or a tab. -/
def isCardControl (char : Char) : Bool :=
  char.toNat = 0x2028 || char.toNat = 0x2029 || (char.toNat < 32 && !(['\r', '\n', '\t'].contains char))

section Parser

variable (database : CharacterDatabase)

def parseCardLine (card : Card) (line : List Char) : Except CardRefusal Card :=
  if stripBlanks line = [] then .ok card
  else do
    let (label, value) ← expect (splitLabel (stripBlanks line)) .cardFormat
    let key := String.ofList (database.casefold label)
    if key ∈ referenceLabels then do
      require (card.reference = none) .referenceDuplicate
      return { card with reference := some (String.ofList value) }
    else do
      let field ← expect (labels.lookup key) .unknownField
      require (card.fields.get? field = none) .duplicateField
      return { card with fields := card.fields.set field (String.ofList value) }

def validReference (reference : String) : Bool :=
  reference.toList.length = 39 && "d1card_".toList.isPrefixOf reference.toList &&
    (reference.toList.drop 7).all isLowerHex

def parseCardFields (rawCardText : String) : Except CardRefusal (String × Dict CardField String) := do
  require (rawCardText.toList.all fun char => !isCardControl char) .controlCharacter
  let card ← (splitLines rawCardText.toList).foldlM (parseCardLine database) Card.blank
  let reference ← expect card.reference .referenceMissing
  require (validReference reference) .referenceInvalid
  require (card.fields.entries ≠ []) .noSupportedField
  return (reference, card.fields)

/-- A card is routed when it is small enough and names all six fields. -/
def parseHumanDraftCardStructureForRouting (rawCardText : String) : Option String :=
  if 16384 < rawCardText.utf8ByteSize then none
  else
    match parseCardFields database rawCardText with
    | .ok (reference, values) => if fields.all fun field => (values.get? field).isSome then some reference else none
    | .error _ => none

end Parser

section Lines

variable {value : List Char} {card next : Card} {key : String} {char : Char}

/-- The two parts of a split line, around a colon. -/
theorem splitLabel_eq_some {line label : List Char} (found : splitLabel line = some (label, value)) :
    ∃ before colon after, line = before ++ colon :: after ∧ (colon = ':' ∨ colon = fullWidthColon) ∧
      label = stripBlanks before ∧ value = stripBlanks after := by
  obtain ⟨position, place, parts⟩ := Option.map_eq_some_iff.mp found
  have listed : position ∈ [line.idxOf? ':', line.idxOf? fullWidthColon].reduceOption := min?_mem place
  obtain ⟨colon, isColon, found⟩ :
      ∃ colon, (colon = ':' ∨ colon = fullWidthColon) ∧ line.idxOf? colon = some position := by
    rw [reduceOption_mem_iff, mem_cons, mem_singleton] at listed
    rcases listed with ascii | wide
    · exact ⟨':', .inl rfl, ascii.symm⟩
    · exact ⟨fullWidthColon, .inr rfl, wide.symm⟩
  obtain ⟨inside, same, _⟩ := findIdx?_eq_some_iff_getElem.mp found
  obtain ⟨rfl, rfl⟩ := Prod.mk.inj parts
  refine ⟨line.take position, colon, line.drop (position + 1), ?_, isColon, rfl, rfl⟩
  rw [← eq_of_beq same, cons_getElem_drop_succ, take_append_drop]

/-- What a labelled line adds to a card, for the key that its label spells. -/
def Card.Reads (card : Card) (key : String) (value : List Char) (next : Card) : Prop :=
  (key ∈ referenceLabels ∧ card.reference = none ∧ next = { card with reference := some (String.ofList value) }) ∨
  (key ∉ referenceLabels ∧ ∃ field, labels.lookup key = some field ∧ card.fields.get? field = none ∧
    next = { card with fields := card.fields.set field (String.ofList value) })

/-- Core skips a blank line and reads a line with a label that it knows. -/
theorem parseCardLine_eq_ok {database : CharacterDatabase} {line : List Char} :
    parseCardLine database card line = .ok next ↔ (stripBlanks line = [] ∧ next = card) ∨
        ∃ label value, splitLabel (stripBlanks line) = some (label, value) ∧ stripBlanks line ≠ [] ∧
          Card.Reads card (ofList (database.casefold label)) value next := by
  unfold parseCardLine
  constructor
  · intro run
    split_ifs at run with blank
    · exact .inl ⟨blank, (Except.ok.inj run).symm⟩
    · obtain ⟨⟨label, value⟩, split, run⟩ := bind_ok.mp run
      refine .inr ⟨label, value, expect_ok.mp split, blank, ?_⟩
      dsimp only at run
      split_ifs at run with listed
      · obtain ⟨_, absent, run⟩ := bind_ok.mp run
        exact .inl ⟨listed, require_ok.mp absent, (pure_ok.mp run).symm⟩
      · obtain ⟨field, found, run⟩ := bind_ok.mp run
        obtain ⟨_, absent, run⟩ := bind_ok.mp run
        exact .inr ⟨listed, field, expect_ok.mp found, require_ok.mp absent, (pure_ok.mp run).symm⟩
  · rintro (⟨blank, rfl⟩ | ⟨label, value, split, filled, reads⟩)
    · rw [if_pos blank]
    · rw [if_neg filled, split]
      rcases reads with ⟨listed, absent, rfl⟩ | ⟨unlisted, field, found, absent, rfl⟩
      · simp only [expect, ok_bind, if_pos listed, require, if_pos absent]
        rfl
      · simp only [expect, ok_bind, if_neg unlisted, found, require, if_pos absent]
        rfl

/-- The character stands in the reference or in a value of the card. -/
def Card.Shows (card : Card) (char : Char) : Prop :=
  (∃ reference, card.reference = some reference ∧ char ∈ reference.toList) ∨
    ∃ field value, card.fields.get? field = some value ∧ char ∈ value.toList

variable (reads : Card.Reads card key value next)
include reads

theorem Card.Reads.shows_value (member : char ∈ value) : next.Shows char := by
  rcases reads with ⟨_, _, rfl⟩ | ⟨_, field, _, _, rfl⟩
  · exact .inl ⟨_, rfl, by rwa [toList_ofList]⟩
  · refine .inr ⟨field, ofList value, ?_, by rwa [toList_ofList]⟩
    rw [Dict.get?_set, if_pos rfl]

theorem Card.Reads.shows_mono (shown : card.Shows char) : next.Shows char := by
  rcases reads with ⟨_, absent, rfl⟩ | ⟨_, field, _, absent, rfl⟩
  · rcases shown with ⟨reference, found, _⟩ | inField
    · rw [absent] at found
      cases found
    · exact .inr inField
  · rcases shown with inReference | ⟨other, stored, found, member⟩
    · exact .inl inReference
    · refine .inr ⟨other, stored, ?_, member⟩
      rw [Dict.get?_set, if_neg, found]
      rintro rfl
      rw [absent] at found
      cases found

theorem Card.Reads.not_shows (absent : char ∉ value) (hidden : ¬ card.Shows char) : ¬ next.Shows char := by
  rcases reads with ⟨_, _, rfl⟩ | ⟨_, field, _, _, rfl⟩
  · rintro (⟨reference, found, member⟩ | inField)
    · rw [← Option.some.inj found, toList_ofList] at member
      exact absent member
    · exact hidden (.inr inField)
  · rintro (inReference | ⟨other, stored, found, member⟩)
    · exact hidden (.inl inReference)
    · rcases Dict.get?_set_cases found with ⟨_, rfl⟩ | ⟨_, earlier⟩
      · rw [toList_ofList] at member
        exact absent member
      · exact hidden (.inr ⟨other, stored, earlier, member⟩)

end Lines

end FinanceCore.HumanDrafts

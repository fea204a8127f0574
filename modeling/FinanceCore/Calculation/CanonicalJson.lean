import FinanceCore.Foundation.Calendar
import FinanceCore.Foundation.Json
import FinanceCore.Foundation.Normalization
import FinanceCore.Money.CanonicalText

namespace FinanceCore.Calculation

open Calendar Decimal Exceptions Money Unicode List Option Prod Except Json String

variable {tables : NormalizationTables}

inductive SequenceKind where
  | list
  | tuple

/-- The values that authoritative serialization looks at. -/
inductive Value where
  | null
  | boolean (value : Bool)
  | text (value : String)
  | decimal (value : Literal)
  | float
  | integer (value : ℤ)
  | datetime (value : DateTime)
  | date (value : CalendarDate)
  | mapping (entries : List (String × Value))
  | sequence (kind : SequenceKind) (items : List Value)

inductive CanonicalSerializationError where
  | decimalNotFinite
  | decimalTooLong
  | floatUnsupported
  | naiveDatetime
  | datetimeOutOfRange
  | duplicateKeys
deriving DecidableEq

def canonicalJsonContractVersion : String := "finance-canonical-json-v1"

/-- A scalar of a special kind is written as an object with one tagged text. -/
def tagged (tag text : String) : Json.Value := .object [(tag, .text text)]

def normalizeDecimal : Literal → Except CanonicalSerializationError Json.Value
  | .finite number => tagged "$decimal" <$> expect (canonicalDecimalStr number) .decimalTooLong
  | _ => .error .decimalNotFinite

def normalizeDatetime (value : DateTime) : Except CanonicalSerializationError Json.Value := do
  let offset ← expect value.offset .naiveDatetime
  let utc ← expect (toUtc value.date value.time offset) .datetimeOutOfRange
  return tagged "$datetime" (String.ofList (isoDateTime utc))

section Normalize

variable (tables : NormalizationTables)

mutual

def normalize : Value → Except CanonicalSerializationError Json.Value
  | .null => .ok .null
  | .boolean value => .ok (.boolean value)
  | .text value => .ok (.text (tables.nfc value))
  | .decimal value => normalizeDecimal value
  | .float => .error .floatUnsupported
  | .integer value => .ok (.integer value)
  | .datetime value => normalizeDatetime value
  | .date value => .ok (tagged "$date" (String.ofList (isoDate value)))
  | .mapping entries => Json.Value.object <$> normalizeEntries entries []
  | .sequence _ items => Json.Value.array <$> normalizeItems items

def normalizeItems : List Value → Except CanonicalSerializationError (List Json.Value)
  | [] => .ok []
  | item :: items => do
    let first ← normalize item
    let rest ← normalizeItems items
    return first :: rest

/-- The entries under their normalized keys, which must stay distinct. -/
def normalizeEntries :
    List (String × Value) → List String → Except CanonicalSerializationError (List (String × Json.Value))
  | [], _ => .ok []
  | (key, value) :: entries, seen => do
    require (tables.nfc key ∉ seen) .duplicateKeys
    let first ← normalize value
    let rest ← normalizeEntries entries (tables.nfc key :: seen)
    return (tables.nfc key, first) :: rest

end

def envelope (value : Json.Value) : Json.Value :=
  .object [("contract_version", .text canonicalJsonContractVersion), ("value", value)]

def canonicalJsonText (value : Value) : Except CanonicalSerializationError String := do
  let normalized ← normalize tables value
  return String.ofList (Json.dumps false (envelope normalized))

def canonicalJsonBytes (value : Value) : Except CanonicalSerializationError ByteArray :=
  String.toUTF8 <$> canonicalJsonText tables value

end Normalize

section Sameness

variable (tables : NormalizationTables)

/-- The tag and the text that stand for a scalar of a special kind. -/
def spelling : Value → Option (String × String)
  | .decimal (.finite number) => (canonicalDecimalStr number).map ("$decimal", ·)
  | .date value => some ("$date", String.ofList (isoDate value))
  | .datetime value => do
    let utc ← toUtc value.date value.time (← value.offset)
    return ("$datetime", String.ofList (isoDateTime utc))
  | _ => none

/-- The entries are one text under one key, and they spell the scalar. -/
def Spells (scalar : Value) (entries : List (String × Value)) : Prop :=
  ∃ key text, entries = [(key, .text text)] ∧ spelling scalar = some (tables.nfc key, tables.nfc text)

/-- The moment of an aware datetime. -/
def moment? (value : DateTime) : Option ℤ :=
  value.offset.map fun offset => momentOf value.date value.time offset.microseconds

/-- Scalars of one kind are the same up to the normalization of texts, the value of decimals and the moment of
datetimes. -/
def SameScalar : Value → Value → Prop
  | .null, .null => True
  | .boolean first, .boolean second => first = second
  | .text first, .text second => tables.nfc first = tables.nfc second
  | .decimal first, .decimal second =>
    ∃ number number', first = .finite number ∧ second = .finite number' ∧
      number.value = number'.value
  | .integer first, .integer second => first = second
  | .datetime first, .datetime second => ∃ moment, moment? first = some moment ∧ moment? second = some moment
  | .date first, .date second => first = second
  | _, _ => False

mutual

/-- Structural sameness; a tagged scalar is also the same as a mapping that spells it. -/
def Same : Value → Value → Prop
  | .mapping entries, .mapping others => entries.length = others.length ∧ SameEntries entries others
  | .mapping entries, scalar => Spells tables scalar entries
  | .sequence _ items, .sequence _ others => SameItems items others
  | scalar, .mapping entries => Spells tables scalar entries
  | first, second => SameScalar tables first second

def SameItems : List Value → List Value → Prop
  | [], [] => True
  | item :: items, other :: others => Same item other ∧ SameItems items others
  | _, _ => False

/-- Every entry has an entry with the same key and the same value. -/
def SameEntries : List (String × Value) → List (String × Value) → Prop
  | [], _ => True
  | (key, value) :: entries, others =>
    (∃ other ∈ others, tables.nfc key = tables.nfc other.1 ∧ Same value other.2) ∧
      SameEntries entries others

end

end Sameness

section Shapes

variable {normalized : Json.Value}

theorem normalizeDecimal_ok {literal : Literal} (run : normalizeDecimal literal = .ok normalized) :
    ∃ tag text, spelling (.decimal literal) = some (tag, text) ∧ normalized = tagged tag text := by
  cases literal with
  | finite number =>
    obtain ⟨text, written, rfl⟩ := map_ok.mp run
    refine ⟨"$decimal", text, ?_, rfl⟩
    rw [spelling, expect_ok.mp written]
    rfl
  | infinite negative => cases run
  | nan negative signaling => cases run

theorem normalizeDatetime_ok {value : DateTime} (run : normalizeDatetime value = .ok normalized) :
    ∃ tag text, spelling (.datetime value) = some (tag, text) ∧ normalized = tagged tag text := by
  obtain ⟨offset, aware, run⟩ := bind_ok.mp run
  obtain ⟨utc, moved, run⟩ := bind_ok.mp run
  refine ⟨"$datetime", ofList (isoDateTime utc), ?_, (pure_ok.mp run).symm⟩
  rw [spelling, expect_ok.mp aware, bind_eq_bind, bind_some, expect_ok.mp moved]
  rfl

/-- What a value is normalized to, by its kind. -/
theorem normalize_cases {value : Value} (run : normalize tables value = .ok normalized) :
    (value = .null ∧ normalized = .null) ∨ (∃ truth, value = .boolean truth ∧ normalized = .boolean truth) ∨
    (∃ text, value = .text text ∧ normalized = .text (tables.nfc text)) ∨
    (∃ number, value = .integer number ∧ normalized = .integer number) ∨
    (∃ tag text, spelling value = some (tag, text) ∧ normalized = tagged tag text) ∨
    (∃ entries members, value = .mapping entries ∧ normalizeEntries tables entries [] = .ok members ∧
      normalized = .object members) ∨
    ∃ kind items values, value = .sequence kind items ∧ normalizeItems tables items = .ok values ∧
      normalized = .array values := by
  cases value with
  | null => simp_all [normalize]
  | boolean truth => simp_all [normalize]
  | text text => simp_all [normalize]
  | integer number => simp_all [normalize]
  | float => cases run
  | decimal literal => exact .inr (.inr (.inr (.inr (.inl (normalizeDecimal_ok run)))))
  | datetime reading => exact .inr (.inr (.inr (.inr (.inl (normalizeDatetime_ok run)))))
  | date day =>
    exact .inr (.inr (.inr (.inr (.inl ⟨"$date", ofList (isoDate day), rfl, (ok.inj run).symm⟩))))
  | mapping entries =>
    obtain ⟨members, done, rfl⟩ := map_ok.mp run
    simp_all
  | sequence kind items =>
    obtain ⟨values, done, rfl⟩ := map_ok.mp run
    simp_all

/-- Normalized entries stand under the normalized keys, which are distinct. -/
theorem normalizeEntries_ok {entries : List (String × Value)} {seen : List String}
    {members : List (String × Json.Value)} (run : normalizeEntries tables entries seen = .ok members) :
    Forall₂ (fun entry member => tables.nfc entry.1 = member.1 ∧ normalize tables entry.2 = .ok member.2)
      entries members ∧ (members.map fst).Nodup ∧ ∀ member ∈ members, member.1 ∉ seen := by
  induction entries generalizing seen members with
  | nil =>
    rw [← ok.inj run]
    exact ⟨.nil, nodup_nil, by simp⟩
  | cons entry entries ih =>
    rw [normalizeEntries] at run
    simp only [bind_ok, require_ok] at run
    obtain ⟨_, fresh, first, done, rest, others, run⟩ := run
    obtain ⟨related, distinct, apart⟩ := ih others
    rw [← pure_ok.mp run]
    refine ⟨.cons ⟨rfl, done⟩ related, ?_, ?_⟩
    · rw [map_cons, nodup_cons]
      refine ⟨?_, distinct⟩
      intro listed
      obtain ⟨member, inside, same⟩ := mem_map.mp listed
      exact apart member inside (by simp [same])
    · intro member inside
      rcases mem_cons.mp inside with rfl | later
      · exact fresh
      · exact fun known => apart member later (by simp [known])

theorem normalizeItems_ok {items : List Value} {values : List Json.Value}
    (run : normalizeItems tables items = .ok values) :
    Forall₂ (fun item value => normalize tables item = .ok value) items values := by
  induction items generalizing values with
  | nil =>
    rw [← ok.inj run]
    exact .nil
  | cons item items ih =>
    obtain ⟨first, done, run⟩ := bind_ok.mp run
    obtain ⟨rest, others, run⟩ := bind_ok.mp run
    rw [← pure_ok.mp run]
    exact .cons done (ih others)

mutual

/-- No number is known by its printed text only. -/
theorem plain_normalize : ∀ (value : Value) (normalized : Json.Value), normalize tables value = .ok normalized →
    Json.Plain normalized
  | .null, _, run | .boolean _, _, run | .text _, _, run | .integer _, _, run => by
    rw [← ok.inj run]
    trivial
  | .decimal literal, _, run => by
    obtain ⟨tag, text, _, rfl⟩ := normalizeDecimal_ok run
    exact ⟨trivial, trivial⟩
  | .datetime value, _, run => by
    obtain ⟨tag, text, _, rfl⟩ := normalizeDatetime_ok run
    exact ⟨trivial, trivial⟩
  | .date _, _, run => by
    rw [← ok.inj run]
    exact ⟨trivial, trivial⟩
  | .mapping entries, _, run => by
    obtain ⟨members, done, rfl⟩ := map_ok.mp run
    exact plainMembers_normalizeEntries entries [] members done
  | .sequence _ items, _, run => by
    obtain ⟨values, done, rfl⟩ := map_ok.mp run
    exact plainItems_normalizeItems items values done

theorem plainItems_normalizeItems : ∀ (items : List Value) (values : List Json.Value),
    normalizeItems tables items = .ok values → Json.PlainItems values
  | [], _, run => by rw [← ok.inj run]; trivial
  | item :: items, _, run => by
    rw [normalizeItems] at run
    obtain ⟨first, done, run⟩ := bind_ok.mp run
    obtain ⟨rest, others, run⟩ := bind_ok.mp run
    rw [← pure_ok.mp run]
    exact ⟨plain_normalize item first done, plainItems_normalizeItems items rest others⟩

theorem plainMembers_normalizeEntries : ∀ (entries : List (String × Value)) (seen : List String)
    (members : List (String × Json.Value)), normalizeEntries tables entries seen = .ok members →
      Json.PlainMembers members
  | [], _, _, run => by
    rw [normalizeEntries] at run
    rw [← ok.inj run]
    trivial
  | (key, value) :: entries, seen, _, run => by
    rw [normalizeEntries] at run
    simp only [bind_ok] at run
    obtain ⟨_, _, first, done, rest, others, run⟩ := run
    rw [← pure_ok.mp run]
    exact ⟨plain_normalize value first done, plainMembers_normalizeEntries entries _ rest others⟩

end

end Shapes

section Scalars

variable {text tag : String} {first second : Value}

/-- The kind of a scalar and what its spelling is made from. -/
theorem spelling_cases {value : Value} (spelled : spelling value = some (tag, text)) :
    (∃ number, value = .decimal (.finite number) ∧ tag = "$decimal" ∧ canonicalDecimalStr number = some text) ∨
    (∃ day, value = .date day ∧ tag = "$date" ∧ text = ofList (isoDate day)) ∨
    ∃ reading offset utc, value = .datetime reading ∧ tag = "$datetime" ∧ reading.offset = some offset ∧
      toUtc reading.date reading.time offset = some utc ∧ text = ofList (isoDateTime utc) := by
  cases value with
  | decimal literal =>
    cases literal with
    | finite number =>
      obtain ⟨found, written, same⟩ := map_eq_some_iff.mp spelled
      obtain ⟨rfl, rfl⟩ := mk.inj same
      exact .inl ⟨number, rfl, rfl, written⟩
    | infinite negative => cases spelled
    | nan negative signaling => cases spelled
  | date day =>
    obtain ⟨rfl, rfl⟩ := mk.inj (Option.some.inj spelled)
    exact .inr (.inl ⟨day, rfl, rfl, rfl⟩)
  | datetime reading =>
    obtain ⟨offset, aware, spelled⟩ := bind_eq_some_iff.mp spelled
    obtain ⟨utc, moved, spelled⟩ := bind_eq_some_iff.mp spelled
    obtain ⟨rfl, rfl⟩ := mk.inj (Option.some.inj spelled)
    exact .inr (.inr ⟨reading, offset, utc, rfl, rfl, aware, moved, rfl⟩)
  | null | boolean | text | float | integer | mapping | sequence => cases spelled

/-- Scalars with one spelling are the same. -/
theorem sameScalar_of_spelling (one : spelling first = some (tag, text))
    (two : spelling second = some (tag, text)) :
    SameScalar tables first second := by
  rcases spelling_cases one with ⟨number, rfl, rfl, written⟩ | ⟨day, rfl, rfl, rfl⟩ |
    ⟨reading, offset, utc, rfl, rfl, aware, moved, rfl⟩
  · rcases spelling_cases two with ⟨number', rfl, _, written'⟩ | ⟨_, _, other, _⟩ | ⟨_, _, _, _, other, _⟩
    · exact ⟨number, number', rfl, rfl, value_eq_of_canonicalDecimalStr written written'⟩
    · exact absurd other (by decide)
    · exact absurd other (by decide)
  · rcases spelling_cases two with ⟨_, _, other, _⟩ | ⟨day', rfl, _, same⟩ | ⟨_, _, _, _, other, _⟩
    · exact absurd other (by decide)
    · exact isoDate_inj (ofList_injective same)
    · exact absurd other (by decide)
  · rcases spelling_cases two with ⟨_, _, other, _⟩ | ⟨_, _, other, _⟩ |
      ⟨reading', offset', utc', rfl, _, aware', moved', same⟩
    · exact absurd other (by decide)
    · exact absurd other (by decide)
    · obtain rfl := isoDateTime_inj (ofList_injective same)
      refine ⟨momentOf utc.1 utc.2 0, ?_, ?_⟩
      · rw [moment?, aware, map_some, momentOf_toUtc moved]
      · rw [moment?, aware', map_some, momentOf_toUtc moved']

theorem same_of_sameScalar (same : SameScalar tables first second) : Same tables first second := by
  cases first <;> cases second <;> first | exact same | cases same

theorem same_of_spells {scalar : Value} {entries : List (String × Value)}
    (spells : Spells tables scalar entries) :
    Same tables scalar (.mapping entries) ∧ Same tables (.mapping entries) scalar := by
  obtain ⟨key, text, shape, spelled⟩ := spells
  have whole : Spells tables scalar entries := ⟨key, text, shape, spelled⟩
  rcases spelling_cases spelled with ⟨_, rfl, _⟩ | ⟨_, rfl, _⟩ | ⟨_, _, _, rfl, _⟩ <;> exact ⟨whole, whole⟩

end Scalars

section Injectivity

variable {first second : List (String × Json.Value)}

variable (same : Json.sortKeys (.object first) = Json.sortKeys (.object second))

include same in
/-- Objects with one sorted form have the same members, up to the order inside the values. -/
theorem perm_of_sortKeys : (Json.sortMembers first).Perm (Json.sortMembers second) := by
  have sorted := Json.Value.object.inj same
  have one := perm_insertionSort (fun first second : String × Json.Value => first.1 ≤ second.1)
    (Json.sortMembers first)
  have two := perm_insertionSort (fun first second : String × Json.Value => first.1 ≤ second.1)
    (Json.sortMembers second)
  rw [sorted] at one
  exact one.symm.trans two

/-- A mapping with the sorted form of a tagged scalar spells it. -/
theorem spells_of_sortKeys {scalar : Value} {tag text : String}
    (spelled : spelling scalar = some (tag, text))
    {entries : List (String × Value)} {members : List (String × Json.Value)}
    (run : normalizeEntries tables entries [] = .ok members)
    (same : sortKeys (.object members) = sortKeys (tagged tag text)) : Spells tables scalar entries := by
  have perm := perm_of_sortKeys same
  have single : sortMembers members = [(tag, .text text)] := perm_singleton.mp perm
  rw [sortMembers_eq_map] at single
  obtain ⟨⟨key, value⟩, shape, parts⟩ := map_eq_singleton_iff.mp single
  obtain ⟨rfl, inner⟩ := mk.inj parts
  obtain ⟨related, _⟩ := normalizeEntries_ok run
  rw [shape] at related
  obtain ⟨⟨raw, item⟩, rest, ⟨named, done⟩, none, rfl⟩ := forall₂_cons_right_iff.mp related
  rw [forall₂_nil_right_iff.mp none]
  rcases normalize_cases done with ⟨_, rfl⟩ | ⟨_, _, rfl⟩ | ⟨written, rfl, rfl⟩ | ⟨_, _, rfl⟩ | ⟨_, _, _, rfl⟩ |
    ⟨_, _, _, _, rfl⟩ | ⟨_, _, _, _, _, rfl⟩
  · cases inner
  · cases inner
  · refine ⟨raw, written, rfl, ?_⟩
    rw [spelled, named, ← Json.Value.text.inj inner]
  · cases inner
  · cases inner
  · cases inner
  · cases inner

/-- A scalar whose normalized form has the sorted form of another is the same as the other value. -/
theorem same_of_scalar {first second : Value} {normalized other : Json.Value}
    (notMapping : ∀ entries, first ≠ .mapping entries) (notSequence : ∀ kind items, first ≠ .sequence kind items)
    (run : normalize tables first = .ok normalized) (run' : normalize tables second = .ok other)
    (same : sortKeys normalized = sortKeys other) : Same tables first second := by
  rcases normalize_cases run with ⟨rfl, rfl⟩ | ⟨truth, rfl, rfl⟩ | ⟨text, rfl, rfl⟩ | ⟨number, rfl, rfl⟩ |
    ⟨tag, text, spelled, rfl⟩ | ⟨entries, _, rfl, _⟩ | ⟨kind, items, _, rfl, _⟩
  -- The four kinds without a tag are compared directly.
  iterate 4
    rcases normalize_cases run' with ⟨rfl, rfl⟩ | ⟨_, rfl, rfl⟩ | ⟨_, rfl, rfl⟩ | ⟨_, rfl, rfl⟩ | ⟨_, _, _, rfl⟩ |
        ⟨_, _, rfl, _, rfl⟩ | ⟨_, _, _, rfl, _, rfl⟩ <;>
      first
        | exact Json.Value.boolean.inj same
        | exact Json.Value.text.inj same
        | exact Json.Value.integer.inj same
        | trivial
  · rcases normalize_cases run' with ⟨_, rfl⟩ | ⟨_, _, rfl⟩ | ⟨_, _, rfl⟩ | ⟨_, _, rfl⟩ | ⟨tag', text', other, rfl⟩ |
      ⟨entries, members, rfl, done, rfl⟩ | ⟨_, _, _, _, _, rfl⟩
    iterate 4 · cases same
    · have single := perm_singleton.mp (perm_of_sortKeys same)
      obtain ⟨rfl, inner⟩ := mk.inj (singleton_inj.mp single)
      rw [← Json.Value.text.inj inner] at other
      exact same_of_sameScalar (sameScalar_of_spelling spelled other)
    · exact (same_of_spells (spells_of_sortKeys spelled done same.symm)).1
    · cases same
  · exact absurd rfl (notMapping entries)
  · exact absurd rfl (notSequence kind items)

include same in
theorem member_of_sortKeys {member : String × Json.Value} (inside : member ∈ first) :
    ∃ other ∈ second, member.1 = other.1 ∧ sortKeys member.2 = sortKeys other.2 := by
  have perm := perm_of_sortKeys same
  rw [sortMembers_eq_map, sortMembers_eq_map] at perm
  have moved := perm.mem_iff.mp (mem_map_of_mem inside)
  obtain ⟨other, found, parts⟩ := mem_map.mp moved
  obtain ⟨key, value⟩ := mk.inj parts
  exact ⟨other, found, key.symm, value.symm⟩

include same in
theorem length_eq_of_sortKeys : first.length = second.length := by
  have perm := perm_of_sortKeys same
  rw [sortMembers_eq_map, sortMembers_eq_map] at perm
  simpa using perm.length_eq

mutual

/-- Values whose normalized forms are sorted to one value are the same. -/
theorem same_of_sortKeys : ∀ (first second : Value) (normalized other : Json.Value),
    normalize tables first = .ok normalized → normalize tables second = .ok other →
      sortKeys normalized = sortKeys other → Same tables first second
  | .null, _, _, _, run, run', same
  | .boolean _, _, _, _, run, run', same
  | .text _, _, _, _, run, run', same
  | .decimal _, _, _, _, run, run', same
  | .integer _, _, _, _, run, run', same
  | .datetime _, _, _, _, run, run', same
  | .date _, _, _, _, run, run', same => same_of_scalar (by simp) (by simp) run run' same
  | .mapping entries, second, _, _, run, run', same => by
    obtain ⟨members, done, rfl⟩ := map_ok.mp run
    rcases normalize_cases run' with ⟨_, rfl⟩ | ⟨_, _, rfl⟩ | ⟨_, _, rfl⟩ | ⟨_, _, rfl⟩ | ⟨tag, text, spelled, rfl⟩ |
      ⟨others, members', rfl, done', rfl⟩ | ⟨_, _, _, _, _, rfl⟩
    iterate 4 · cases same
    · exact (same_of_spells (spells_of_sortKeys spelled done same)).2
    · obtain ⟨related, _⟩ := normalizeEntries_ok done
      obtain ⟨related', _⟩ := normalizeEntries_ok done'
      refine ⟨?_, sameEntries_of_sortKeys entries [] members done others members' related'
        fun _ inside => member_of_sortKeys same inside⟩
      rw [related.length_eq, related'.length_eq, length_eq_of_sortKeys same]
    · cases same
  | .sequence _ items, second, _, _, run, run', same => by
    obtain ⟨values, done, rfl⟩ := map_ok.mp run
    rcases normalize_cases run' with ⟨_, rfl⟩ | ⟨_, _, rfl⟩ | ⟨_, _, rfl⟩ | ⟨_, _, rfl⟩ | ⟨_, _, _, rfl⟩ |
      ⟨_, _, _, _, rfl⟩ | ⟨_, others, values', rfl, done', rfl⟩
    iterate 6 · cases same
    · exact sameItems_of_sortItems items others values values' done done' (Json.Value.array.inj same)

theorem sameItems_of_sortItems : ∀ (items others : List Value) (values values' : List Json.Value),
    normalizeItems tables items = .ok values → normalizeItems tables others = .ok values' →
      sortItems values = sortItems values' → SameItems tables items others
  | [], others, values, values', run, run', same => by
    cases normalizeItems_ok run
    cases normalizeItems_ok run' with
    | nil => trivial
    | cons => cases same
  | item :: items, others, values, values', run, run', same => by
    rw [normalizeItems] at run
    obtain ⟨first, done, run⟩ := bind_ok.mp run
    obtain ⟨rest, later, run⟩ := bind_ok.mp run
    rw [← pure_ok.mp run] at same
    cases others with
    | nil =>
      cases normalizeItems_ok run'
      cases same
    | cons other others =>
      rw [normalizeItems] at run'
      obtain ⟨first', done', run'⟩ := bind_ok.mp run'
      obtain ⟨rest', later', run'⟩ := bind_ok.mp run'
      rw [← pure_ok.mp run'] at same
      obtain ⟨heads, tails⟩ := List.cons.inj same
      exact ⟨same_of_sortKeys item other first first' done done' heads,
        sameItems_of_sortItems items others rest rest' later later' tails⟩

theorem sameEntries_of_sortKeys : ∀ (entries : List (String × Value)) (seen : List String)
    (members : List (String × Json.Value)), normalizeEntries tables entries seen = .ok members →
      ∀ (others : List (String × Value)) (members' : List (String × Json.Value)),
        Forall₂ (fun entry member => tables.nfc entry.1 = member.1 ∧ normalize tables entry.2 = .ok member.2)
          others members' → (∀ member ∈ members, ∃ other ∈ members', member.1 = other.1 ∧
          sortKeys member.2 = sortKeys other.2) → SameEntries tables entries others
  | [], _, _, _, _, _, _, _ => trivial
  | (key, value) :: entries, seen, members, run, others, members', related, covered => by
    rw [normalizeEntries] at run
    simp only [bind_ok] at run
    obtain ⟨_, _, first, done, rest, later, run⟩ := run
    rw [← pure_ok.mp run] at covered
    obtain ⟨member, inside, named, sorted⟩ := covered _ mem_cons_self
    obtain ⟨other, listed, label, normalized⟩ := exists_of_mem_forall₂ related inside
    refine ⟨⟨other, listed, named.trans label.symm, same_of_sortKeys value other.2 first member.2 done normalized
      sorted⟩, sameEntries_of_sortKeys entries _ rest later others members' related ?_⟩
    exact fun member inside => covered member (mem_cons_of_mem _ inside)

end

theorem envelope_inj {first second : Json.Value}
    (same : sortKeys (envelope first) = sortKeys (envelope second)) : sortKeys first = sortKeys second := by
  have inside : ("value", first) ∈ [("contract_version", .text canonicalJsonContractVersion), ("value", first)] := by
    simp
  obtain ⟨other, found, named, sorted⟩ := member_of_sortKeys same inside
  rcases mem_cons.mp found with rfl | found
  · have apart : "value" ≠ "contract_version" := by decide
    exact absurd named apart
  · rw [mem_singleton.mp found] at sorted
    exact sorted

/-- Canonical bytes are equal only for values that are the same, where a tagged scalar is also the same as the mapping
that spells it. -/
theorem canonical_bytes_determine_value {first second : Value} {bytes : ByteArray}
    (one : canonicalJsonBytes tables first = .ok bytes)
    (two : canonicalJsonBytes tables second = .ok bytes) :
    Same tables first second := by
  obtain ⟨text, written, rfl⟩ := map_ok.mp one
  obtain ⟨text', written', same⟩ := map_ok.mp two
  obtain ⟨normalized, run, written⟩ := bind_ok.mp written
  obtain ⟨other, run', written'⟩ := bind_ok.mp written'
  rw [← pure_ok.mp written, ← pure_ok.mp written'] at same
  have chars := String.ofList_injective (String.toByteArray_inj.mp same)
  have plain (value : Json.Value) (inner : Json.Plain value) : Json.Plain (envelope value) := ⟨trivial, inner, trivial⟩
  have sorted := Json.dumps_injective (plain other (plain_normalize second other run'))
    (plain normalized (plain_normalize first normalized run)) chars
  exact same_of_sortKeys first second normalized other run run' (envelope_inj sorted.symm)

/-- The bytes of an envelope around a text that is JSON already. -/
def enveloped (value : String) : ByteArray :=
  ("\x7b\"contract_version\":\"finance-canonical-json-v1\",\"value\":" ++ value ++ "\x7d").toUTF8

/-- A list that ends in the sign for kelvin is the same as a tuple that ends in the letter. -/
theorem canonical_bytes_determine_value_kelvin :
    Same kelvinTables (.sequence .list [.integer 1, .text "\u212a"]) (.sequence .tuple [.integer 1, .text "K"]) := by
  have one : canonicalJsonBytes kelvinTables (.sequence .list [.integer 1, .text "\u212a"]) =
      .ok (enveloped "[1,\"K\"]") := by decide
  have two : canonicalJsonBytes kelvinTables (.sequence .tuple [.integer 1, .text "K"]) =
      .ok (enveloped "[1,\"K\"]") := by decide
  exact canonical_bytes_determine_value one two

/-- A decimal and the mapping that spells it are values of different kinds with the same bytes. -/
theorem canonical_bytes_decimal_collision :
    canonicalJsonBytes kelvinTables (.decimal (.finite ⟨false, 1, 0⟩)) =
        .ok (enveloped "\x7b\"$decimal\":\"1\"\x7d") ∧
      canonicalJsonBytes kelvinTables (.mapping [("$decimal", .text "1")]) =
        .ok (enveloped "\x7b\"$decimal\":\"1\"\x7d") := by
  decide

end Injectivity

end FinanceCore.Calculation

import FinanceCore.Calculation.CanonicalJson

namespace FinanceCore.Calculation

open Exceptions Unicode List Json

section Encoding

variable (tables : NormalizationTables)

mutual

/-- The value consists of texts, integers, booleans and missing parts, under distinct normalized keys. -/
def Encodable : Value → Prop
  | .null | .boolean _ | .text _ | .integer _ => True
  | .mapping entries => (entries.map Prod.fst).Nodup ∧ EncodableEntries entries
  | .sequence _ items => EncodableItems items
  | .decimal _ | .float | .datetime _ | .date _ => False

def EncodableItems : List Value → Prop
  | [] => True
  | item :: items => Encodable item ∧ EncodableItems items

def EncodableEntries : List (String × Value) → Prop
  | [] => True
  | (key, value) :: entries => tables.nfc key = key ∧ Encodable value ∧ EncodableEntries entries

end

mutual

/-- The normalized form of such a value. -/
def encoded : Value → Json.Value
  | .boolean value => .boolean value
  | .text value => .text (tables.nfc value)
  | .integer value => .integer value
  | .mapping entries => .object (encodedEntries entries)
  | .sequence _ items => .array (encodedItems items)
  | .null | .decimal _ | .float | .datetime _ | .date _ => .null

def encodedItems : List Value → List Json.Value
  | [] => []
  | item :: items => encoded item :: encodedItems items

def encodedEntries : List (String × Value) → List (String × Json.Value)
  | [] => []
  | (key, value) :: entries => (key, encoded value) :: encodedEntries entries

end

end Encoding

section Maps

variable (tables : NormalizationTables)

theorem encodableItems_iff (items : List Value) :
    EncodableItems tables items ↔ ∀ item ∈ items, Encodable tables item := by
  induction items with
  | nil => simp [EncodableItems]
  | cons item items ih => rw [EncodableItems, ih, forall_mem_cons]

theorem encodableEntries_iff (entries : List (String × Value)) :
    EncodableEntries tables entries ↔ ∀ entry ∈ entries, tables.nfc entry.1 = entry.1 ∧
      Encodable tables entry.2 := by
  induction entries with
  | nil => simp [EncodableEntries]
  | cons entry entries ih => rw [EncodableEntries, ih, forall_mem_cons, and_assoc]

end Maps

section Normalize

variable {tables : NormalizationTables}

mutual

/-- Serialization succeeds on such a value and gives its normalized form. -/
theorem normalize_of_encodable : ∀ value : Value, Encodable tables value →
    normalize tables value = .ok (encoded tables value)
  | .null, _ | .boolean _, _ | .text _, _ | .integer _, _ => rfl
  | .decimal _, impossible | .float, impossible | .datetime _, impossible | .date _, impossible => impossible.elim
  | .mapping entries, shape => by
    rw [normalize, normalizeEntries_of_encodable entries [] shape.1 (by simp) shape.2]
    rfl
  | .sequence _ items, each => by
    rw [normalize, normalizeItems_of_encodable items each]
    rfl

theorem normalizeItems_of_encodable : ∀ items : List Value, EncodableItems tables items →
    normalizeItems tables items = .ok (encodedItems tables items)
  | [], _ => rfl
  | item :: items, each => by
    rw [normalizeItems, normalize_of_encodable item each.1, normalizeItems_of_encodable items each.2]
    rfl

theorem normalizeEntries_of_encodable : ∀ (entries : List (String × Value)) (seen : List String),
    (entries.map Prod.fst).Nodup → (∀ entry ∈ entries, entry.1 ∉ seen) →
      EncodableEntries tables entries →
      normalizeEntries tables entries seen = .ok (encodedEntries tables entries)
  | [], _, _, _, _ => by rw [normalizeEntries, encodedEntries]
  | (key, value) :: entries, seen, distinct, fresh, each => by
    obtain ⟨stable, first, rest⟩ := each
    obtain ⟨apart, distinct⟩ := nodup_cons.mp distinct
    have unseen : require (key ∉ seen) CanonicalSerializationError.duplicateKeys = .ok () :=
      require_ok.mpr (fresh _ mem_cons_self)
    have later : ∀ entry ∈ entries, entry.1 ∉ key :: seen := by
      intro entry member known
      rcases mem_cons.mp known with same | old
      · exact apart (mem_map.mpr ⟨entry, member, same⟩)
      · exact fresh entry (mem_cons_of_mem _ member) old
    rw [normalizeEntries, stable, unseen, ok_bind, normalize_of_encodable value first, ok_bind,
      normalizeEntries_of_encodable entries (key :: seen) distinct later rest]
    rfl

end

theorem canonicalJsonText_of_encodable {value : Value} (encodable : Encodable tables value) :
    canonicalJsonText tables value = .ok (String.ofList (dumps false (envelope (encoded tables value)))) := by
  rw [canonicalJsonText, normalize_of_encodable value encodable]
  rfl

end Normalize

end FinanceCore.Calculation

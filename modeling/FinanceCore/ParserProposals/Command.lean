import FinanceCore.Calculators.Readiness

namespace FinanceCore.ParserProposals

open Calculators Exceptions Text List

/-- A quantity arrives as an integer or as text. -/
inductive QuantityInput where
  | integer (value : ℤ)
  | text (value : String)

structure ItemEntry where
  lineNumber : ℤ
  itemName : String
  quantity : Option QuantityInput
  unitPrice : Option String
  (lineAmount currency : String)

structure ParticipantEntry where
  participantPublicId : String
  (shareAmount currency : Option String)

structure AllocationEntry where
  lineNumber : ℤ
  allocationMethod : FactItemMethod
  participants : List ParticipantEntry

structure AdjustmentEntry where
  adjustmentIndex : ℤ
  adjustmentType : String
  direction : Direction
  allocationMethod : AdjustmentMethod
  (amount currency : String)
  description : Option String
  participants : Option (List ParticipantEntry)

/-- The facts that a command authors. -/
structure FactsCommand where
  items : List ItemEntry
  allocations : List AllocationEntry
  adjustments : List AdjustmentEntry

structure SpecItem where
  lineNumber : ℤ
  itemName : String
  (quantityText unitPriceRaw : Option String)
  (lineAmountRaw currencyRaw : String)

structure SpecParticipant where
  participantPublicId : String
  (shareAmountRaw currencyRaw : Option String)

structure SpecAllocation where
  lineNumber : ℤ
  allocationMethod : FactItemMethod
  participants : List SpecParticipant

structure SpecAdjustment where
  adjustmentIndex : ℤ
  (adjustmentType amountRaw currencyRaw : String)
  direction : Direction
  allocationMethod : AdjustmentMethod
  description : Option String
  participants : Option (List SpecParticipant)

/-- The canonical spec of a command. -/
structure FactsSpec where
  items : List SpecItem
  allocations : List SpecAllocation
  adjustments : List SpecAdjustment

/-- The rejections of the structural validation. -/
inductive CommandError where
  | noItems
  | tooManyItems
  | itemLineNotPositive (line : ℤ)
  | itemNameEmpty
  | itemNameTooLong
  | quantityInvalid (quantity : QuantityInput)
  | moneyBlank (label : FactLabel)
  | itemCurrencyBlank
  | linesNotContiguous (lines : List ℤ)
  | unknownLine (line : ℤ)
  | methodBlank
  | mixedMethods (line : ℤ)
  | duplicateAllocation (line : ℤ)
  | uncovered (lines : List ℤ)
  | noParticipants (owner : FactOwner)
  | tooManyParticipants (owner : FactOwner)
  | participantMalformed (owner : FactOwner)
  | participantTwice (owner : FactOwner) (participant : String)
  | participantIncomplete (owner : FactOwner)
  | participantCurrencyBlank (owner : FactOwner)
  | tooManyAdjustments
  | indexNotPositive (index : ℤ)
  | vocabularyBlank (field : String)
  | adjustmentCurrencyBlank
  | descriptionBlank
  | descriptionTooLong
  | indexesNotContiguous (indexes : List ℤ)

def maxItems : ℕ := 200

def maxItemNameLength : ℕ := 200

def maxDescriptionLength : ℕ := 500

def maxAdjustments : ℕ := 200

def maxParticipantsPerEntry : ℕ := 200

/-- Text that names no approved method or direction can be blank. -/
def itemMethodBlank : FactItemMethod → Bool
  | .unsupported name => isBlank name
  | _ => false

def adjustmentMethodBlank : AdjustmentMethod → Bool
  | .unsupported name => isBlank name
  | _ => false

def directionBlank : Direction → Bool
  | .unsupported name => isBlank name
  | _ => false

def validateQuantity : Option QuantityInput → Except CommandError (Option String)
  | none => .ok none
  | some (.integer value) => do
    let text := String.ofList (natDigits value.toNat)
    require (1 ≤ value ∧ quantityText text) (.quantityInvalid (.integer value))
    return some text
  | some (.text value) => do
    require (quantityText value) (.quantityInvalid (.text value))
    return some value

def requireMoneyString (value : String) (label : FactLabel) : Except CommandError String := do
  require (¬ isBlank value) (.moneyBlank label)
  return value

/-- An absent monetary text stays absent. -/
def optionalMoneyString (value : Option String) (label : FactLabel) : Except CommandError (Option String) :=
  match value with
  | none => .ok none
  | some text => some <$> requireMoneyString text label

def validateItem (entry : ItemEntry) : Except CommandError SpecItem := do
  let line := entry.lineNumber
  require (1 ≤ line) (.itemLineNotPositive line)
  let strippedName := strip entry.itemName
  require (strippedName ≠ "") .itemNameEmpty
  require (strippedName.length ≤ maxItemNameLength) .itemNameTooLong
  let quantityText ← validateQuantity entry.quantity
  let unitPriceRaw ← optionalMoneyString entry.unitPrice (.unitPrice line)
  let lineAmountRaw ← requireMoneyString entry.lineAmount (.lineAmount line)
  require (¬ isBlank entry.currency) .itemCurrencyBlank
  return ⟨line, strippedName, quantityText, unitPriceRaw, lineAmountRaw, entry.currency⟩

/-- The item lines are exactly 1 to N, and the spec lists them in order. -/
def validateItems (items : List ItemEntry) : Except CommandError (List SpecItem) := do
  require (items ≠ []) .noItems
  require (items.length ≤ maxItems) .tooManyItems
  let validated ← items.mapM validateItem
  let lines := (validated.map SpecItem.lineNumber).insertionSort (· ≤ ·)
  require (lines = lineRange validated.length) (.linesNotContiguous lines)
  return validated.insertionSort fun first second => first.lineNumber ≤ second.lineNumber

section

variable (owner : FactOwner)

section

variable (seen : List SpecParticipant)

/-- A participant id is not empty, not padded and not repeated. -/
def validateParticipantId (publicId : String) : Except CommandError Unit := do
  require (publicId ≠ "" ∧ publicId = strip publicId) (.participantMalformed owner)
  require (publicId ∉ seen.map SpecParticipant.participantPublicId) (.participantTwice owner publicId)

def validateAllocationParticipant
    (entry : ParticipantEntry) : Except CommandError (List SpecParticipant) := do
  let publicId := entry.participantPublicId
  validateParticipantId owner seen publicId
  let shareRaw ← optionalMoneyString entry.shareAmount (.share owner publicId)
  require (∀ currency ∈ entry.currency, ¬ isBlank currency) (.participantCurrencyBlank owner)
  return seen ++ [⟨publicId, shareRaw, entry.currency⟩]

/-- A manual adjustment participant states both its share and its currency. -/
def validateManualAdjustmentParticipant
    (entry : ParticipantEntry) : Except CommandError (List SpecParticipant) := do
  let publicId := entry.participantPublicId
  let share ← expect entry.shareAmount (.participantIncomplete owner)
  let currency ← expect entry.currency (.participantIncomplete owner)
  validateParticipantId owner seen publicId
  let shareRaw ← requireMoneyString share (.share owner publicId)
  require (¬ isBlank currency) (.participantCurrencyBlank owner)
  return seen ++ [⟨publicId, some shareRaw, some currency⟩]

end

/-- The participants of one entry: a bounded non-empty list, sorted by public id. -/
def validateParticipants
    (validateOne : List SpecParticipant → ParticipantEntry → Except CommandError (List SpecParticipant))
    (participants : List ParticipantEntry) : Except CommandError (List SpecParticipant) := do
  require (participants ≠ []) (.noParticipants owner)
  require (participants.length ≤ maxParticipantsPerEntry) (.tooManyParticipants owner)
  let validated ← participants.foldlM validateOne []
  return validated.insertionSort fun first second => first.participantPublicId ≤ second.participantPublicId

def validateAllocationParticipants : List ParticipantEntry → Except CommandError (List SpecParticipant) :=
  validateParticipants owner (validateAllocationParticipant owner)

def validateManualAdjustmentParticipants : List ParticipantEntry → Except CommandError (List SpecParticipant) :=
  validateParticipants owner (validateManualAdjustmentParticipant owner)

end

/-- A second entry of one line either repeats or contradicts the method of the first. -/
def repeatedLine (line : ℤ) (earlier later : FactItemMethod) : CommandError :=
  if earlier ≠ later then .mixedMethods line else .duplicateAllocation line

def validateAllocation (itemLines : List ℤ) (byLine : Dict ℤ SpecAllocation)
    (entry : AllocationEntry) :
    Except CommandError (Dict ℤ SpecAllocation) := do
  let line := entry.lineNumber
  require (line ∈ itemLines) (.unknownLine line)
  require (¬ itemMethodBlank entry.allocationMethod) .methodBlank
  match byLine.get? line with
  | some earlier => .error (repeatedLine line earlier.allocationMethod entry.allocationMethod)
  | none => do
    let participants ← validateAllocationParticipants (.itemLine line) entry.participants
    return byLine.set line ⟨line, entry.allocationMethod, participants⟩

/-- Every item line has one allocation, and the spec lists them in order. -/
def validateAllocations (allocations : List AllocationEntry) (items : List SpecItem) :
    Except CommandError (List SpecAllocation) := do
  let itemLines := items.map SpecItem.lineNumber
  let byLine ← allocations.foldlM (validateAllocation itemLines) Dict.empty
  let uncovered := itemLines.filter fun line => line ∉ byLine.keys
  require (uncovered = []) (.uncovered uncovered)
  return byLine.values.insertionSort fun first second => first.lineNumber ≤ second.lineNumber

def validateDescription : Option String → Except CommandError (Option String)
  | none => .ok none
  | some value => do
    let stripped := strip value
    require (stripped ≠ "") .descriptionBlank
    require (stripped.length ≤ maxDescriptionLength) .descriptionTooLong
    return some stripped

/-- The explicit participants of an adjustment, when it lists any. -/
def validateAdjustmentParticipants (index : ℤ) :
    Option (List ParticipantEntry) → Except CommandError (Option (List SpecParticipant))
  | none => .ok none
  | some participants => some <$> validateManualAdjustmentParticipants (.adjustment index) participants

def validateAdjustment (entry : AdjustmentEntry) : Except CommandError SpecAdjustment := do
  let index := entry.adjustmentIndex
  require (1 ≤ index) (.indexNotPositive index)
  require (¬ isBlank entry.adjustmentType) (.vocabularyBlank "adjustment_type")
  require (¬ directionBlank entry.direction) (.vocabularyBlank "direction")
  require (¬ adjustmentMethodBlank entry.allocationMethod) (.vocabularyBlank "allocation_method")
  let amountRaw ← requireMoneyString entry.amount (.adjustmentAmount index)
  require (¬ isBlank entry.currency) .adjustmentCurrencyBlank
  let description ← validateDescription entry.description
  let participants ← validateAdjustmentParticipants index entry.participants
  return ⟨index, entry.adjustmentType, amountRaw, entry.currency, entry.direction, entry.allocationMethod,
    description, participants⟩

/-- The adjustment indexes are exactly 1 to N, and the spec lists them in order. -/
def validateAdjustments (adjustments : List AdjustmentEntry) : Except CommandError (List SpecAdjustment) := do
  require (adjustments.length ≤ maxAdjustments) .tooManyAdjustments
  let validated ← adjustments.mapM validateAdjustment
  let indexes := (validated.map SpecAdjustment.adjustmentIndex).insertionSort (· ≤ ·)
  require (indexes = lineRange validated.length) (.indexesNotContiguous indexes)
  return validated.insertionSort fun first second => first.adjustmentIndex ≤ second.adjustmentIndex

/-- The fact part of the command validation. -/
def validateCommand (command : FactsCommand) : Except CommandError FactsSpec := do
  let items ← validateItems command.items
  let allocations ← validateAllocations command.allocations items
  let adjustments ← validateAdjustments command.adjustments
  return ⟨items, allocations, adjustments⟩

/-- Participants of a spec entry: at least one, each once. -/
def DistinctParticipants (participants : List SpecParticipant) : Prop :=
  participants ≠ [] ∧ (participants.map SpecParticipant.participantPublicId).Nodup

/-- What the structural validation guarantees about a spec. -/
structure FactsSpec.WellFormed (spec : FactsSpec) : Prop where
  someItem : spec.items ≠ []
  itemLines : (spec.items.map SpecItem.lineNumber).Nodup
  allocationLines : (spec.allocations.map SpecAllocation.lineNumber).Nodup
  covered : ∀ item ∈ spec.items, item.lineNumber ∈ spec.allocations.map SpecAllocation.lineNumber
  allocated : ∀ allocation ∈ spec.allocations, DistinctParticipants allocation.participants
  adjusted : ∀ adjustment ∈ spec.adjustments, ∀ participants, adjustment.participants = some participants →
    DistinctParticipants participants

section Validation

theorem nodup_lineRange (count : ℕ) : (lineRange count).Nodup := by
  refine nodup_range.map fun first second same => ?_
  omega

variable {owner : FactOwner} {participants : List ParticipantEntry} {validated : List SpecParticipant}

/-- Sorting keeps the participants distinct. -/
theorem validateParticipants_distinct
    {validateOne : List SpecParticipant → ParticipantEntry → Except CommandError (List SpecParticipant)}
    (one : ∀ seen entry next, validateOne seen entry = .ok next →
      (seen.map SpecParticipant.participantPublicId).Nodup →
        next ≠ [] ∧ (next.map SpecParticipant.participantPublicId).Nodup)
    (run : validateParticipants owner validateOne participants = .ok validated) : DistinctParticipants validated := by
  simp only [validateParticipants, bind_ok, pure_ok, require_ok] at run
  obtain ⟨_, listed, _, _, unsorted, folded, rfl⟩ := run
  have sound : DistinctParticipants unsorted := by
    cases participants with
    | nil => exact absurd rfl listed
    | cons entry rest =>
      obtain ⟨next, first, folded⟩ := bind_ok.mp folded
      exact foldlM_invariant DistinctParticipants
        (fun seen entry next _ sound step => one seen entry next step sound.2) (one [] entry next first (by simp))
        folded
  have sorted := perm_insertionSort
    (fun first second : SpecParticipant => first.participantPublicId ≤ second.participantPublicId) unsorted
  exact ⟨fun empty => sound.1 (nil_perm.mp (empty ▸ sorted)), (sorted.map _).nodup_iff.mpr sound.2⟩

theorem distinct_append {seen : List SpecParticipant} (participant : SpecParticipant)
    (checked : validateParticipantId owner seen participant.participantPublicId = .ok ())
    (distinct : (seen.map SpecParticipant.participantPublicId).Nodup) :
    seen ++ [participant] ≠ [] ∧ ((seen ++ [participant]).map SpecParticipant.participantPublicId).Nodup := by
  obtain ⟨_, _, fresh⟩ := bind_ok.mp checked
  have fresh := require_ok.mp fresh
  refine ⟨by simp, ?_⟩
  rw [map_append, nodup_append]
  refine ⟨distinct, by simp, ?_⟩
  intro first member second singleton same
  rw [map_singleton, mem_singleton] at singleton
  exact fresh (singleton ▸ same ▸ member)

theorem validateAllocationParticipants_distinct
    (run : validateAllocationParticipants owner participants = .ok validated) : DistinctParticipants validated := by
  apply validateParticipants_distinct ?_ run
  intro seen entry next step distinct
  simp only [validateAllocationParticipant, bind_ok, pure_ok] at step
  obtain ⟨_, checked, share, _, _, _, rfl⟩ := step
  exact distinct_append ⟨entry.participantPublicId, share, entry.currency⟩ checked distinct

theorem validateManualAdjustmentParticipants_distinct
    (run : validateManualAdjustmentParticipants owner participants = .ok validated) :
    DistinctParticipants validated := by
  apply validateParticipants_distinct ?_ run
  intro seen entry next step distinct
  simp only [validateManualAdjustmentParticipant, bind_ok, pure_ok] at step
  obtain ⟨_, _, currency, _, _, checked, share, _, _, _, rfl⟩ := step
  exact distinct_append ⟨entry.participantPublicId, some share, some currency⟩ checked distinct

theorem validateItems_sound {items : List ItemEntry} {validated : List SpecItem}
    (run : validateItems items = .ok validated) : validated ≠ [] ∧
      (validated.map SpecItem.lineNumber).Nodup := by
  simp only [validateItems, bind_ok, pure_ok, require_ok] at run
  obtain ⟨_, listed, _, _, unsorted, checked, _, contiguous, rfl⟩ := run
  have sorted := perm_insertionSort (fun first second : SpecItem => first.lineNumber ≤ second.lineNumber) unsorted
  constructor
  · intro empty
    have none : unsorted = [] := nil_perm.mp (empty ▸ sorted)
    have length := (mapM_ok.mp checked).length_eq
    rw [none, length_nil, length_eq_zero_iff] at length
    exact listed length
  · have lines := perm_insertionSort (· ≤ ·) (unsorted.map SpecItem.lineNumber)
    rw [contiguous] at lines
    exact (sorted.map _).nodup_iff.mpr (lines.nodup_iff.mp (nodup_lineRange _))

/-- The allocations so far stand under their own lines and name distinct participants. -/
def SoundByLine (byLine : Dict ℤ SpecAllocation) : Prop :=
  ∀ line allocation, byLine.get? line = some allocation →
    allocation.lineNumber = line ∧ DistinctParticipants allocation.participants

theorem validateAllocation_sound {itemLines : List ℤ} {byLine next : Dict ℤ SpecAllocation}
    {entry : AllocationEntry} (sound : SoundByLine byLine)
    (step : validateAllocation itemLines byLine entry = .ok next) : SoundByLine next := by
  obtain ⟨_, _, step⟩ := bind_ok.mp step
  obtain ⟨_, _, step⟩ := bind_ok.mp step
  split at step
  · cases step
  · obtain ⟨participants, checked, step⟩ := bind_ok.mp step
    obtain rfl := pure_ok.mp step
    intro line allocation found
    rcases Dict.get?_set_cases found with ⟨here, rfl⟩ | ⟨_, earlier⟩
    · exact ⟨here.symm, validateAllocationParticipants_distinct checked⟩
    · exact sound line allocation earlier

theorem validateAllocations_sound {allocations : List AllocationEntry} {items : List SpecItem}
    {validated : List SpecAllocation} (run : validateAllocations allocations items = .ok validated) :
    (validated.map SpecAllocation.lineNumber).Nodup ∧
      (∀ item ∈ items, item.lineNumber ∈ validated.map SpecAllocation.lineNumber) ∧
      ∀ allocation ∈ validated, DistinctParticipants allocation.participants := by
  obtain ⟨byLine, folded, run⟩ := bind_ok.mp run
  obtain ⟨_, covered, run⟩ := bind_ok.mp run
  obtain rfl := pure_ok.mp run
  have sound : SoundByLine byLine := by
    refine foldlM_invariant SoundByLine (fun state entry next _ sound step => validateAllocation_sound sound step)
      (fun line allocation found => ?_) folded
    cases found
  have sorted := perm_insertionSort
    (fun first second : SpecAllocation => first.lineNumber ≤ second.lineNumber) byLine.values
  have lines : byLine.values.map SpecAllocation.lineNumber = byLine.keys := by
    rw [Dict.values, map_map]
    exact map_congr_left fun entry member => (sound _ _ (Dict.get?_of_mem_entries member)).1
  have permuted := sorted.map SpecAllocation.lineNumber
  rw [lines] at permuted
  refine ⟨permuted.nodup_iff.mpr byLine.nodup_keys, ?_, ?_⟩
  · intro item member
    have empty := filter_eq_nil_iff.mp (require_ok.mp covered) item.lineNumber (mem_map_of_mem member)
    exact permuted.mem_iff.mpr (by simpa using empty)
  · intro allocation member
    obtain ⟨entry, inside, rfl⟩ := mem_map.mp (sorted.mem_iff.mp member)
    exact (sound _ _ (Dict.get?_of_mem_entries inside)).2

theorem validateAdjustments_sound {adjustments : List AdjustmentEntry}
    {validated : List SpecAdjustment} (run : validateAdjustments adjustments = .ok validated) :
    ∀ adjustment ∈ validated, ∀ participants, adjustment.participants = some participants →
      DistinctParticipants participants := by
  simp only [validateAdjustments, bind_ok, pure_ok] at run
  obtain ⟨_, _, unsorted, checked, _, _, rfl⟩ := run
  have each : ∀ adjustment ∈ unsorted, ∀ participants, adjustment.participants = some participants →
      DistinctParticipants participants := by
    refine forall_mem_of_mapM (fun entry adjustment step => ?_) checked
    iterate 4 obtain ⟨_, _, step⟩ := bind_ok.mp step
    simp only [bind_ok, pure_ok] at step
    obtain ⟨amount, _, _, _, description, _, participants, read, rfl⟩ := step
    rintro listed rfl
    cases stated : entry.participants with
    | none =>
      rw [stated] at read
      cases read
    | some unchecked =>
      rw [stated] at read
      obtain ⟨validated, distinct, same⟩ := map_ok.mp read
      exact Option.some.inj same ▸ validateManualAdjustmentParticipants_distinct distinct
  intro adjustment member
  exact each adjustment ((mem_insertionSort _).mp member)

/-- A validated command gives a well-formed spec. -/
theorem validateCommand_wellFormed {command : FactsCommand} {spec : FactsSpec}
    (run : validateCommand command = .ok spec) : spec.WellFormed := by
  simp only [validateCommand, bind_ok, pure_ok] at run
  obtain ⟨items, listed, allocations, allocated, adjustments, adjusted, rfl⟩ := run
  obtain ⟨someItem, itemLines⟩ := validateItems_sound listed
  obtain ⟨allocationLines, covered, distinct⟩ := validateAllocations_sound allocated
  exact ⟨someItem, itemLines, allocationLines, covered, distinct, validateAdjustments_sound adjusted⟩

end Validation

end FinanceCore.ParserProposals

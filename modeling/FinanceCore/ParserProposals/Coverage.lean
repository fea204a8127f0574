import FinanceCore.Foundation.Exceptions
import FinanceCore.Foundation.JsonLoads

namespace FinanceCore.ParserProposals

open Exceptions Json List Text

inductive CoverageLabel where
  | resolvedInstruction
  | unresolvedInstruction
  | nonInstruction
  | confirmationRequest

def coverageLabel : Value → Option CoverageLabel
  | .text "resolved_instruction" => some .resolvedInstruction
  | .text "unresolved_instruction" => some .unresolvedInstruction
  | .text "non_instruction" => some .nonInstruction
  | .text "confirmation_request" => some .confirmationRequest
  | _ => none

/-- A span of the text with what it refers to. -/
structure CoverageItem where
  (start stop : ℕ)
  label : CoverageLabel
  (operationIds questionIds : List String)

/-- The label decides which references an item has to name. -/
def CoverageItem.labelled (item : CoverageItem) : Bool :=
  match item.label with
  | .resolvedInstruction => !item.operationIds.isEmpty
  | .unresolvedInstruction => !item.questionIds.isEmpty
  | _ => item.operationIds.isEmpty && item.questionIds.isEmpty

def coverageReferences (allowed : List String) (value : Value) : Except String (List String) := do
  let ids ← expect value.texts? "coverage_reference"
  require (ids.length ≤ 6 ∧ (∀ id ∈ ids, id ∈ allowed) ∧ ids.Nodup) "coverage_reference"
  return ids

section

variable (text : List Char) (operations questions : List String)

def coverageItem (previous : ℕ) (item : Value) : Except String CoverageItem := do
  require (item.members.map Prod.fst ~ ["start", "end", "label", "operation_ids", "question_ids"]) "coverage_keys"
  let a ← expect (item.field "start").integer? "coverage_gap"
  let b ← expect (item.field "end").integer? "coverage_gap"
  require (previous ≤ a ∧ a < b ∧ b ≤ text.length ∧ ((text.take a.toNat).drop previous).all isSpace) "coverage_gap"
  let label ← expect (coverageLabel (item.field "label")) "coverage_label"
  let operationIds ← coverageReferences operations (item.field "operation_ids")
  let questionIds ← coverageReferences questions (item.field "question_ids")
  let read : CoverageItem := ⟨a.toNat, b.toNat, label, operationIds, questionIds⟩
  require read.labelled (match label with
    | .resolvedInstruction | .unresolvedInstruction => "coverage_instruction"
    | _ => "coverage_authority")
  return read

/-- The loop over the items, from the position behind the last one. -/
def coverageFrom (previous : ℕ) : List Value → Except String (List CoverageItem)
  | [] => do
    require ((text.drop previous).all isSpace) "coverage_gap"
    return []
  | item :: rest => do
    let read ← coverageItem text operations questions previous item
    return read :: (← coverageFrom read.stop rest)

/-- The items as they are read; the source keeps only that no error was raised. -/
def coverage (items : Value) : Except String (List CoverageItem) := do
  let .array values := items | .error "coverage_list"
  require (1 ≤ values.length ∧ values.length ≤ 64) "coverage_list"
  coverageFrom text operations questions 0 values

/-- An item names what its label asks for, among the known references. -/
def CoverageItem.Refers (item : CoverageItem) : Prop :=
  match item.label with
  | .resolvedInstruction => ∃ id ∈ item.operationIds, id ∈ operations
  | .unresolvedInstruction => ∃ id ∈ item.questionIds, id ∈ questions
  | _ => item.operationIds = [] ∧ item.questionIds = []

/-- What an accepted item says of its span and of its references. -/
structure CoverageItem.Sound (previous : ℕ) (item : CoverageItem) : Prop where
  span : previous ≤ item.start ∧ item.start < item.stop ∧ item.stop ≤ text.length
  gap : ((text.take item.start).drop previous).all isSpace = true
  refers : item.Refers operations questions

/-- The items stand in order behind a position, and each visible character from there on lies in one of them. -/
structure Covered (previous : ℕ) (items : List CoverageItem) : Prop where
  behind : ∀ item ∈ items, previous ≤ item.start
  ordered : items.Pairwise fun first second => first.stop ≤ second.start
  covers : ∀ position char, previous ≤ position → text[position]? = some char → isSpace char = false →
    ∃! item, item ∈ items ∧ item.start ≤ position ∧ position < item.stop

end

variable {text : List Char} {operations questions : List String} {previous : ℕ}

theorem coverageReferences_ok {allowed ids : List String} {value : Value}
    (done : coverageReferences allowed value = .ok ids) : ∀ id ∈ ids, id ∈ allowed := by
  simp only [coverageReferences, bind_ok, expect_ok, require_ok, pure_ok] at done
  obtain ⟨_, _, _, checks, rfl⟩ := done
  exact checks.2.1

theorem CoverageItem.refers_of_labelled {item : CoverageItem}
    (known : ∀ id ∈ item.operationIds, id ∈ operations)
    (asked : ∀ id ∈ item.questionIds, id ∈ questions) (labelled : item.labelled = true) :
    item.Refers operations questions := by
  obtain ⟨start, stop, label, operationIds, questionIds⟩ := item
  cases label <;> cases operationIds <;> cases questionIds <;> simp_all [CoverageItem.labelled, Refers]

theorem coverageItem_ok {item : Value} {read : CoverageItem}
    (done : coverageItem text operations questions previous item = .ok read) :
    read.Sound text operations questions previous := by
  simp only [coverageItem, bind_ok, require_ok, expect_ok, pure_ok] at done
  obtain ⟨_, _, a, _, b, _, _, ⟨early, order, late, gap⟩, label, _, operationIds, named, questionIds, asked, _, labelled,
    rfl⟩ := done
  have span : previous ≤ a.toNat ∧ a.toNat < b.toNat ∧ b.toNat ≤ text.length := by
    omega
  exact ⟨span, gap, CoverageItem.refers_of_labelled (coverageReferences_ok named) (coverageReferences_ok asked) labelled⟩

theorem isSpace_of_slice {start position : ℕ} {char : Char}
    (blank : ((text.take start).drop previous).all isSpace = true) (late : previous ≤ position)
    (early : position < start) (found : text[position]? = some char) : isSpace char = true := by
  apply all_eq_true.mp blank
  apply mem_of_getElem? (i := position - previous)
  rw [getElem?_drop, Nat.add_sub_cancel' late, getElem?_take_of_lt early, found]

/-- An accepted item in front of what is covered behind it. -/
theorem Covered.cons {item : CoverageItem} {rest : List CoverageItem}
    (sound : item.Sound text operations questions previous)
    (covered : Covered text item.stop rest) :
    Covered text previous (item :: rest) := by
  have span := sound.span
  have behind := covered.behind
  refine ⟨?_, pairwise_cons.mpr ⟨behind, covered.ordered⟩, ?_⟩
  · grind
  · intro position char late found visible
    have begun : item.start ≤ position := by
      by_contra early
      rw [isSpace_of_slice sound.gap late (by omega) found] at visible
      cases visible
    by_cases inside : position < item.stop
    · exact ⟨item, by grind, by grind⟩
    · obtain ⟨other, found, unique⟩ := covered.covers position char (by omega) found visible
      exact ⟨other, by grind, by grind⟩

theorem coverageFrom_ok {values : List Value} {read : List CoverageItem}
    (done : coverageFrom text operations questions previous values = .ok read) :
    Covered text previous read ∧ ∀ item ∈ read, ∃ earlier, item.Sound text operations questions earlier := by
  induction values generalizing previous read with
  | nil =>
    simp only [coverageFrom, bind_ok, require_ok, pure_ok] at done
    obtain ⟨_, blank, rfl⟩ := done
    rw [← take_length (l := text)] at blank
    refine ⟨⟨by simp, .nil, fun position char late found visible => ?_⟩, by simp⟩
    rw [isSpace_of_slice blank late (List.getElem?_eq_some_iff.mp found).1 found] at visible
    cases visible
  | cons value values ih =>
    simp only [coverageFrom, bind_ok, pure_ok] at done
    obtain ⟨item, first, rest, later, rfl⟩ := done
    have sound := coverageItem_ok first
    exact ⟨(ih later).1.cons sound, forall_mem_cons.mpr ⟨⟨_, sound⟩, (ih later).2⟩⟩

/-- Accepted items are ordered and disjoint, each visible character lies in exactly one of them, and each names the
references its label asks for. -/
theorem coverage_partitions (text : List Char) (operations questions : List String) (items : Value)
    (read : List CoverageItem) (accepted : coverage text operations questions items = .ok read) :
    (read.Pairwise fun first second => first.stop ≤ second.start) ∧
    (∀ item ∈ read, item.start < item.stop ∧ item.stop ≤ text.length) ∧
    (∀ position char, text[position]? = some char → isSpace char = false →
      ∃! item, item ∈ read ∧ item.start ≤ position ∧ position < item.stop) ∧
    ∀ item ∈ read, item.Refers operations questions := by
  cases items with
  | array values =>
    simp only [coverage, bind_ok, require_ok] at accepted
    obtain ⟨_, _, done⟩ := accepted
    obtain ⟨covered, sound⟩ := coverageFrom_ok done
    refine ⟨covered.ordered, fun item member => ?_, fun position char => covered.covers position char (Nat.zero_le _),
      fun item member => ?_⟩
    · obtain ⟨_, checked⟩ := sound item member
      exact checked.span.2
    · obtain ⟨_, checked⟩ := sound item member
      exact checked.refers
  | _ => cases accepted

def noteSpan (start stop : ℤ) (label : String) (operations : List String) : Value :=
  .object [("start", .integer start), ("end", .integer stop), ("label", .text label),
    ("operation_ids", .array (operations.map .text)), ("question_ids", .array [])]

theorem coverage_partitions_note :
    ∃ read, coverage "pay 5 ok".toList ["op_1"] []
        (.array [noteSpan 0 5 "resolved_instruction" ["op_1"], noteSpan 6 8 "non_instruction" []]) = .ok read ∧
      ∃! item, item ∈ read ∧ item.start ≤ 7 ∧ 7 < item.stop := by
  obtain ⟨read, accepted⟩ : ∃ read, coverage "pay 5 ok".toList ["op_1"] []
      (.array [noteSpan 0 5 "resolved_instruction" ["op_1"], noteSpan 6 8 "non_instruction" []]) = .ok read := by
    decide +kernel
  exact ⟨read, accepted, (coverage_partitions _ _ _ _ read accepted).2.2.1 7 'k' rfl (by decide)⟩

end FinanceCore.ParserProposals

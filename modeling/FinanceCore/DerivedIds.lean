import FinanceCore.Foundation.Calendar
import FinanceCore.Foundation.Joining
import FinanceCore.Settlement.Runtime

namespace FinanceCore.DerivedIds

open Calendar Joining Settlement Text

section

variable {ι : Type} (hash : String → String) (separator : Char) (parts : ι → List String) (name : ι → String)

/-- Where the hash tells the joined texts of two inputs apart, their names agree exactly when their parts have the
same pieces. -/
def NamedByPieces : Prop :=
  ∀ first second, Set.InjOn hash {join separator (parts first), join separator (parts second)} →
    (name first = name second ↔ pieces separator (parts first) = pieces separator (parts second))

variable {hash separator parts name}

theorem namedByPieces_of_hash (label : String)
    (named : ∀ input, parts input ≠ [] ∧ name input = label ++ hash (join separator (parts input))) :
    NamedByPieces hash separator parts name := by
  intro first second apart
  rw [(named first).2, (named second).2, String.append_right_inj, ← join_eq_iff (named first).1 (named second).1]
  exact ⟨Set.injOn_pair.mp apart, congrArg hash⟩

end

def obligationParts (key : String × String × ℕ) : List String := [key.1, key.2.1, String.ofList (natDigits key.2.2)]

/-- What the identifier of a created transaction is derived from. -/
structure MutationInput where
  (proposalId operationId humanConfirmationId idempotencyKey canonicalAmount currency : String)
  transactionDate : Option CalendarDate
  merchant : Option String

def MutationInput.parts (inp : MutationInput) : List String :=
  [inp.proposalId, inp.operationId, inp.humanConfirmationId, inp.idempotencyKey, inp.canonicalAmount, inp.currency,
    (inp.transactionDate.map fun date => String.ofList (isoDate date)).getD "", inp.merchant.getD ""]

section

variable (sha256Hex : String → String)

/-- The first digits of the hash of a text. -/
def digest (length : ℕ) (raw : String) : String := ((sha256Hex raw).take length).toString

def makeTransactionPublicId (receiptGroupPublicId calculationRunPublicId : String) : String :=
  "fin-txn-" ++ digest sha256Hex 12 ("fin-txn|" ++ receiptGroupPublicId ++ "|" ++ calculationRunPublicId)

def generateTransactionPublicId (inp : MutationInput) : String :=
  "txn-fm-" ++ digest sha256Hex 16 ("|".intercalate inp.parts)

/-- The identifiers of obligations, of finalized receipts and of created transactions tell exactly those inputs
apart whose components have different pieces between the separators. -/
theorem derived_ids_by_pieces (uuid5 : String → BitVec 128) :
    NamedByPieces (uuidText ∘ uuid5) ':' obligationParts (fun key => makeObligationId uuid5 key.1 key.2.1 key.2.2) ∧
    NamedByPieces (digest sha256Hex 12) '|' (fun key : String × String => ["fin-txn", key.1, key.2])
      (fun key => makeTransactionPublicId sha256Hex key.1 key.2) ∧
    NamedByPieces (digest sha256Hex 16) '|' MutationInput.parts (generateTransactionPublicId sha256Hex) := by
  refine ⟨namedByPieces_of_hash "" fun key => ⟨List.cons_ne_nil _ _, ?_⟩,
    namedByPieces_of_hash "fin-txn-" fun key => ⟨List.cons_ne_nil _ _, ?_⟩,
    namedByPieces_of_hash "txn-fm-" fun inp => ⟨List.cons_ne_nil _ _, rfl⟩⟩
  · simp [makeObligationId, join, obligationParts, String.append_assoc]
  · simp [makeTransactionPublicId, join, String.append_assoc]

end

/-- A checksum that stands for the hash of a name. -/
def sampleUuid5 (text : String) : BitVec 128 :=
  .ofNat 128 (text.toList.foldl (fun sum char => 257 * sum + char.toNat) 1)

/-- Keys with the same pieces share a name, and keys with other pieces do not. -/
theorem derived_ids_by_pieces_sample :
    makeObligationId sampleUuid5 "group:1" "case" 0 = makeObligationId sampleUuid5 "group" "1:case" 0 ∧
    makeObligationId sampleUuid5 "group:1" "case" 0 ≠ makeObligationId sampleUuid5 "group:2" "case" 0 := by
  have named := (derived_ids_by_pieces id sampleUuid5).1
  constructor
  · exact (named ("group:1", "case", 0) ("group", "1:case", 0) (Set.injOn_pair.mpr fun _ => rfl)).mpr (by decide)
  · have apart : Set.InjOn (uuidText ∘ sampleUuid5)
        {join ':' (obligationParts ("group:1", "case", 0)), join ':' (obligationParts ("group:2", "case", 0))} :=
      Set.injOn_pair.mpr (by decide +kernel)
    exact (named ("group:1", "case", 0) ("group:2", "case", 0) apart).not.mpr (by decide)

def sampleMutation (proposalId operationId : String) : MutationInput :=
  ⟨proposalId, operationId, "confirmation", "key", "12.50", "SGD", none, none⟩

/-- Inputs of each kind that share a name under every hash. -/
theorem separator_inside_component :
    (fun uuid5 => makeObligationId uuid5 "group:1" "case" 0) =
      (fun uuid5 => makeObligationId uuid5 "group" "1:case" 0) ∧
    (fun sha256Hex => makeTransactionPublicId sha256Hex "group|1" "run") =
      (fun sha256Hex => makeTransactionPublicId sha256Hex "group" "1|run") ∧
    (fun sha256Hex => generateTransactionPublicId sha256Hex (sampleMutation "proposal|1" "operation")) =
      fun sha256Hex => generateTransactionPublicId sha256Hex (sampleMutation "proposal" "1|operation") :=
  ⟨rfl, rfl, rfl⟩

end FinanceCore.DerivedIds

import FinanceCore.Calculation.Encoding
import FinanceCore.Reconciliation.Matcher

namespace FinanceCore.Reconciliation

open Calculation Decimal Exceptions Money Sorting Text Unicode List Option

variable {host : Platform} {line : StatementTransaction}

/-- The canonical text of the decimal is inside the length limit. -/
def Writable (number : Number) : Prop := (canonicalDecimalStr number).isSome

instance (number : Number) : Decidable (Writable number) := inferInstanceAs (Decidable ((_ : Option _).isSome = true))

theorem significantDigits_length (coefficient : ℕ) :
    (significantDigits coefficient).length + trailingZeros coefficient = digitCount coefficient := by
  have whole := congrArg List.length (significantDigits_append coefficient)
  rw [length_append, length_replicate, natDigits, length_fixedDigits] at whole
  omega

theorem digitCount_le {coefficient places : ℕ} (positive : 0 < places)
    (small : coefficient < 10 ^ places) :
    digitCount coefficient ≤ places := by
  exact Nat.log_lt_of_lt_pow' (by omega) small

/-- The decimal of a float is short. -/
theorem FloatReading.writable (reading : FloatReading) : Writable reading.number := by
  have length := significantDigits_length reading.number.coefficient
  have digits := digitCount_le (by norm_num) reading.digits
  have exponent := reading.exponent
  have short (sign : ℕ) (one : sign ≤ 1) : ¬ maxCanonicalDecimalChars < outputLength sign
      (significantDigits reading.number.coefficient).length
      (reading.number.exponent + trailingZeros reading.number.coefficient) := by
    unfold outputLength maxCanonicalDecimalChars
    split_ifs <;> omega
  unfold Writable canonicalDecimalStr
  by_cases zero : reading.number.coefficient = 0
  · rw [if_pos zero]
    rfl
  · rw [if_neg zero]
    rw [if_neg (short _ (by split_ifs <;> omega))]
    rfl

theorem decimalText_ok_iff {number : Option Number} :
    (∃ text, decimalText number = .ok text) ↔ ∀ amount ∈ number, Writable amount := by
  cases number with
  | none => simp [decimalText]
  | some number =>
    simp only [mem_def, some.injEq, forall_eq']
    constructor
    · rintro ⟨text, run⟩
      obtain ⟨written, done, _⟩ := map_ok.mp run
      rw [Writable, expect_ok.mp done]
      rfl
    · intro writable
      obtain ⟨text, written⟩ := isSome_iff_exists.mp writable
      exact ⟨some text, map_ok.mpr ⟨text, expect_ok.mpr written, rfl⟩⟩

section Materials

/-- The keys are distinct ASCII texts. -/
def fixedKeys (keys : List String) : Bool := decide keys.Nodup && keys.all fun key => key.toList.all isAscii

/-- A mapping under fixed keys is encodable when its values are. -/
theorem encodable_mapping {entries : List (String × Value)}
    (values : ∀ entry ∈ entries, Encodable host.tables entry.2)
    (keys : fixedKeys (entries.map Prod.fst) := by simp only [map_cons, map_nil]; decide) :
    Encodable host.tables (.mapping entries) := by
  obtain ⟨distinct, ascii⟩ := Bool.and_eq_true_iff.mp keys
  refine ⟨of_decide_eq_true distinct, (encodableEntries_iff _ _).mpr ?_⟩
  intro entry member
  refine ⟨?_, values entry member⟩
  exact host.normalization.nfc_ascii (all_eq_true.mp ascii _ (mem_map_of_mem member))

theorem encodable_optionalText (text : Option String) : Encodable host.tables (optionalText text) := by
  cases text <;> trivial

theorem encodable_texts (texts : List String) : Encodable host.tables (.sequence .list (texts.map .text)) := by
  refine (encodableItems_iff _ _).mpr ?_
  intro item member
  obtain ⟨text, _, rfl⟩ := mem_map.mp member
  trivial

/-- The canonical text of an encodable value. -/
def writtenText (platform : Platform) (value : Value) : String :=
  String.ofList (Json.dumps false (envelope (encoded platform.tables value)))

theorem canonicalText_of_encodable {value : Value} (encodable : Encodable host.tables value) :
    canonicalText host value = .ok (writtenText host value) := by
  rw [canonicalText, canonicalJsonText_of_encodable encodable]
  rfl

variable {material : Value} {rows : List Value}

theorem candidateMaterial_encodable {eval : CandidateEvaluation}
    (run : candidateMaterial host eval = .ok material) : Encodable host.tables material := by
  obtain ⟨amount, _, run⟩ := bind_ok.mp run
  obtain ⟨score, _, run⟩ := bind_ok.mp run
  rw [← pure_ok.mp run]
  refine encodable_mapping ?_
  simp only [forall_mem_cons, encodable_optionalText, encodable_texts]
  split <;> simp [Calculation.Encodable]

theorem deriveStatementIdentity_ok (host : Platform) (writable : ∀ amount ∈ line.amount, Writable amount) :
    ∃ identity, deriveStatementIdentity host line = .ok identity := by
  unfold deriveStatementIdentity
  split
  · exact ⟨_, rfl⟩
  · obtain ⟨amount, written⟩ := decimalText_ok_iff.mpr writable
    rw [written, ok_bind, canonicalText_of_encodable]
    · exact ⟨_, rfl⟩
    · refine encodable_mapping ?_
      simp [encodable_optionalText, Calculation.Encodable]

theorem statementMaterial_ok_iff (host : Platform) :
    (∃ material, statementMaterial host line = .ok material) ↔
      ∀ amount ∈ line.amount, Writable amount := by
  constructor
  · rintro ⟨material, run⟩
    obtain ⟨identity, _, run⟩ := bind_ok.mp run
    obtain ⟨amount, written, _⟩ := bind_ok.mp run
    exact decimalText_ok_iff.mp ⟨amount, written⟩
  · intro writable
    obtain ⟨identity, derived⟩ := deriveStatementIdentity_ok host writable
    obtain ⟨amount, written⟩ := decimalText_ok_iff.mpr writable
    unfold statementMaterial
    rw [derived, written]
    exact ⟨_, rfl⟩

theorem statementMaterial_encodable (run : statementMaterial host line = .ok material) :
    Encodable host.tables material := by
  obtain ⟨identity, _, run⟩ := bind_ok.mp run
  obtain ⟨amount, _, run⟩ := bind_ok.mp run
  rw [← pure_ok.mp run]
  refine encodable_mapping ?_
  simp [encodable_optionalText, Calculation.Encodable]

theorem thresholdMaterial_encodable (params : MatchParameters) :
    Encodable host.tables (thresholdMaterial params) := by
  refine encodable_mapping ?_
  simp [Calculation.Encodable]

/-- The value that the fingerprint of the entries is taken of. -/
abbrev candidateSet (rows : List Value) : Value :=
  .mapping [("candidate_set_version", .text candidateSetVersion), ("candidates", .sequence .list rows)]

theorem candidateSet_encodable (each : ∀ row ∈ rows, Encodable host.tables row) :
    Encodable host.tables (candidateSet rows) := by
  refine encodable_mapping ?_
  simpa [Calculation.Encodable, encodableItems_iff] using each

theorem decisionMaterial_encodable {line thresholds : Value} (contractVersion fingerprint : String)
    (versions : DecisionVersions) (decision : FinalDecision)
    (described : Encodable host.tables line) (limits : Encodable host.tables thresholds)
    (each : ∀ row ∈ rows, Encodable host.tables row) :
    Encodable host.tables (decisionMaterial contractVersion versions line thresholds fingerprint rows decision) := by
  refine encodable_mapping ?_
  simp only [forall_mem_cons, not_mem_nil, IsEmpty.forall_iff, implies_true, and_true]
  refine ⟨trivial, trivial, trivial, trivial, described, limits, trivial, (encodableItems_iff _ _).mpr each, ?_⟩
  refine encodable_mapping ?_
  simp only [forall_mem_cons, not_mem_nil, IsEmpty.forall_iff, implies_true, and_true]
  exact ⟨trivial, encodable_texts _, encodable_optionalText _, encodable_optionalText _⟩

end Materials

section Record

variable {params : MatchParameters} {versions : DecisionVersions} {evals : List CandidateEvaluation}

theorem candidateMaterial_ok_iff {eval : CandidateEvaluation} :
    (∃ material, candidateMaterial host eval = .ok material) ↔ Writable eval.candidate.amount := by
  constructor
  · rintro ⟨material, run⟩
    obtain ⟨amount, written, _⟩ := bind_ok.mp run
    rw [Writable, expect_ok.mp written]
    rfl
  · intro writable
    obtain ⟨amount, written⟩ := isSome_iff_exists.mp writable
    have scored : ∀ number ∈ eval.merchantSimilarityScore.map FloatReading.number, Writable number := by
      intro number member
      obtain ⟨reading, _, rfl⟩ := map_eq_some_iff.mp member
      exact reading.writable
    obtain ⟨score, scoreText⟩ := decimalText_ok_iff.mpr scored
    have amountText : expect (canonicalDecimalStr eval.candidate.amount) MatchError.amountTooLong = .ok amount :=
      expect_ok.mpr written
    unfold candidateMaterial
    rw [amountText, scoreText]
    exact ⟨_, rfl⟩

/-- The candidate entries exist when every amount can be written. -/
theorem candidateSetMaterial_ok_iff (host : Platform) :
    (∃ materials, candidateSetMaterial host evals = .ok materials) ↔
      ∀ eval ∈ evals, Writable eval.candidate.amount := by
  constructor
  · rintro ⟨materials, run⟩ eval member
    obtain ⟨entries, read, _⟩ := bind_ok.mp run
    obtain ⟨entry, _, done⟩ := exists_of_mem_forall₂ (mapM_ok.mp read).flip member
    obtain ⟨material, made, _⟩ := map_ok.mp done
    exact candidateMaterial_ok_iff.mp ⟨material, made⟩
  · intro writable
    have each : ∀ eval ∈ evals, ∃ entry,
        ((eval.candidate.internalId, ·) <$> candidateMaterial host eval) = .ok entry := by
      intro eval member
      obtain ⟨material, made⟩ := candidateMaterial_ok_iff.mpr (writable eval member)
      exact ⟨_, map_ok.mpr ⟨material, made, rfl⟩⟩
    obtain ⟨entries, read⟩ := mapM_succeeds each
    exact ⟨_, bind_ok.mpr ⟨entries, read, rfl⟩⟩

theorem candidateSetMaterial_encodable {materials : List Value}
    (run : candidateSetMaterial host evals = .ok materials) :
    ∀ material ∈ materials, Encodable host.tables material := by
  obtain ⟨entries, read, sorted⟩ := bind_ok.mp run
  intro material member
  rw [← pure_ok.mp sorted] at member
  obtain ⟨entry, inside, rfl⟩ := mem_map.mp member
  obtain ⟨eval, _, done⟩ := exists_of_mem_forall₂ (mapM_ok.mp read) (mem_sortOn.mp inside)
  obtain ⟨made, run, rfl⟩ := map_ok.mp done
  exact candidateMaterial_encodable run

/-- The hashed material of a result. -/
def resultMaterial (platform : Platform) (parameters : MatchParameters)
    (versions : DecisionVersions)
    (result : MatchResult) (candidates : List Value) (described : Value) : Value :=
  decisionMaterial decisionContractVersion versions described (thresholdMaterial parameters)
    (domainHash platform candidateHashDomain (writtenText platform (.mapping
      [("candidate_set_version", .text candidateSetVersion), ("candidates", .sequence .list candidates)])))
    candidates
    { status := result.status.value
      reasonCodes := result.reasons.map ReasonCode.value
      bestCandidatePublicId := result.bestCandidate.map InternalCandidate.internalId
      authorizationPublicId := versions.authorizationPublicId }

variable {result : MatchResult}

/-- The record holds the text of the material and the hashes of both texts. -/
theorem buildDecisionRecord_eq {rows : List Value} {described : Value}
    (listed : candidateSetMaterial host evals = .ok rows)
    (written : statementMaterial host line = .ok described) :
    buildDecisionRecord host params versions line result evals = .ok
      { decisionHash := domainHash host decisionHashDomain
          (writtenText host (resultMaterial host params versions result rows described))
        decisionMaterialJson :=
          writtenText host (resultMaterial host params versions result rows described)
        candidateSetFingerprint := domainHash host candidateHashDomain (writtenText host (candidateSet rows)) } := by
  have each := candidateSetMaterial_encodable listed
  have encodable (fingerprint : String) (decision : FinalDecision) :=
    decisionMaterial_encodable decisionContractVersion fingerprint versions decision
      (statementMaterial_encodable written) (thresholdMaterial_encodable params) each
  unfold buildDecisionRecord candidateSetFingerprint
  rw [listed, ok_bind, canonicalText_of_encodable (candidateSet_encodable each)]
  simp only [ok_bind, written, pure_bind, canonicalText_of_encodable (encodable _ _)]
  rfl

/-- A decision is recorded exactly when the amounts can be written. -/
theorem buildDecisionRecord_ok_iff (host : Platform) :
    (∃ record, buildDecisionRecord host params versions line result evals = .ok record) ↔
      (∀ eval ∈ evals, Writable eval.candidate.amount) ∧
      ∀ amount ∈ line.amount, Writable amount := by
  constructor
  · rintro ⟨record, run⟩
    simp only [buildDecisionRecord, bind_ok] at run
    obtain ⟨rows, listed, fingerprint, _, described, written, _⟩ := run
    exact ⟨(candidateSetMaterial_ok_iff host).mp ⟨rows, listed⟩,
      (statementMaterial_ok_iff host).mp ⟨described, written⟩⟩
  · rintro ⟨amounts, writable⟩
    obtain ⟨rows, listed⟩ := (candidateSetMaterial_ok_iff host).mpr amounts
    obtain ⟨described, written⟩ := (statementMaterial_ok_iff host).mpr writable
    exact ⟨_, buildDecisionRecord_eq listed written⟩

end Record

end FinanceCore.Reconciliation

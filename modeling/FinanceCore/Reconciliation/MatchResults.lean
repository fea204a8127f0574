import FinanceCore.Reconciliation.OrderIndependence
import FinanceCore.Reconciliation.Serialization

namespace FinanceCore.Reconciliation

open Decimal Exceptions Sorting List

section Results

variable {platform : Platform} {context : Context} {parameters : MatchParameters} {versions : DecisionVersions}
  {line : StatementTransaction} {candidates : List InternalCandidate}

/-- A result is about its row, names candidates of the list only, and has a best candidate exactly when it is
matched. -/
structure Grounded (statement : StatementTransaction) (candidates : List InternalCandidate)
    (result : MatchResult) :
    Prop where
  statement : result.statement = statement
  inside : ∀ candidate ∈ result.candidates, candidate ∈ candidates
  best : ∀ candidate, result.bestCandidate = some candidate → candidate ∈ result.candidates
  matched : result.status = .matched ↔ result.bestCandidate.isSome

theorem grounded_evaluatedResult {status : MatchStatus} (other : status ≠ .matched) (reasons : List ReasonCode)
    (eval : CandidateEvaluation) (days : ℤ) {considered : List CandidateEvaluation}
    (inside : ∀ eval ∈ considered, eval.candidate ∈ candidates) :
    Grounded line candidates (evaluatedResult line days status reasons eval considered) where
  statement := rfl
  inside := by
    exact forall_mem_map.mpr inside
  best := by
    intro row found
    cases found
  matched := by simp [evaluatedResult, other]

variable {result : MatchResult} {evals : List CandidateEvaluation}

theorem grounded_scoredResult {days : ℤ} {scored : List CandidateEvaluation}
    (found : scoredResult platform line days scored = some result)
    (inside : ∀ eval ∈ scored, eval.candidate ∈ candidates) : Grounded line candidates result := by
  match scored, found with
  | [eval], found =>
    rw [← Option.some.inj found]
    refine ⟨rfl, ?_, ?_, by simp [evaluatedResult]⟩
    · exact forall_mem_map.mpr inside
    · intro row best
      rw [← Option.some.inj best]
      exact mem_cons_self
  | first :: second :: rest, found =>
    rw [← Option.some.inj found]
    exact grounded_evaluatedResult (by split_ifs <;> decide) _ _ _ inside

theorem grounded_resultFromEvaluations (days : ℤ) (inside : ∀ eval ∈ evals, eval.candidate ∈ candidates) :
    Grounded line candidates (resultFromEvaluations platform context line days evals) := by
  have currency : ∀ eval ∈ currencyMatched evals, eval.candidate ∈ candidates :=
    fun eval member => inside eval (mem_of_mem_filter member)
  have direction : ∀ eval ∈ directionMatched evals, eval.candidate ∈ candidates :=
    fun eval member => currency eval (mem_of_mem_filter member)
  have amount : ∀ eval ∈ amountMatched evals, eval.candidate ∈ candidates :=
    fun eval member => direction eval (mem_of_mem_filter member)
  have date : ∀ eval ∈ dateMatched evals, eval.candidate ∈ candidates :=
    fun eval member => amount eval (mem_of_mem_filter member)
  have ranked : ∀ eval ∈ scored context evals, eval.candidate ∈ candidates :=
    fun eval member => date eval (mem_of_mem_filter (mem_sortOn.mp member))
  unfold resultFromEvaluations
  split
  · refine ⟨rfl, ?_, by simp, by simp⟩
    exact forall_mem_map.mpr inside
  · rename_i kept
    rw [kept] at currency
    split
    · exact grounded_evaluatedResult (by decide) _ _ _ currency
    · rename_i kept
      rw [kept] at direction
      split
      · exact grounded_evaluatedResult (by decide) _ _ _ direction
      · rename_i kept
        rw [kept] at amount
        split
        · exact grounded_evaluatedResult (by decide) _ _ _ amount
        · rename_i kept
          rw [kept] at date
          cases found : scoredResult platform line days (scored context evals) with
          | none => exact grounded_evaluatedResult (by decide) _ _ _ date
          | some result => exact grounded_scoredResult found ranked

theorem grounded_undecidedResult (platform : Platform) (context : Context)
    (parameters : MatchParameters) :
    Grounded line candidates (undecidedResult platform context parameters line candidates) := by
  unfold undecidedResult
  split
  · exact ⟨rfl, fun _ member => member, by simp, by simp⟩
  · split_ifs
    · exact ⟨rfl, fun _ member => member, by simp, by simp⟩
    · exact ⟨rfl, by simp, by simp, by simp⟩
    · apply grounded_resultFromEvaluations
      intro eval member
      obtain ⟨row, listed, rfl⟩ := mem_map.mp member
      rw [candidate_evaluateCandidate]
      exact listed

/-- A decided result is the undecided one with a proof. -/
theorem matchStatement_ok (run : matchStatement platform context parameters versions line candidates = .ok result) :
    ∃ proof, result = { undecidedResult platform context parameters line candidates with proof := some proof } := by
  obtain ⟨_, _, run⟩ := bind_ok.mp run
  obtain ⟨_, _, run⟩ := bind_ok.mp run
  obtain ⟨record, _, run⟩ := bind_ok.mp run
  exact ⟨_, (pure_ok.mp run).symm⟩

/-- The tolerances are not negative and the threshold is a proportion. -/
def MatchParameters.Valid (parameters : MatchParameters) : Prop :=
  (0 ≤ parameters.dateToleranceDays ∧ 0 ≤ parameters.postedDateWindowDays) ∧
    0 ≤ parameters.merchantSimilarityThreshold.number.value ∧ parameters.merchantSimilarityThreshold.number.value ≤ 1

theorem attachDecisionHash_ok_iff :
    (∃ decided, attachDecisionHash platform parameters versions result line evals = .ok decided) ↔
      (∀ eval ∈ evals, Writable eval.candidate.amount) ∧
      ∀ amount ∈ line.amount, Writable amount := by
  rw [← buildDecisionRecord_ok_iff platform]
  constructor
  · rintro ⟨decided, run⟩
    obtain ⟨record, built, _⟩ := bind_ok.mp run
    exact ⟨record, built⟩
  · rintro ⟨record, built⟩
    exact ⟨_, bind_ok.mpr ⟨record, built, rfl⟩⟩

theorem writable_evaluateAll :
    (∀ eval ∈ evaluateAll platform parameters line candidates, Writable eval.candidate.amount) ↔
      ∀ row ∈ candidates, Writable row.amount := by
  simp [evaluateAll]

/-- When a row is matched without an error. -/
theorem matchStatement_ok_iff :
    (∃ result, matchStatement platform context parameters versions line candidates = .ok result) ↔
      parameters.Valid ∧ (candidates.map InternalCandidate.internalId).Nodup ∧
        (∀ row ∈ candidates, Writable row.amount) ∧ ∀ amount ∈ line.amount, Writable amount := by
  constructor
  · rintro ⟨result, run⟩
    simp only [matchStatement, bind_ok] at run
    obtain ⟨_, valid, _, distinct, run⟩ := run
    obtain ⟨_, tolerances, threshold⟩ := bind_ok.mp valid
    have writable := attachDecisionHash_ok_iff.mp ⟨result, run⟩
    exact ⟨⟨require_ok.mp tolerances, require_ok.mp threshold⟩, require_ok.mp distinct,
      writable_evaluateAll.mp writable.1, writable.2⟩
  · rintro ⟨⟨tolerances, threshold⟩, distinct, amounts, writable⟩
    obtain ⟨decided, run⟩ := attachDecisionHash_ok_iff.mpr ⟨writable_evaluateAll.mpr amounts, writable⟩
    refine ⟨decided, bind_ok.mpr ⟨(), bind_ok.mpr ⟨(), require_ok.mpr tolerances, ?_⟩, ?_⟩⟩
    · exact require_ok.mpr threshold
    · exact bind_ok.mpr ⟨(), require_ok.mpr distinct, run⟩

end Results

end FinanceCore.Reconciliation

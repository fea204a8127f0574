import FinanceCore.Reconciliation.Matcher

namespace FinanceCore.Reconciliation

open Calculation Decimal Exceptions Sorting List

variable {host : Platform} {context : Context} {params : MatchParameters}
  {line : StatementTransaction} {evals permuted : List CandidateEvaluation}

/-- The parts of a result that its decision is hashed from. -/
def MatchResult.verdict (result : MatchResult) : MatchStatus × List ReasonCode × Option InternalCandidate :=
  (result.status, result.reasons, result.bestCandidate)

@[simp] theorem candidate_evaluateCandidate (candidate : InternalCandidate) :
    (evaluateCandidate host params line candidate).candidate = candidate := by
  unfold evaluateCandidate evaluateMerchant
  dsimp only
  split_ifs <;> rfl

theorem evaluateAll_candidates (host : Platform) (params : MatchParameters)
    (line : StatementTransaction) (candidates : List InternalCandidate) :
    (evaluateAll host params line candidates).map CandidateEvaluation.candidate = candidates := by
  rw [evaluateAll, map_map]
  conv_rhs => rw [← map_id candidates]
  apply map_congr_left
  intro candidate _
  exact candidate_evaluateCandidate candidate

/-- Among the candidates of the right currency, the compatibility determines the reason of a refusal. -/
def Reasoned (evaluation : CandidateEvaluation) : Prop :=
  "currency_compatible" ∈ evaluation.hardGateResults →
    (evaluation.compatibility = .reviewRequired → evaluation.compatibilityReason = .unknownTransactionType) ∧
    (evaluation.compatibility = .incompatible → evaluation.compatibilityReason = .directionTypeIncompatible)

/-- A row that passes the precheck has a clear direction. -/
theorem direction_of_precheck (passed : statementPrecheck host line = none) :
    ∃ direction, line.amountDirection = some direction ∧ direction ∉ unclearDirections := by
  unfold statementPrecheck at passed
  by_cases invalid : [line.publicId, line.rowFingerprint, line.statementRowReference].any (·.any Text.isBlank)
  · rw [if_pos invalid] at passed
    cases passed
  · rw [if_neg invalid] at passed
    cases given : line.amountDirection with
    | none => simp [given] at passed
    | some direction =>
      refine ⟨direction, rfl, ?_⟩
      intro unclear
      simp [given, unclear] at passed

theorem checkDirectionCompatibility_reasoned (host : Platform)
    {direction : StatementAmountDirection}
    (clear : direction ∉ unclearDirections) (candidate : InternalCandidate) :
    ((checkDirectionCompatibility host (some direction) candidate).result = .reviewRequired →
      (checkDirectionCompatibility host (some direction) candidate).reasonCode = .unknownTransactionType) ∧
    ((checkDirectionCompatibility host (some direction) candidate).result = .incompatible →
      (checkDirectionCompatibility host (some direction) candidate).reasonCode = .directionTypeIncompatible) := by
  unfold checkDirectionCompatibility
  dsimp only
  split_ifs <;> simp

theorem reasoned_evaluateCandidate (passed : statementPrecheck host line = none)
    (candidate : InternalCandidate) : Reasoned (evaluateCandidate host params line candidate) := by
  obtain ⟨direction, given, clear⟩ := direction_of_precheck passed
  have reasons := checkDirectionCompatibility_reasoned host clear candidate
  unfold Reasoned evaluateCandidate evaluateMerchant
  dsimp only
  split_ifs <;> simp_all

/-- What the gates decide, without an order of the candidates. -/
def gateVerdict (platform : Platform) (context : Context) (statement : StatementTransaction)
    (evaluations : List CandidateEvaluation) : MatchStatus × List ReasonCode × Option InternalCandidate :=
  if currencyMatched evaluations = [] then (.currencyMismatch, [.currencyDiffers], none)
  else if directionMatched evaluations = [] then
    (.needsReview, [if ∃ evaluation ∈ currencyMatched evaluations, evaluation.compatibility = .reviewRequired
      then .unknownTransactionType else .directionTypeIncompatible], none)
  else if amountMatched evaluations = [] then (.amountMismatch, [.amountDiffers], none)
  else if dateMatched evaluations = [] then (.dateMismatch, [.outsideDateTolerance], none)
  else ((scoredResult platform statement 0 (scored context evaluations)).map MatchResult.verdict).getD
    (.merchantMismatch, [.weakMerchantMatch], none)

theorem review_reason {head : CandidateEvaluation} {rest : List CandidateEvaluation}
    (reasoned : ∀ eval ∈ evals, Reasoned eval)
    (kept : currencyMatched evals = head :: rest) (refused : directionMatched evals = []) :
    (((head :: rest).find? fun eval => eval.compatibility = .reviewRequired).getD head).compatibilityReason
      = if ∃ eval ∈ currencyMatched evals, eval.compatibility = .reviewRequired
        then .unknownTransactionType else .directionTypeIncompatible := by
  have inside (eval : CandidateEvaluation) (member : eval ∈ head :: rest) :
      eval ∈ evals ∧ "currency_compatible" ∈ eval.hardGateResults := by
    rw [← kept, currencyMatched] at member
    simpa using member
  have notCompatible (eval : CandidateEvaluation) (member : eval ∈ head :: rest) :
      eval.compatibility ≠ .compatible := by
    rw [directionMatched, kept, filter_eq_nil_iff] at refused
    simpa using refused eval member
  rw [kept]
  cases found : (head :: rest).find? fun eval => eval.compatibility = .reviewRequired with
  | some review =>
    have member := mem_of_find?_eq_some found
    have required : review.compatibility = .reviewRequired := by simpa using List.find?_some found
    obtain ⟨listed, currency⟩ := inside review member
    rw [if_pos ⟨review, member, required⟩]
    exact (reasoned review listed currency).1 required
  | none =>
    obtain ⟨listed, currency⟩ := inside head mem_cons_self
    have incompatible : head.compatibility = .incompatible := by
      cases result : head.compatibility <;> simp_all
    rw [if_neg (by simpa using found)]
    exact (reasoned head listed currency).2 incompatible

theorem verdict_scoredResult (first second : ℤ) (scored : List CandidateEvaluation) :
    (scoredResult host line first scored).map MatchResult.verdict =
      (scoredResult host line second scored).map MatchResult.verdict := by
  match scored with
  | [] => rfl
  | [eval] => rfl
  | _ :: _ :: _ => rfl

/-- The verdict of the evaluations follows the gates. -/
theorem verdict_resultFromEvaluations (reasoned : ∀ eval ∈ evals, Reasoned eval)
    (dateToleranceDays : ℤ) :
    (resultFromEvaluations host context line dateToleranceDays evals).verdict =
      gateVerdict host context line evals := by
  unfold resultFromEvaluations gateVerdict
  cases currency : currencyMatched evals with
  | nil => rfl
  | cons head rest =>
    cases direction : directionMatched evals with
    | nil =>
      have reason := review_reason reasoned currency direction
      rw [currency] at reason
      rw [← reason]
      rfl
    | cons head rest =>
      cases amount : amountMatched evals with
      | nil => rfl
      | cons head rest =>
        cases date : dateMatched evals with
        | nil => rfl
        | cons head rest =>
          rw [verdict_scoredResult 0 dateToleranceDays]
          cases scoredResult host line dateToleranceDays (scored context evals) <;> rfl

section Permutation

variable (perm : evals.Perm permuted)

include perm

theorem currencyMatched_perm : (currencyMatched evals).Perm (currencyMatched permuted) := perm.filter _

theorem directionMatched_perm : (directionMatched evals).Perm (directionMatched permuted) :=
  (currencyMatched_perm perm).filter _

theorem amountMatched_perm : (amountMatched evals).Perm (amountMatched permuted) :=
  (directionMatched_perm perm).filter _

theorem dateMatched_perm : (dateMatched evals).Perm (dateMatched permuted) := (amountMatched_perm perm).filter _

omit perm in
theorem dateMatched_sublist (evals : List CandidateEvaluation) : (dateMatched evals).Sublist evals :=
  filter_sublist.trans (filter_sublist.trans (filter_sublist.trans filter_sublist))

variable (distinct : (evals.map fun eval => eval.candidate.internalId).Nodup)

include distinct in
/-- Candidates with distinct identities are ranked alike from every order. -/
theorem scored_perm : scored context evals = scored context permuted := by
  apply sortOn_eq_of_perm ((dateMatched_perm perm).filter _)
  have kept := distinct.sublist
    ((filter_sublist (p := CandidateEvaluation.eligible)).trans (dateMatched_sublist evals) |>.map _)
  apply List.Nodup.of_map fun key : ℚ ×ₗ String => (ofLex key).2
  rw [map_map]
  exact kept

include distinct in
theorem gateVerdict_perm : gateVerdict host context line evals = gateVerdict host context line permuted := by
  have empty {values others : List CandidateEvaluation} (same : values.Perm others) : values = [] ↔ others = [] :=
    ⟨fun nil => (nil ▸ same).symm.eq_nil, fun nil => (nil ▸ same).eq_nil⟩
  unfold gateVerdict
  simp only [empty (currencyMatched_perm perm), empty (directionMatched_perm perm), empty (amountMatched_perm perm),
    empty (dateMatched_perm perm), (currencyMatched_perm perm).mem_iff, scored_perm perm distinct]

omit perm in
theorem candidateMaterial_failsOnly (eval : CandidateEvaluation) :
    FailsOnly (· = .amountTooLong) (candidateMaterial host eval) := by
  have written (number : Option Number) : FailsOnly (· = .amountTooLong) (decimalText number) := by
    cases number <;> simp [decimalText]
  simp [candidateMaterial, written]

omit perm in
/-- The entries carry the identities of their candidates in order. -/
theorem identities_of_entries {entries : List (String × Value)} (run : evals.mapM (fun eval =>
      (eval.candidate.internalId, ·) <$> candidateMaterial host eval) = .ok entries) :
    entries.map Prod.fst = evals.map fun eval => eval.candidate.internalId := by
  have done := mapM_ok.mp run
  induction done with
  | nil => rfl
  | cons head _ ih =>
    obtain ⟨_, _, rfl⟩ := map_ok.mp head
    rw [map_cons, map_cons, ih (mapM_ok.mpr ‹_›)]

omit perm in
theorem candidateSetMaterial_failsOnly (evals : List CandidateEvaluation) :
    FailsOnly (· = .amountTooLong) (candidateSetMaterial host evals) := by
  simp [candidateSetMaterial, candidateMaterial_failsOnly]

include distinct in
theorem candidateSetMaterial_carries :
    Carries Eq (candidateSetMaterial host evals) (candidateSetMaterial host permuted) := by
  intro materials run
  obtain ⟨entries, read, sorted⟩ := bind_ok.mp run
  obtain ⟨others, readToo, same⟩ := Carries.mapM_perm perm entries read
  refine ⟨materials, bind_ok.mpr ⟨others, readToo, ?_⟩, rfl⟩
  rw [← identities_of_entries read] at distinct
  rw [← sortOn_eq_of_perm same distinct]
  exact sorted

include distinct in
/-- The hashed candidate entries do not depend on the order of the candidates. -/
theorem candidateSetMaterial_perm : candidateSetMaterial host evals = candidateSetMaterial host permuted := by
  have distinctToo := (perm.map fun eval => eval.candidate.internalId).nodup_iff.mp distinct
  cases run : candidateSetMaterial host evals with
  | ok materials =>
    obtain ⟨_, runToo, rfl⟩ := candidateSetMaterial_carries perm distinct materials run
    exact runToo.symm
  | error failure =>
    cases runToo : candidateSetMaterial host permuted with
    | ok materials =>
      obtain ⟨_, back, _⟩ := candidateSetMaterial_carries perm.symm distinctToo materials runToo
      rw [run] at back
      cases back
    | error other =>
      rw [candidateSetMaterial_failsOnly evals failure run, candidateSetMaterial_failsOnly permuted other runToo]

end Permutation

section Decision

variable {candidates others : List InternalCandidate} (versions : DecisionVersions)

theorem distinct_evaluateAll (distinct : (candidates.map InternalCandidate.internalId).Nodup) :
    ((evaluateAll host params line candidates).map fun eval =>
      eval.candidate.internalId).Nodup := by
  have named := congrArg (List.map InternalCandidate.internalId) (evaluateAll_candidates host params line candidates)
  rw [map_map] at named
  rw [← named] at distinct
  exact distinct

/-- The verdict on a row does not depend on the order of the candidates. -/
theorem verdict_undecidedResult (perm : candidates.Perm others)
    (distinct : (candidates.map InternalCandidate.internalId).Nodup) :
    (undecidedResult host context params line candidates).verdict =
      (undecidedResult host context params line others).verdict := by
  unfold undecidedResult
  cases passed : statementPrecheck host line with
  | some reason => rfl
  | none =>
    by_cases undated : line.transactionDate = none ∧ line.postedDate = none
    · rw [if_pos undated, if_pos undated]
      rfl
    · rw [if_neg undated, if_neg undated]
      by_cases empty : candidates = []
      · subst empty
        rw [perm.symm.eq_nil]
      · have other : others ≠ [] := fun nil => empty (nil ▸ perm).eq_nil
        have reasoned (values : List InternalCandidate) :
            ∀ eval ∈ evaluateAll host params line values, Reasoned eval := by
          exact forall_mem_map.mpr fun candidate _ => reasoned_evaluateCandidate passed candidate
        rw [if_neg empty, if_neg other, verdict_resultFromEvaluations (reasoned candidates),
          verdict_resultFromEvaluations (reasoned others)]
        exact gateVerdict_perm (perm.map _) (distinct_evaluateAll distinct)

theorem buildDecisionRecord_congr {result other : MatchResult}
    (same : result.verdict = other.verdict)
    (materials : candidateSetMaterial host evals = candidateSetMaterial host permuted) :
    buildDecisionRecord host params versions line result evals =
      buildDecisionRecord host params versions line other permuted := by
  obtain ⟨status, rest⟩ := Prod.mk.inj same
  obtain ⟨reasons, best⟩ := Prod.mk.inj rest
  unfold buildDecisionRecord
  rw [materials, status, reasons, best]

/-- What a caller sees of a decision. -/
def MatchResult.decision (result : MatchResult) :
    (MatchStatus × List ReasonCode × Option InternalCandidate) × Option (String × String) :=
  (result.verdict, result.proof.map fun proof => (proof.candidateSetFingerprint, proof.decisionHash))

theorem decision_attachDecisionHash (result : MatchResult) :
    MatchResult.decision <$> attachDecisionHash host params versions result line evals =
      (fun record => (result.verdict, some (record.candidateSetFingerprint, record.decisionHash))) <$>
        buildDecisionRecord host params versions line result evals := by
  unfold attachDecisionHash
  cases buildDecisionRecord host params versions line result evals <;> rfl

/-- Matching a row gives the same status, reasons, best candidate, candidate fingerprint and decision hash for every
order of the candidates. -/
theorem match_statement_order (platform : Platform) (context : Context) (parameters : MatchParameters)
    (versions : DecisionVersions) (statement : StatementTransaction)
    (perm : candidates.Perm others) :
    MatchResult.decision <$> matchStatement platform context parameters versions statement candidates =
      MatchResult.decision <$> matchStatement platform context parameters versions statement others := by
  unfold matchStatement
  cases validateMatcherParameters parameters with
  | error failure => rfl
  | ok valid =>
    have ids := perm.map InternalCandidate.internalId
    rw [ok_bind, ok_bind]
    by_cases distinct : (candidates.map InternalCandidate.internalId).Nodup
    · have passed : require (candidates.map InternalCandidate.internalId).Nodup MatchError.duplicateCandidates =
          .ok () := require_ok.mpr distinct
      have passedToo : require (others.map InternalCandidate.internalId).Nodup MatchError.duplicateCandidates =
          .ok () := require_ok.mpr (ids.nodup_iff.mp distinct)
      rw [passed, passedToo, ok_bind, ok_bind, decision_attachDecisionHash, decision_attachDecisionHash]
      have verdicts : (undecidedResult platform context parameters statement candidates).verdict =
          (undecidedResult platform context parameters statement others).verdict :=
        verdict_undecidedResult perm distinct
      have materials : candidateSetMaterial platform (evaluateAll platform parameters statement candidates) =
          candidateSetMaterial platform (evaluateAll platform parameters statement others) :=
        candidateSetMaterial_perm (perm.map _) (distinct_evaluateAll distinct)
      rw [verdicts, buildDecisionRecord_congr versions verdicts materials]
    · rw [require_eq_error.mpr ⟨distinct, rfl⟩, require_eq_error.mpr ⟨fun held => distinct (ids.nodup_iff.mpr held), rfl⟩]
      rfl

/-- Tables with one composition, an ASCII upper case, one digest and one similarity. -/
def Platform.plain : Platform where
  normalization := .kelvin
  characters := .minimal
  uppercase := fun char => [char.toUpper]
  sha256Hex := fun _ => String.ofList (List.replicate 64 '0')
  merchantSimilarity := fun _ _ => MatchParameters.standard.merchantSimilarityThreshold
  digest := fun _ => by decide

def newYear : Calendar.CalendarDate := ⟨2026, 1, 1, by decide, by decide, by decide⟩

/-- A purchase of one unit on a statement. -/
def samplePurchase : StatementTransaction where
  transactionDate := some newYear
  postedDate := none
  merchantRaw := "Cafe"
  amount := some ⟨false, 1, 0⟩
  currency := some "SGD"
  publicId := some "row-1"
  amountDirection := some .debit

/-- A ledger record of that purchase. -/
def sampleRecord (internalId : String) (identity : Text.isBlank internalId = false) : InternalCandidate where
  internalId := internalId
  transactionDate := newYear
  merchant := "Cafe"
  amount := ⟨false, 1, 0⟩
  currency := "SGD"
  sourceType := some "expense"
  identity := identity

/-- Two candidates that both match a row are reported alike in both orders. -/
theorem match_statement_order_swap :
    (matchStatement .plain .standard .standard {} samplePurchase
        [sampleRecord "app-1" (by decide), sampleRecord "app-2" (by decide)]).isOk ∧
      MatchResult.decision <$> matchStatement .plain .standard .standard {} samplePurchase
          [sampleRecord "app-1" (by decide), sampleRecord "app-2" (by decide)] =
        MatchResult.decision <$> matchStatement .plain .standard .standard {} samplePurchase
          [sampleRecord "app-2" (by decide), sampleRecord "app-1" (by decide)] :=
  ⟨by decide +kernel, match_statement_order .plain .standard .standard {} samplePurchase (List.Perm.swap _ _ _)⟩

end Decision

end FinanceCore.Reconciliation

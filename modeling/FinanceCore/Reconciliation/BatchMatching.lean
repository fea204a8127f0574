import FinanceCore.Reconciliation.Batch
import FinanceCore.Reconciliation.MatchResults

namespace FinanceCore.Reconciliation

open Decimal Exceptions Text List Except

variable {internal : List InternalCandidate} {apps : List AppTransaction}

section Apps

/-- The matcher accepts the app transaction as a candidate. -/
def Convertible (app : AppTransaction) : Prop :=
  isBlank app.appTxnId = false ∧ ∃ number, app.amount = .finite number

variable {app : AppTransaction}

variable {candidate : InternalCandidate}

theorem toInternal_ok (run : toInternal app = .ok candidate) :
    isBlank app.appTxnId = false ∧ app.amount = .finite candidate.amount ∧
      candidate.internalId = app.appTxnId := by
  unfold toInternal at run
  split at run
  · rename_i identity
    split at run
    · rename_i number shape
      obtain rfl := ok.inj run
      exact ⟨identity, shape, rfl⟩
    · cases run
  · cases run

theorem toInternal_ok_iff : (∃ candidate, toInternal app = .ok candidate) ↔ Convertible app := by
  constructor
  · rintro ⟨candidate, run⟩
    obtain ⟨identity, finite, _⟩ := toInternal_ok run
    exact ⟨identity, candidate.amount, finite⟩
  · rintro ⟨identity, number, finite⟩
    unfold toInternal
    rw [dif_pos identity]
    split
    · exact ⟨_, rfl⟩
    · rename_i other
      exact absurd finite (other number)

theorem appToInternal_related (run : appToInternal apps = .ok internal) :
    Forall₂ (fun app candidate => isBlank app.appTxnId = false ∧ app.amount = .finite candidate.amount ∧
      candidate.internalId = app.appTxnId) apps internal :=
  (mapM_ok.mp run).imp fun _ _ done => toInternal_ok done

/-- A candidate of the matcher stands for the app transaction of its identity. -/
theorem findApp_of_mem (run : appToInternal apps = .ok internal) (member : candidate ∈ internal) :
    ∃ app, findApp apps candidate.internalId = some app ∧ app ∈ apps ∧
      app.appTxnId = candidate.internalId := by
  obtain ⟨app, listed, _, _, named⟩ := exists_of_mem_forall₂ (appToInternal_related run) member
  have some : (findApp apps candidate.internalId).isSome := by
    rw [findApp, List.find?_isSome]
    exact ⟨app, listed, by simpa using named.symm⟩
  obtain ⟨found, hit⟩ := Option.isSome_iff_exists.mp some
  exact ⟨found, hit, mem_of_find?_eq_some hit, by simpa using List.find?_some hit⟩

theorem missingCandidate_ok {candidate : ReconciliationCandidate}
    (run : missingCandidate app = .ok candidate) :
    candidate.bestAppTransaction = some app ∧ candidate.matchStatus = .noMatch ∧
      candidate.issueType = .missingInStatement ∧ candidate.candidateId = "cand-missing-stmt-" ++ app.appTxnId := by
  unfold missingCandidate at run
  split at run
  · obtain rfl := ok.inj run
    exact ⟨rfl, rfl, rfl, rfl⟩
  · cases run

theorem missingCandidate_ok_of_finite (finite : ∃ number, app.amount = .finite number) :
    ∃ candidate, missingCandidate app = .ok candidate := by
  unfold missingCandidate
  split
  · exact ⟨_, rfl⟩
  · rename_i other
    obtain ⟨number, same⟩ := finite
    exact absurd same (other number)

end Apps

section Batch

variable {host : Platform} {ctx : Context} {params : MatchParameters} {statements : List StatementTransaction}
  {results : List MatchResult} {batch : List ReconciliationCandidate}

/-- The candidates of the rows before shared matches are downgraded. -/
def rowCandidates (apps : List AppTransaction) (results : List MatchResult) : List ReconciliationCandidate :=
  results.zipIdx.map fun numbered => batchCandidate apps numbered.2 numbered.1

/-- A batch is the candidates of the rows and an entry for every app transaction that they leave out. -/
theorem matchBatch_ok (run : matchBatch host ctx params statements apps = .ok batch) :
    ∃ internal results missing, appToInternal apps = .ok internal ∧ Forall₂ (fun line result =>
        matchStatement host ctx params {} line internal = .ok result) statements results ∧
      (apps.filter fun app => app.appTxnId ∉ referencedAppIds (rowCandidates apps results)).mapM missingCandidate =
        .ok missing ∧ batch = flagReusedMatchedAppTransactions (rowCandidates apps results) ++ missing := by
  simp only [matchBatch, bind_ok] at run
  obtain ⟨internal, converted, results, decided, missing, left, run⟩ := run
  refine ⟨internal, results, missing, converted, ?_, left, (pure_ok.mp run).symm⟩
  exact (mapM_ok.mp decided).imp fun _ _ done => mapError_ok.mp done

/-- What the caller must supply for a batch to be matched without an error. -/
def BatchReady (parameters : MatchParameters) (statements : List StatementTransaction)
    (apps : List AppTransaction) :
    Prop :=
  (∀ app ∈ apps, Convertible app) ∧
    (statements ≠ [] → parameters.Valid ∧ (∀ app ∈ apps, ∀ number, app.amount = .finite number → Writable number) ∧
      ∀ statement ∈ statements, ∀ amount ∈ statement.amount, Writable amount)

variable (distinct : (apps.map AppTransaction.appTxnId).Nodup)

include distinct in
/-- A batch of app transactions with distinct identities is matched exactly when it is ready. -/
theorem matchBatch_ok_iff :
    (∃ batch, matchBatch host ctx params statements apps = .ok batch) ↔ BatchReady params statements apps := by
  constructor
  · rintro ⟨batch, run⟩
    obtain ⟨internal, results, missing, converted, decided, _, _⟩ := matchBatch_ok run
    have related := appToInternal_related converted
    refine ⟨?_, ?_⟩
    · intro app member
      obtain ⟨candidate, _, identity, finite, _⟩ := exists_of_mem_forall₂ related.flip member
      exact ⟨identity, candidate.amount, finite⟩
    · intro nonempty
      have each (line : StatementTransaction) (member : line ∈ statements) :=
        (exists_of_mem_forall₂ decided.flip member).imp fun _ held => held.2
      obtain ⟨line, member⟩ := exists_mem_of_ne_nil statements nonempty
      obtain ⟨valid, _, amounts, _⟩ := matchStatement_ok_iff.mp (each line member)
      refine ⟨valid, ?_, ?_⟩
      · intro app listed number finite
        obtain ⟨candidate, found, _, same, _⟩ := exists_of_mem_forall₂ related.flip listed
        obtain rfl := Literal.finite.inj (finite.symm.trans same)
        exact amounts candidate found
      · intro other listed
        exact (matchStatement_ok_iff.mp (each other listed)).2.2.2
  · rintro ⟨convertible, ready⟩
    obtain ⟨internal, converted⟩ := mapM_succeeds fun app member => toInternal_ok_iff.mpr (convertible app member)
    have related := appToInternal_related converted
    have each : ∀ line ∈ statements, ∃ result,
        (matchStatement host ctx params {} line internal).mapError BatchError.matching = .ok result := by
      intro line member
      obtain ⟨valid, amounts, writable⟩ := ready (ne_nil_of_mem member)
      have done : ∃ result, matchStatement host ctx params {} line internal = .ok result := by
        refine matchStatement_ok_iff.mpr ⟨valid, ?_, ?_, writable line member⟩
        · rw [map_eq_of_forall₂ (fun _ _ held => held.2.2) (appToInternal_related converted)]
          exact distinct
        · intro candidate found
          obtain ⟨app, listed, _, finite, _⟩ := exists_of_mem_forall₂ related found
          exact amounts app listed candidate.amount finite
      obtain ⟨result, run⟩ := done
      exact ⟨result, mapError_ok.mpr run⟩
    obtain ⟨results, decided⟩ := mapM_succeeds each
    obtain ⟨missing, left⟩ := mapM_succeeds fun app
      (member : app ∈ apps.filter fun app => app.appTxnId ∉ referencedAppIds (rowCandidates apps results)) =>
        missingCandidate_ok_of_finite (convertible app (mem_of_mem_filter member)).2
    exact ⟨_, bind_ok.mpr ⟨internal, converted, bind_ok.mpr ⟨results, decided, bind_ok.mpr ⟨missing, left, rfl⟩⟩⟩⟩

section Rows

/-- Every result of the rows is grounded in the candidates. -/
theorem grounded_of_forall₂ {versions : DecisionVersions} (decided : Forall₂ (fun line result =>
      matchStatement host ctx params versions line internal = .ok result) statements results) :
    Forall₂ (Grounded · internal ·) statements results :=
  decided.imp fun _ _ run => by
    obtain ⟨proof, rfl⟩ := matchStatement_ok run
    obtain ⟨about, inside, best, matched⟩ := grounded_undecidedResult host ctx params
    exact ⟨about, inside, best, matched⟩

variable {result : MatchResult} {candidate : ReconciliationCandidate} {missing : List ReconciliationCandidate}
  {left : List AppTransaction}

theorem grounded_of_mem (grounded : Forall₂ (Grounded · internal ·)
    statements results) (member : result ∈ results) : ∃ line ∈ statements, Grounded line internal result :=
  exists_of_mem_forall₂ grounded member

theorem mem_rowCandidates (member : candidate ∈ rowCandidates apps results) :
    ∃ result ∈ results, ∃ index, candidate = batchCandidate apps index result := by
  obtain ⟨⟨result, index⟩, listed, rfl⟩ := mem_map.mp member
  exact ⟨result, (mem_zipIdx' listed).2 ▸ getElem_mem _, index, rfl⟩

variable (candidates : List ReconciliationCandidate)

theorem statement_flagReused :
    (flagReusedMatchedAppTransactions candidates).map ReconciliationCandidate.statement =
      candidates.map ReconciliationCandidate.statement := by
  rw [flagReusedMatchedAppTransactions, map_map]
  apply map_congr_left
  intro candidate _
  rw [Function.comp_apply]
  split_ifs <;> rfl

theorem candidateId_flagReused :
    (flagReusedMatchedAppTransactions candidates).map ReconciliationCandidate.candidateId =
      candidates.map ReconciliationCandidate.candidateId := by
  rw [flagReusedMatchedAppTransactions, map_map]
  apply map_congr_left
  intro candidate _
  rw [Function.comp_apply]
  split_ifs <;> rfl

theorem map_rowCandidates {γ : Type} (part : ReconciliationCandidate → γ) (label : MatchResult → γ)
    (same : ∀ index, ∀ result ∈ results, part (batchCandidate apps index result) = label result) :
    (rowCandidates apps results).map part = results.map label := by
  rw [rowCandidates, map_map]
  conv_rhs => rw [← zipIdx_map_fst 0 results, map_map]
  apply map_congr_left
  rintro ⟨result, index⟩ listed
  exact same index result ((mem_zipIdx' listed).2 ▸ getElem_mem _)

/-- The candidates of the rows stand in the order of the rows. -/
theorem statements_of_rows (apps : List AppTransaction)
    (grounded : Forall₂ (Grounded · internal ·) statements results) :
    (flagReusedMatchedAppTransactions (rowCandidates apps results)).map ReconciliationCandidate.statement =
      statements := by
  rw [statement_flagReused, map_rowCandidates _ MatchResult.statement fun _ _ _ => rfl]
  exact (map_eq_of_forall₂ (fun _ _ held => held.statement) grounded).trans (map_id' statements)

/-- The matched app transaction of a row is the best candidate of its result. -/
theorem matchedAppId_batchCandidate (converted : appToInternal apps = .ok internal)
    {line : StatementTransaction} (grounded : Grounded line internal result) (index : ℕ) :
    matchedAppId (batchCandidate apps index result) = matchedCandidateId result := by
  unfold matchedAppId matchedCandidateId
  change (if result.status = .matched then _ else _) = _
  by_cases matched : result.status = .matched
  · obtain ⟨best, found⟩ := Option.isSome_iff_exists.mp (grounded.matched.mp matched)
    obtain ⟨app, hit, _, named⟩ := findApp_of_mem converted (grounded.inside best (grounded.best best found))
    simp only [batchCandidate, found, hit, Option.map_some, named]
  · rw [if_neg matched, if_neg matched]

theorem matchedIds_rowCandidates (converted : appToInternal apps = .ok internal)
    (grounded : Forall₂ (Grounded · internal ·) statements results) :
    (rowCandidates apps results).filterMap matchedAppId = results.filterMap matchedCandidateId := by
  have same : (rowCandidates apps results).map matchedAppId = results.map matchedCandidateId := by
    apply map_rowCandidates
    intro index result member
    obtain ⟨line, _, held⟩ := grounded_of_mem grounded member
    exact matchedAppId_batchCandidate converted held index
  have through {α : Type} (part : α → Option String) (values : List α) :
      values.filterMap part = (values.map part).filterMap id := by
    rw [filterMap_map]
    rfl
  rw [through, same, ← through]

/-- The downgrade takes the matches of the chosen identities away and keeps the others. -/
theorem matchedIds_downgrade (chosen : String → Bool) (candidates : List ReconciliationCandidate) :
    (candidates.map fun candidate => if (matchedAppId candidate).any chosen then duplicateCandidate candidate
      else candidate).filterMap matchedAppId = (candidates.filterMap matchedAppId).filter fun appId => !chosen appId := by
  induction candidates with
  | nil => rfl
  | cons candidate candidates ih =>
    rw [map_cons]
    cases found : matchedAppId candidate with
    | none =>
      rw [if_neg (by simp), filterMap_cons_none found, filterMap_cons_none found, ih]
    | some appId =>
      rw [filterMap_cons_some found, Option.any_some]
      by_cases hit : chosen appId
      · rw [if_pos hit, filterMap_cons_none rfl, filter_cons_of_neg (by simp [hit]), ih]
      · rw [if_neg hit, filterMap_cons_some found, filter_cons_of_pos (by simp [hit]), ih]

/-- After the downgrade no app transaction is matched twice. -/
theorem nodup_matchedIds_flagReused :
    ((flagReusedMatchedAppTransactions candidates).filterMap matchedAppId).Nodup := by
  rw [flagReusedMatchedAppTransactions, matchedIds_downgrade, nodup_iff_count_le_one]
  intro appId
  by_cases reused : isReused (candidates.filterMap matchedAppId) appId
  · rw [count_eq_zero.mpr (by simp [reused])]
    omega
  · rw [count_filter (by simpa using reused)]
    unfold isReused at reused
    simpa using reused

variable (run : left.mapM missingCandidate = .ok missing)
include run

theorem mem_missing (member : candidate ∈ missing) :
    ∃ app ∈ left, candidate.bestAppTransaction = some app ∧ candidate.matchStatus = .noMatch ∧
      candidate.issueType = .missingInStatement ∧ candidate.candidateId = "cand-missing-stmt-" ++ app.appTxnId := by
  obtain ⟨app, listed, done⟩ := exists_of_mem_forall₂ (mapM_ok.mp run) member
  exact ⟨app, listed, missingCandidate_ok done⟩

/-- The entries of left out app transactions are not matched. -/
theorem matchedIds_missing : missing.filterMap matchedAppId = [] := by
  rw [filterMap_eq_nil_iff]
  intro candidate member
  obtain ⟨_, _, _, status, _⟩ := mem_missing run member
  rw [matchedAppId, if_neg (by rw [status]; decide)]

end Rows

/-- The digits that stand between the first two hyphens. -/
def indexDigits (candidateId : String) : List Char := (candidateId.toList.drop 5).takeWhile fun char => char != '-'

theorem digit_ne_hyphen {char : Char} {digit : ℕ} (same : char = digitChar digit) : (char != '-') = true := by
  subst same
  exact digitChar_induction (P := fun char => (char != '-') = true) (by decide) digit

theorem paddedIndex_digits (index : ℕ) : AsciiDigits (paddedIndex index) := by
  unfold paddedIndex
  split_ifs
  · exact asciiDigits_fixedDigits 3 index
  · exact asciiDigits_natDigits index

theorem digitsValue_paddedIndex (index : ℕ) : digitsValue (paddedIndex index) = index := by
  unfold paddedIndex
  split_ifs with short
  · rw [digitsValue_fixedDigits]
    omega
  · exact digitsValue_natDigits index

theorem indexDigits_candidateIdOf (index : ℕ) (line : StatementTransaction) :
    indexDigits (candidateIdOf index line) = paddedIndex index := by
  have chars : (candidateIdOf index line).toList.drop 5 = paddedIndex index ++ '-' :: (rowLabel line).toList := by
    simp [candidateIdOf]
  rw [indexDigits, chars, takeWhile_append_of_pos]
  · simp
  · intro char member
    obtain ⟨digit, same⟩ := paddedIndex_digits index char member
    exact digit_ne_hyphen same

/-- No row has the identity of a left out app transaction. -/
theorem candidateIdOf_ne_missing (index : ℕ) (line : StatementTransaction) (appId : String) :
    candidateIdOf index line ≠ "cand-missing-stmt-" ++ appId := by
  intro same
  have digits := congrArg indexDigits same
  have letters : indexDigits ("cand-missing-stmt-" ++ appId) = "missing".toList := by
    simp [indexDigits]
  rw [indexDigits_candidateIdOf, letters] at digits
  obtain ⟨digit, impossible⟩ := paddedIndex_digits index 'm' (by rw [digits]; decide)
  exact digitChar_induction (P := fun char => 'm' ≠ char) (by decide) digit impossible

theorem nodup_rowIds (results : List MatchResult) :
    ((rowCandidates apps results).map ReconciliationCandidate.candidateId).Nodup := by
  apply List.Nodup.of_map fun candidateId => digitsValue (indexDigits candidateId)
  have indexes : ((rowCandidates apps results).map ReconciliationCandidate.candidateId).map
      (fun candidateId => digitsValue (indexDigits candidateId)) = results.zipIdx.map Prod.snd := by
    rw [rowCandidates, map_map, map_map]
    apply map_congr_left
    rintro ⟨result, index⟩ _
    exact (congrArg digitsValue (indexDigits_candidateIdOf index result.statement)).trans
      (digitsValue_paddedIndex index)
  rw [indexes, zipIdx_map_snd]
  exact nodup_range'

/-- The identities that the candidates mention are those of the considered candidates. -/
theorem mem_referencedAppIds (converted : appToInternal apps = .ok internal)
    (grounded : Forall₂ (Grounded · internal ·) statements results)
    (appId : String) :
    appId ∈ referencedAppIds (rowCandidates apps results) ↔
      ∃ result ∈ results, appId ∈ result.candidates.map InternalCandidate.internalId := by
  have named {internalId : String} {app : AppTransaction} (found : findApp apps internalId = some app) :
      app.appTxnId = internalId := by simpa using List.find?_some found
  constructor
  · intro mentioned
    obtain ⟨candidate, member, inside⟩ := mem_flatMap.mp mentioned
    obtain ⟨app, listed, rfl⟩ := mem_map.mp inside
    obtain ⟨result, found, index, rfl⟩ := mem_rowCandidates member
    obtain ⟨line, _, held⟩ := grounded_of_mem grounded found
    refine ⟨result, found, mem_map.mpr ?_⟩
    rcases mem_append.mp listed with best | other
    · have hit : (batchCandidate apps index result).bestAppTransaction = some app := by simpa using best
      cases chosen : result.bestCandidate with
      | some candidate =>
        simp only [batchCandidate, chosen] at hit
        exact ⟨candidate, held.best candidate chosen, (named hit).symm⟩
      | none =>
        simp only [batchCandidate, chosen] at hit
        obtain ⟨first, head, hit⟩ := Option.bind_eq_some_iff.mp hit
        exact ⟨first, mem_of_head? head, (named hit).symm⟩
    · obtain ⟨candidate, inside, hit⟩ := mem_filterMap.mp other
      exact ⟨candidate, inside, (named hit).symm⟩
  · rintro ⟨result, found, considered⟩
    obtain ⟨candidate, inside, rfl⟩ := mem_map.mp considered
    obtain ⟨line, _, held⟩ := grounded_of_mem grounded found
    obtain ⟨app, hit, _, same⟩ := findApp_of_mem converted (held.inside candidate inside)
    obtain ⟨index, bound, rfl⟩ := getElem_of_mem found
    have row : batchCandidate apps index results[index] ∈ rowCandidates apps results :=
      mem_map.mpr ⟨(results[index], index), mk_mem_zipIdx_iff_getElem?.mpr (by simp), rfl⟩
    refine mem_flatMap.mpr ⟨_, row, mem_map.mpr ⟨app, mem_append_right _ ?_, same⟩⟩
    exact mem_filterMap.mpr ⟨candidate, inside, hit⟩

/-- The candidate is the entry of an app transaction that the rows leave out. -/
def isMissingEntry (appId : String) (candidate : ReconciliationCandidate) : Bool :=
  candidate.issueType = .missingInStatement ∧ candidate.bestAppTransaction.map AppTransaction.appTxnId = some appId

theorem resultToIssueType_ne (result : MatchResult) : resultToIssueType result ≠ .missingInStatement := by
  unfold resultToIssueType
  split_ifs
  · cases result.status <;> decide
  all_goals dsimp only; split_ifs <;> decide

theorem no_missingEntry_in_rows (appId : String) (results : List MatchResult) :
    (flagReusedMatchedAppTransactions (rowCandidates apps results)).countP (isMissingEntry appId) = 0 := by
  rw [countP_eq_zero]
  intro candidate member
  have other : candidate.issueType ≠ .missingInStatement := by
    obtain ⟨row, listed, rfl⟩ := mem_map.mp member
    split_ifs
    · change IssueType.possibleDuplicate ≠ .missingInStatement
      decide
    · obtain ⟨result, _, index, rfl⟩ := mem_rowCandidates listed
      exact resultToIssueType_ne result
  simp [isMissingEntry, other]

theorem missingEntries_count {missing : List ReconciliationCandidate} {left : List AppTransaction}
    (run : left.mapM missingCandidate = .ok missing) (appId : String) :
    missing.countP (isMissingEntry appId) = (left.map AppTransaction.appTxnId).count appId := by
  have done := mapM_ok.mp run
  clear run
  induction done with
  | nil => rfl
  | cons head _ ih =>
    obtain ⟨best, _, issue, _⟩ := missingCandidate_ok head
    rw [map_cons, count_cons, countP_cons, ih]
    simp [isMissingEntry, best, issue]

section Service

variable {matcherVersion : String}

/-- Both downgrades look at the status and at the matched identity of a result. -/
def matchSummary (result : MatchResult) : MatchStatus × Option String := (result.status, matchedCandidateId result)

/-- The status after the downgrade. -/
def downgradedStatus (matchedIds : List String) (summary : MatchStatus × Option String) : MatchStatus :=
  if summary.2.any (isReused matchedIds) then .possibleDuplicate else summary.1

theorem summaries_agree {versions others : DecisionVersions} {decisions : List MatchResult}
    (decided : Forall₂ (fun line result =>
      matchStatement host ctx params versions line internal = .ok result) statements results)
    (again : Forall₂ (fun line result =>
      matchStatement host ctx params others line internal = .ok result) statements decisions) :
    decisions.map matchSummary = results.map matchSummary := by
  have summary {versions : DecisionVersions} {line : StatementTransaction} {result : MatchResult}
      (run : matchStatement host ctx params versions line internal = .ok result) :
      matchSummary result = matchSummary (undecidedResult host ctx params line internal) := by
    obtain ⟨proof, rfl⟩ := matchStatement_ok run
    rfl
  rw [map_eq_of_forall₂ (fun _ _ run => summary run) decided, map_eq_of_forall₂ (fun _ _ run => summary run) again]

theorem statuses_of_rows (converted : appToInternal apps = .ok internal)
    (grounded : Forall₂ (Grounded · internal ·) statements results) :
    (flagReusedMatchedAppTransactions (rowCandidates apps results)).map ReconciliationCandidate.matchStatus =
      results.map fun result => downgradedStatus (results.filterMap matchedCandidateId) (matchSummary result) := by
  rw [flagReusedMatchedAppTransactions, matchedIds_rowCandidates converted grounded, map_map]
  apply map_rowCandidates
  intro index result member
  obtain ⟨line, _, held⟩ := grounded_of_mem grounded member
  rw [Function.comp_apply, matchedAppId_batchCandidate converted held index, downgradedStatus, matchSummary]
  split_ifs <;> rfl

theorem statuses_of_service {decisions flagged : List MatchResult}
    (run : flagReusedMatchedCandidates host matcherVersion internal decisions = .ok flagged) :
    flagged.map MatchResult.status =
      decisions.map fun result => downgradedStatus (decisions.filterMap matchedCandidateId) (matchSummary result) := by
  refine map_eq_of_forall₂ ?_ (mapM_ok.mp run)
  intro result decided done
  rw [downgradedStatus, matchSummary]
  by_cases reused : (matchedCandidateId result).any (isReused (decisions.filterMap matchedCandidateId))
  · rw [if_pos reused] at done
    obtain ⟨record, _, same⟩ := bind_ok.mp done
    rw [if_pos reused, ← pure_ok.mp same]
    rfl
  · rw [if_neg reused] at done
    rw [if_neg reused, ok.inj done]

/-- The service gives every row the status that the batch gives it. -/
theorem service_agrees (converted : appToInternal apps = .ok internal) (decided : Forall₂ (fun line result =>
      matchStatement host ctx .standard {} line internal = .ok result) statements results) :
    ∃ decisions, serviceResults host ctx matcherVersion statements internal = .ok decisions ∧
      decisions.map MatchResult.status =
        (flagReusedMatchedAppTransactions (rowCandidates apps results)).map ReconciliationCandidate.matchStatus := by
  have each : ∀ line ∈ statements, ∃ result, matchStatement host ctx .standard
      { matcherVersion := matcherVersion } line internal = .ok result := by
    intro line member
    obtain ⟨result, _, run⟩ := exists_of_mem_forall₂ decided.flip member
    exact matchStatement_ok_iff.mpr (matchStatement_ok_iff.mp ⟨result, run⟩)
  obtain ⟨decisions, run⟩ := mapM_succeeds each
  have again := mapM_ok.mp run
  have summaries := summaries_agree decided again
  have hashed : ∃ flagged, flagReusedMatchedCandidates host matcherVersion internal decisions = .ok flagged := by
    apply mapM_succeeds
    intro result member
    obtain ⟨line, _, done⟩ := exists_of_mem_forall₂ again member
    obtain ⟨_, _, amounts, writable⟩ := matchStatement_ok_iff.mp ⟨result, done⟩
    obtain ⟨proof, same⟩ := matchStatement_ok done
    split_ifs
    · refine attachDecisionHash_ok_iff.mpr ⟨writable_evaluateAll.mpr amounts, ?_⟩
      rw [same]
      rw [(grounded_undecidedResult host ctx .standard).statement]
      exact writable
    · exact ⟨result, rfl⟩
  obtain ⟨flagged, flags⟩ := hashed
  refine ⟨flagged, bind_ok.mpr ⟨decisions, run, flags⟩, ?_⟩
  have ids : decisions.filterMap matchedCandidateId = results.filterMap matchedCandidateId := by
    have through (values : List MatchResult) :
        values.filterMap matchedCandidateId = (values.map matchSummary).filterMap Prod.snd := by
      rw [filterMap_map]
      rfl
    rw [through, through, summaries]
  have statuses (values : List MatchResult) (matchedIds : List String) :
      (values.map fun result => downgradedStatus matchedIds (matchSummary result)) =
        (values.map matchSummary).map (downgradedStatus matchedIds) := by
    rw [map_map]
    rfl
  rw [statuses_of_service flags, statuses_of_rows converted (grounded_of_forall₂ decided), ids, statuses, statuses,
    summaries]

end Service

/-- The app transaction is among the candidates that the matcher considered for some row. -/
def Appears (platform : Platform) (context : Context) (parameters : MatchParameters)
    (statements : List StatementTransaction) (internal : List InternalCandidate)
    (app : AppTransaction) : Prop :=
  ∃ statement ∈ statements, ∃ result,
    matchStatement platform context parameters {} statement internal = .ok result ∧
      app.appTxnId ∈ result.candidates.map InternalCandidate.internalId

/-- What a batch holds: the candidates of the rows in their order, then one entry for every app transaction that no row
considered. -/
structure BatchSpec (platform : Platform) (context : Context) (parameters : MatchParameters)
    (statements : List StatementTransaction) (apps : List AppTransaction)
    (internal : List InternalCandidate) (batch : List ReconciliationCandidate) : Prop where
  rows : (batch.take statements.length).map ReconciliationCandidate.statement = statements
  synthetic : ∀ candidate ∈ batch.drop statements.length, ∃ app ∈ apps,
    isMissingEntry app.appTxnId candidate = true
  matchedOnce : ∀ app ∈ apps, (batch.countP fun candidate => decide (candidate.matchStatus = .matched ∧
    candidate.bestAppTransaction.map AppTransaction.appTxnId = some app.appTxnId)) ≤ 1
  considered : ∀ app ∈ apps, Appears platform context parameters statements internal app →
    batch.countP (isMissingEntry app.appTxnId) = 0
  leftOut : ∀ app ∈ apps, ¬Appears platform context parameters statements internal app →
    batch.countP (isMissingEntry app.appTxnId) = 1
  distinctIds : (batch.map ReconciliationCandidate.candidateId).Nodup

include distinct in
/-- An app transaction that no candidate mentions is left out once. -/
theorem leftOut_count (mentioned : List String) {app : AppTransaction} (member : app ∈ apps) :
    ((apps.filter fun app => app.appTxnId ∉ mentioned).map AppTransaction.appTxnId).count app.appTxnId =
      if app.appTxnId ∈ mentioned then 0 else 1 := by
  split_ifs with inside
  · rw [count_eq_zero]
    intro listed
    obtain ⟨other, found, same⟩ := mem_map.mp listed
    obtain ⟨_, outside⟩ := mem_filter.mp found
    rw [same] at outside
    simp [inside] at outside
  · apply count_eq_one_of_mem (distinct.sublist (filter_sublist.map _))
    exact mem_map_of_mem (mem_filter.mpr ⟨member, by simpa using inside⟩)

theorem countP_matched (candidates : List ReconciliationCandidate) (appId : String) :
    (candidates.countP fun candidate => decide (candidate.matchStatus = .matched ∧
      candidate.bestAppTransaction.map AppTransaction.appTxnId = some appId)) =
      (candidates.filterMap matchedAppId).count appId := by
  rw [List.count, countP_filterMap]
  congr 1
  funext candidate
  unfold matchedAppId
  by_cases matched : candidate.matchStatus = .matched
  · cases candidate.bestAppTransaction with
    | none => simp [matched]
    | some app =>
      rw [Bool.eq_iff_iff]
      simp [matched]
  · simp [matched]

include distinct in
/-- The identities of all candidates of a batch are distinct. -/
theorem nodup_batchIds {missing : List ReconciliationCandidate} {chosen : AppTransaction → Bool}
    (left : (apps.filter chosen).mapM missingCandidate = .ok missing) :
    ((flagReusedMatchedAppTransactions (rowCandidates apps results) ++ missing).map
      ReconciliationCandidate.candidateId).Nodup := by
  have missingIds : missing.map ReconciliationCandidate.candidateId =
      (apps.filter chosen).map fun app => "cand-missing-stmt-" ++ app.appTxnId := by
    refine map_eq_of_forall₂ ?_ (mapM_ok.mp left)
    intro app candidate done
    exact (missingCandidate_ok done).2.2.2
  rw [map_append, candidateId_flagReused, missingIds]
  refine nodup_append.mpr ⟨nodup_rowIds results, ?_, ?_⟩
  · have kept : ((apps.filter chosen).map AppTransaction.appTxnId).Nodup :=
      distinct.sublist (filter_sublist.map _)
    have labelled := kept.map (f := fun appId => "cand-missing-stmt-" ++ appId) fun first second same => by
      simpa using same
    rw [map_map] at labelled
    exact labelled
  · intro first row second entry same
    obtain ⟨candidate, listed, rfl⟩ := mem_map.mp row
    obtain ⟨app, _, rfl⟩ := mem_map.mp entry
    obtain ⟨result, _, index, rfl⟩ := mem_rowCandidates listed
    exact candidateIdOf_ne_missing index result.statement app.appTxnId same

include distinct in
theorem batch_spec (run : matchBatch host ctx params statements apps = .ok batch)
    (converted : appToInternal apps = .ok internal) : BatchSpec host ctx params statements apps internal batch := by
  obtain ⟨found, results, missing, convertedToo, decided, left, rfl⟩ := matchBatch_ok run
  obtain rfl := ok.inj (convertedToo.symm.trans converted)
  have grounded := grounded_of_forall₂ decided
  have rows := statements_of_rows apps grounded
  have length : (flagReusedMatchedAppTransactions (rowCandidates apps results)).length = statements.length := by
    rw [← rows, length_map]
  have taken : (flagReusedMatchedAppTransactions (rowCandidates apps results) ++ missing).take statements.length =
      flagReusedMatchedAppTransactions (rowCandidates apps results) := by
    rw [← length, take_left]
  have dropped : (flagReusedMatchedAppTransactions (rowCandidates apps results) ++ missing).drop statements.length =
      missing := by
    rw [← length, drop_left]
  have appears (app : AppTransaction) : Appears host ctx params statements found app ↔
      app.appTxnId ∈ referencedAppIds (rowCandidates apps results) := by
    rw [mem_referencedAppIds converted grounded]
    constructor
    · rintro ⟨line, member, result, done, considered⟩
      obtain ⟨other, listed, again⟩ := exists_of_mem_forall₂ decided.flip member
      obtain rfl := ok.inj (done.symm.trans again)
      exact ⟨result, listed, considered⟩
    · rintro ⟨result, listed, considered⟩
      obtain ⟨line, member, done⟩ := exists_of_mem_forall₂ decided listed
      exact ⟨line, member, result, done, considered⟩
  have entries (app : AppTransaction) (member : app ∈ apps) :
      (flagReusedMatchedAppTransactions (rowCandidates apps results) ++ missing).countP (isMissingEntry app.appTxnId) =
        if app.appTxnId ∈ referencedAppIds (rowCandidates apps results) then 0 else 1 := by
    rw [countP_append, no_missingEntry_in_rows, missingEntries_count left, zero_add,
      leftOut_count distinct _ member]
  refine ⟨?_, ?_, ?_, ?_, ?_, ?_⟩
  · rw [taken, rows]
  · rw [dropped]
    intro candidate member
    obtain ⟨app, listed, best, _, issue, _⟩ := mem_missing left member
    exact ⟨app, mem_of_mem_filter listed, by simp [isMissingEntry, best, issue]⟩
  · intro app member
    rw [countP_matched, filterMap_append, matchedIds_missing left, append_nil]
    exact nodup_iff_count_le_one.mp (nodup_matchedIds_flagReused _) _
  · intro app member mentioned
    rw [entries app member, if_pos ((appears app).mp mentioned)]
  · intro app member other
    rw [entries app member, if_neg fun mentioned => other ((appears app).mpr mentioned)]
  · exact nodup_batchIds distinct left

/-- A batch of app transactions with distinct identities is matched exactly when it is ready. A matched batch holds the
candidates of the rows in their order, then one entry for every app transaction that no row considered, under distinct
identities, and matches no app transaction twice; with the standard thresholds the service gives every row the same
status. -/
theorem match_batch_contract (platform : Platform) (context : Context) (parameters : MatchParameters)
    (statements : List StatementTransaction) (apps : List AppTransaction)
    (distinct : (apps.map AppTransaction.appTxnId).Nodup) :
    ((∃ batch, matchBatch platform context parameters statements apps = .ok batch) ↔
        BatchReady parameters statements apps) ∧
      (∀ batch, matchBatch platform context parameters statements apps = .ok batch →
        ∃ internal, appToInternal apps = .ok internal ∧
          BatchSpec platform context parameters statements apps internal batch) ∧
      ∀ batch, matchBatch platform context .standard statements apps = .ok batch → ∀ matcherVersion,
        ∃ internal decisions, appToInternal apps = .ok internal ∧
          serviceResults platform context matcherVersion statements internal = .ok decisions ∧
          decisions.map MatchResult.status =
            (batch.take statements.length).map ReconciliationCandidate.matchStatus := by
  refine ⟨matchBatch_ok_iff distinct, ?_, ?_⟩
  · intro batch run
    obtain ⟨internal, _, _, converted, _⟩ := matchBatch_ok run
    exact ⟨internal, converted, batch_spec distinct run converted⟩
  · intro batch run matcherVersion
    obtain ⟨internal, results, missing, converted, decided, _, rfl⟩ := matchBatch_ok run
    obtain ⟨decisions, done, statuses⟩ := service_agrees converted decided
    refine ⟨internal, decisions, converted, done, ?_⟩
    have rows := statements_of_rows apps (grounded_of_forall₂ decided)
    rw [statuses, ← congrArg List.length rows, List.length_map, List.take_left]

/-- An app transaction of one unit at a cafe. -/
def sampleApp (appTxnId : String) : AppTransaction where
  appTxnId := appTxnId
  transactionDate := newYear
  merchant := "Cafe"
  amount := .finite ⟨false, 1, 0⟩
  currency := "SGD"
  sourceType := some "expense"

theorem match_batch_contract_sample :
    ∃ batch internal decisions, matchBatch .plain .standard .standard [samplePurchase, samplePurchase]
        [sampleApp "app-1"] = .ok batch ∧
      BatchSpec .plain .standard .standard [samplePurchase, samplePurchase] [sampleApp "app-1"] internal batch ∧
      serviceResults .plain .standard currentMatcherVersion [samplePurchase, samplePurchase] internal = .ok decisions ∧
      decisions.map MatchResult.status = (batch.take 2).map ReconciliationCandidate.matchStatus := by
  obtain ⟨_, holds, agrees⟩ := match_batch_contract .plain .standard .standard [samplePurchase, samplePurchase]
    [sampleApp "app-1"] (by decide)
  obtain ⟨batch, run⟩ : ∃ batch, matchBatch .plain .standard .standard [samplePurchase, samplePurchase]
      [sampleApp "app-1"] = .ok batch := by
    decide +kernel
  obtain ⟨internal, converted, spec⟩ := holds batch run
  obtain ⟨found, decisions, convertedToo, done, statuses⟩ := agrees batch run currentMatcherVersion
  obtain rfl := Except.ok.inj (convertedToo.symm.trans converted)
  exact ⟨batch, found, decisions, run, spec, done, statuses⟩

/-- An app transaction with a blank identity stops the whole batch. -/
theorem match_batch_blank_identity :
    ([sampleApp " "].map AppTransaction.appTxnId).Nodup ∧
      matchBatch .plain .standard .standard [] [sampleApp " "] = .error .blankIdentity :=
  ⟨by decide, by decide⟩

end Batch

end FinanceCore.Reconciliation

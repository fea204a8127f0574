import Mathlib

namespace FinanceCore.Exceptions

open List

variable {ε ε' α α' β β' σ σ' : Type}

/-- A guard fails with its own error. -/
def require (condition : Prop) [Decidable condition] (failure : ε) : Except ε Unit :=
  if condition then .ok () else .error failure

/-- A missing value becomes an error. -/
def expect (value : Option α) (failure : ε) : Except ε α :=
  match value with
  | some value => .ok value
  | none => .error failure

variable {condition : Prop} {failure : ε} {result : α} {first : Except ε α} {values : List α} {start final : σ}
  {step : α → Except ε β} {results : List β} {related : α → β → Prop} {γ : Type} {second : Except ε' β}
  {relatedNext : α' → β' → Prop} {check : α → Except ε Unit} {next : α → Except ε β} {holds : β → Prop} {change : α → β}
  {label : α → γ} {image : γ → α} {failureToo : ε'} {others : List α}

@[simp] theorem require_ok [Decidable condition] {result : Unit} :
    require condition failure = .ok result ↔ condition := by
  unfold require
  split_ifs with met
  · simpa using met
  · simpa using met

@[simp] theorem expect_ok {value : Option α} : expect value failure = .ok result ↔ value = some result := by
  cases value <;> simp [expect]

@[simp] theorem ok_bind (value : α) (next : α → Except ε β) : (.ok value >>= next) = next value := rfl

/-- A sequence succeeds when both parts do. -/
@[simp] theorem bind_ok {result : β} :
    (first >>= next) = .ok result ↔ ∃ value, first = .ok value ∧ next value = .ok result := by
  cases first <;> simp [bind, Except.bind]

@[simp] theorem map_ok {result : β} :
    change <$> first = .ok result ↔ ∃ value, first = .ok value ∧ change value = result := by
  cases first <;> simp [Functor.map, Except.map]

@[simp] theorem pure_ok {value : α} : (pure value : Except ε α) = .ok result ↔ value = result := by
  simp [pure, Except.pure]

@[simp] theorem throw_ok : (throw failure : Except ε α) = .ok result ↔ False := by
  simp [throw, throwThe, MonadExceptOf.throw]

@[simp] theorem mapError_ok {change : ε → ε'} : first.mapError change = .ok result ↔ first = .ok result := by
  cases first <;> simp [Except.mapError]

theorem require_eq_error [Decidable condition] {found : ε} :
    require condition failure = .error found ↔ ¬ condition ∧ failure = found := by
  unfold require
  split_ifs with holds <;> simp [holds]

/-- What a computation returns is decided by running it. -/
instance decidableReturns {property : α → Prop} [DecidablePred property] :
    Decidable (∃ value, first = .ok value ∧ property value) :=
  match first with
  | .ok value => decidable_of_iff (property value) (by simp)
  | .error _ => isFalse (by simp)

instance decidableSucceeds : Decidable (∃ value, first = .ok value) :=
  match first with
  | .ok value => isTrue ⟨value, rfl⟩
  | .error _ => isFalse (by simp)

instance decidableFails [DecidableEq ε] : Decidable (first = .error failure) :=
  match first with
  | .ok _ => isFalse (by simp)
  | .error found => decidable_of_iff (found = failure) (by simp)

/-- An invariant may speak about the values that the loop has already seen. -/
theorem foldlM_visited (invariant : List α → σ → Prop) {step : σ → α → Except ε σ}
    (kept : ∀ before value after state next, values = before ++ value :: after → invariant before state →
      step state value = .ok next → invariant (before ++ [value]) next) (initial : invariant [] start)
    (run : values.foldlM step start = .ok final) : invariant values final := by
  have loop : ∀ (rest before : List α) (state : σ), values = before ++ rest → invariant before state →
      rest.foldlM step state = .ok final → invariant values final := by
    intro rest
    induction rest with
    | nil =>
      intro before state same held run
      obtain rfl := pure_ok.mp run
      rwa [same, append_nil]
    | cons head rest ih =>
      intro before state same held run
      obtain ⟨next, first, later⟩ := bind_ok.mp run
      exact ih (before ++ [head]) next (by rw [same, append_assoc]; rfl)
        (kept before head rest state next same held first) later
  exact loop values [] start rfl initial run

/-- What each step of a loop keeps, the whole loop keeps. -/
theorem foldlM_invariant (invariant : σ → Prop) {step : σ → α → Except ε σ}
    (kept : ∀ state value next, value ∈ values → invariant state → step state value = .ok next →
      invariant next) (initial : invariant start) (run : values.foldlM step start = .ok final) : invariant final :=
  foldlM_visited (fun _ => invariant) (fun _ value _ state next same => kept state value next (by simp [same])) initial
    run

/-- A loop that appends one result in every step relates its results to its values in order. -/
theorem foldlM_collect (collected : σ → List β) (related : α → β → Prop) {step : σ → α → Except ε σ}
    (each : ∀ state value next, value ∈ values → step state value = .ok next →
      ∃ result, related value result ∧ collected next = collected state ++ [result])
    (run : values.foldlM step start = .ok final) :
    ∃ results, Forall₂ related values results ∧ collected final = collected start ++ results := by
  refine foldlM_visited (fun before state => ∃ results, Forall₂ related before results ∧
    collected state = collected start ++ results) ?_ ⟨[], .nil, by simp⟩ run
  rintro before value after state next same ⟨results, others, earlier⟩ step
  obtain ⟨result, held, grown⟩ := each state value next (by simp [same]) step
  exact ⟨results ++ [result], rel_append others (.cons held .nil), by rw [grown, earlier, append_assoc]⟩

/-- A check over a list succeeds exactly when it succeeds at every element. -/
@[simp] theorem forM_ok {result : Unit} :
    forM values check = .ok result ↔ ∀ value ∈ values, check value = .ok () := by
  induction values with
  | nil => simp
  | cons head rest ih =>
    rw [forM_cons, bind_ok]
    simp only [ih, mem_cons, forall_eq_or_imp]
    constructor
    · rintro ⟨_, first, later⟩
      exact ⟨first, later⟩
    · rintro ⟨first, later⟩
      exact ⟨(), first, later⟩

/-- A mapped list succeeds with the results of the elements in order. -/
theorem mapM_ok :
    values.mapM step = .ok results ↔ Forall₂ (fun value result => step value = .ok result) values results := by
  induction values generalizing results with
  | nil =>
    rw [mapM_nil, pure_ok, forall₂_nil_left_iff, eq_comm]
  | cons head rest ih =>
    rw [mapM_cons, bind_ok, forall₂_cons_left_iff]
    constructor
    · rintro ⟨first, done, later⟩
      obtain ⟨tail, tailDone, same⟩ := bind_ok.mp later
      exact ⟨first, tail, done, ih.mp tailDone, (pure_ok.mp same).symm⟩
    · rintro ⟨first, tail, done, tailDone, rfl⟩
      exact ⟨first, done, bind_ok.mpr ⟨tail, ih.mpr tailDone, rfl⟩⟩

/-- A related result comes from a value. -/
theorem exists_of_mem_forall₂ (all : Forall₂ related values results) {result : β}
    (member : result ∈ results) :
    ∃ value ∈ values, related value result := by
  induction all with
  | nil => cases member
  | cons head _ ih =>
    rcases mem_cons.mp member with rfl | later
    · exact ⟨_, by simp, head⟩
    · obtain ⟨value, inside, held⟩ := ih later
      exact ⟨value, by simp [inside], held⟩

/-- Related lists have the same labels when related elements have. -/
theorem map_eq_of_forall₂ {labelToo : β → γ}
    (same : ∀ value result, related value result → labelToo result = label value)
    (all : Forall₂ related values results) : results.map labelToo = values.map label := by
  induction all with
  | nil => rfl
  | cons head _ ih => rw [map_cons, map_cons, same _ _ head, ih]

/-- A step that ignores the index maps related lists onto each other. -/
theorem mapM_zipIdx_of_forall₂ {step : β × ℕ → Except ε γ} (all : Forall₂ related values results)
    (each : ∀ index value result, value ∈ values → related value result → step (result, index) = .ok (label value))
    (start : ℕ) : (results.zipIdx start).mapM step = .ok (values.map label) := by
  induction all generalizing start with
  | nil => rfl
  | cons head _ ih =>
    rw [zipIdx_cons, mapM_cons, each start _ _ (by simp) head,
      ih (fun index value result member => each index value result (by simp [member]))]
    rfl

/-- A step that succeeds on every image produces results that are related to the values. -/
theorem mapM_map_related {related : γ → β → Prop} {values : List γ}
    (each : ∀ value ∈ values, ∃ result, step (image value) = .ok result ∧ related value result) :
    ∃ results, (values.map image).mapM step = .ok results ∧ Forall₂ related values results := by
  induction values with
  | nil => exact ⟨[], rfl, .nil⟩
  | cons head rest ih =>
    obtain ⟨result, done, held⟩ := each head (by simp)
    obtain ⟨results, run, all⟩ := ih fun value member => each value (by simp [member])
    refine ⟨result :: results, ?_, .cons held all⟩
    rw [map_cons, mapM_cons, done, run]
    rfl

theorem mapM_zipIdx_related {step : α × ℕ → Except ε β} {related : γ → β → Prop} {values : List γ}
    (each : ∀ index, ∀ value ∈ values, ∃ result, step (image value, index) = .ok result ∧ related value result)
    (start : ℕ) :
    ∃ results, ((values.map image).zipIdx start).mapM step = .ok results ∧
      Forall₂ related values results := by
  induction values generalizing start with
  | nil => exact ⟨[], rfl, .nil⟩
  | cons head rest ih =>
    obtain ⟨result, done, held⟩ := each start head (by simp)
    obtain ⟨results, run, all⟩ := ih (fun index value member => each index value (by simp [member])) (start + 1)
    refine ⟨result :: results, ?_, .cons held all⟩
    rw [map_cons, zipIdx_cons, mapM_cons, done, run]
    rfl

theorem forall_mem_of_mapM (each : ∀ value result, step value = .ok result → holds result)
    (run : values.mapM step = .ok results) : ∀ result ∈ results, holds result := by
  intro result member
  obtain ⟨value, _, done⟩ := exists_of_mem_forall₂ (mapM_ok.mp run) member
  exact each value result done

/-- Results that exist for every value come together, each with its property. -/
theorem mapM_succeeds_with (each : ∀ value ∈ values, ∃ result, step value = .ok result ∧ holds result) :
    ∃ results, values.mapM step = .ok results ∧ results.length = values.length ∧
      ∀ result ∈ results, holds result := by
  have images : ∃ results, (values.map id).mapM step = .ok results ∧ Forall₂ (fun _ => holds) values results :=
    mapM_map_related each
  obtain ⟨results, run, all⟩ := images
  rw [map_id] at run
  refine ⟨results, run, all.length_eq.symm, fun result member => ?_⟩
  obtain ⟨_, _, held⟩ := exists_of_mem_forall₂ all member
  exact held

/-- A pass succeeds when each step does. -/
theorem mapM_succeeds (each : ∀ value ∈ values, ∃ result, step value = .ok result) :
    ∃ results, values.mapM step = .ok results := by
  have images : ∀ value ∈ values, ∃ result, step value = .ok result ∧ True := by simpa using each
  obtain ⟨results, run, _⟩ := mapM_succeeds_with images
  exact ⟨results, run⟩

/-- Each success of the first computation is matched by a related success of the second. -/
def Carries (related : α → β → Prop) (first : Except ε α) (second : Except ε' β) : Prop :=
  ∀ value, first = .ok value → ∃ matched, second = .ok matched ∧ related value matched

namespace Carries

theorem ok {first : α} {second : β} (held : related first second) :
    Carries related (.ok first : Except ε α) (.ok second : Except ε' β) := by
  intro value same
  obtain rfl := Except.ok.inj same
  exact ⟨second, rfl, held⟩

theorem rfl : Carries Eq first first :=
  fun value same => ⟨value, same, Eq.refl value⟩

/-- A relation may be weakened. -/
theorem weaken {weaker : α → β → Prop} (carried : Carries related first second)
    (implied : ∀ value matched, related value matched → weaker value matched) : Carries weaker first second := by
  intro value done
  obtain ⟨matched, doneToo, held⟩ := carried value done
  exact ⟨matched, doneToo, implied value matched held⟩

theorem require {other : Prop} [Decidable condition] [Decidable other]
    (implied : condition → other) :
    Carries (fun _ _ => True) (require condition failure) (Exceptions.require other failureToo) := by
  intro value done
  exact ⟨(), require_ok.mpr (implied (require_ok.mp done)), trivial⟩

theorem expect {first : Option α} {second : Option β}
    (matching : ∀ value, first = some value → ∃ matched, second = some matched ∧ related value matched) :
    Carries related (expect first failure) (Exceptions.expect second failureToo) := by
  intro value done
  obtain ⟨matched, found, held⟩ := matching value (expect_ok.mp done)
  exact ⟨matched, expect_ok.mpr found, held⟩

theorem forM_subset {checkToo : α → Except ε' Unit}
    (inside : others ⊆ values) (each : ∀ value ∈ others, Carries (fun _ _ => True) (check value) (checkToo value)) :
    Carries (fun _ _ => True) (forM values check) (forM others checkToo) := by
  intro result done
  refine ⟨(), forM_ok.mpr fun value member => ?_, trivial⟩
  obtain ⟨_, doneToo, _⟩ := each value member () (forM_ok.mp done value (inside member))
  exact doneToo

theorem map {change : α → α'} {changeToo : β → β'} (now : Carries related first second)
    (kept : ∀ value matched, related value matched → relatedNext (change value) (changeToo matched)) :
    Carries relatedNext (change <$> first) (changeToo <$> second) := by
  intro result run
  obtain ⟨value, done, rfl⟩ := map_ok.mp run
  obtain ⟨matched, doneToo, held⟩ := now value done
  exact ⟨changeToo matched, map_ok.mpr ⟨matched, doneToo, Eq.refl _⟩, kept value matched held⟩

/-- Related parts give related sequences. -/
theorem bind {firstNext : α → Except ε α'} {secondNext : β → Except ε' β'}
    (now : Carries related first second) (later : ∀ value matched, related value matched →
      Carries relatedNext (firstNext value) (secondNext matched)) :
    Carries relatedNext (first >>= firstNext) (second >>= secondNext) := by
  intro result run
  obtain ⟨value, done, next⟩ := bind_ok.mp run
  obtain ⟨matched, doneToo, held⟩ := now value done
  obtain ⟨final, nextToo, kept⟩ := later value matched held result next
  exact ⟨final, bind_ok.mpr ⟨matched, doneToo, nextToo⟩, kept⟩

/-- Two loops over one list keep their states related when each pair of steps does. -/
theorem foldlM {related : σ → σ' → Prop} {firstStep : σ → α → Except ε σ}
    {secondStep : σ' → α → Except ε' σ'} (step : ∀ value ∈ values, ∀ state matched, related state matched →
      Carries related (firstStep state value) (secondStep matched value)) {startToo : σ'}
    (initial : related start startToo) :
    Carries related (values.foldlM firstStep start) (values.foldlM secondStep startToo) := by
  induction values generalizing start startToo with
  | nil => exact ok initial
  | cons head rest ih =>
    exact (step head (by simp) start startToo initial).bind fun state matched held =>
      ih (fun value member => step value (by simp [member])) held

/-- A permuted list gives a permutation of the results. -/
theorem mapM_perm (perm : values.Perm others) : Carries Perm (values.mapM step) (others.mapM step) := by
  intro results run
  obtain ⟨permuted, done, same⟩ := perm_comp_forall₂ perm.symm (mapM_ok.mp run)
  exact ⟨permuted, mapM_ok.mpr done, same.symm⟩

end Carries

/-- Every failure of a computation is an allowed one. -/
def FailsOnly (allowed : ε → Prop) (first : Except ε α) : Prop :=
  ∀ failure, first = .error failure → allowed failure

section FailsOnly

variable {allowed : ε → Prop}

@[simp] theorem failsOnly_ok (value : α) : FailsOnly allowed (.ok value) := by
  simp [FailsOnly]

@[simp] theorem failsOnly_pure (value : α) : FailsOnly allowed (pure value : Except ε α) :=
  failsOnly_ok value

@[simp] theorem failsOnly_error : FailsOnly allowed (.error failure : Except ε α) ↔ allowed failure := by
  simp [FailsOnly]

/-- A sequence fails as its first part does, or as the rest does after a success. -/
@[simp] theorem failsOnly_bind :
    FailsOnly allowed (first >>= next) ↔
      FailsOnly allowed first ∧ ∀ value, first = .ok value → FailsOnly allowed (next value) := by
  cases first with
  | error failure =>
    change FailsOnly allowed (.error failure) ↔ _
    simp
  | ok value => simp

@[simp] theorem failsOnly_map : FailsOnly allowed (change <$> first) ↔ FailsOnly allowed first := by
  cases first <;> simp [FailsOnly, Functor.map, Except.map]

@[simp] theorem failsOnly_require [Decidable condition] :
    FailsOnly allowed (require condition failure) ↔ (¬ condition → allowed failure) := by
  simp [FailsOnly, require_eq_error]

@[simp] theorem failsOnly_expect {value : Option α} :
    FailsOnly allowed (expect value failure) ↔ (value = none → allowed failure) := by
  cases value <;> simp [expect]

@[simp] theorem failsOnly_mapError {change : ε → ε'} {allowed : ε' → Prop} :
    FailsOnly allowed (first.mapError change) ↔ FailsOnly (fun failure => allowed (change failure)) first := by
  cases first <;> simp [Except.mapError]

/-- A loop fails as its steps do from the states that it reaches. -/
theorem failsOnly_foldlM (invariant : σ → Prop) {step : σ → α → Except ε σ}
    (each : ∀ state, ∀ value ∈ values, invariant state →
      FailsOnly allowed (step state value) ∧ ∀ next, step state value = .ok next → invariant next)
    (initial : invariant start) : FailsOnly allowed (values.foldlM step start) := by
  induction values generalizing start with
  | nil => exact failsOnly_ok start
  | cons head rest ih =>
    obtain ⟨only, kept⟩ := each start head (by simp) initial
    exact failsOnly_bind.mpr ⟨only, fun next done =>
      ih (fun state value member => each state value (by simp [member])) (kept next done)⟩

/-- A loop fails as its steps do from any state. -/
@[simp] theorem failsOnly_foldlM_each {step : σ → α → Except ε σ}
    (each : ∀ state, ∀ value ∈ values, FailsOnly allowed (step state value)) :
    FailsOnly allowed (values.foldlM step start) :=
  failsOnly_foldlM (fun _ => True) (fun state value member _ => ⟨each state value member, by simp⟩) trivial

/-- A pass fails as its steps do. -/
@[simp] theorem failsOnly_mapM (each : ∀ value ∈ values, FailsOnly allowed (step value)) :
    FailsOnly allowed (values.mapM step) := by
  induction values with
  | nil => exact failsOnly_ok []
  | cons head rest ih =>
    have later := ih fun value member => each value (by simp [member])
    rw [mapM_cons]
    simp [each head (by simp), later]

@[simp] theorem failsOnly_forM (each : ∀ value ∈ values, FailsOnly allowed (check value)) :
    FailsOnly allowed (forM values check) := by
  induction values with
  | nil => exact failsOnly_ok ()
  | cons head rest ih =>
    rw [forM_cons, failsOnly_bind]
    exact ⟨each head (by simp), fun _ _ => ih fun value member => each value (by simp [member])⟩

end FailsOnly

end FinanceCore.Exceptions

import FinanceCore.Foundation.Exceptions

namespace FinanceCore.Loop

open Exceptions

variable {ε σ : Type}

/-- A loop runs its body until the state is done, with a bound on the number of passes. -/
def run (done : σ → Bool) (body : σ → Except ε σ) (diverged : ε) : ℕ → σ → Except ε σ
  | 0, state => if done state then .ok state else .error diverged
  | fuel + 1, state => if done state then .ok state else body state >>= run done body diverged fuel

variable {done : σ → Bool} {body : σ → Except ε σ} {diverged : ε}

/-- A body that keeps the invariant and lowers the measure reaches a done state inside the bound. -/
theorem run_terminates {invariant : σ → Prop} {size : σ → ℕ}
    (step : ∀ state, invariant state → done state = false →
      ∃ next, body state = .ok next ∧ invariant next ∧ size next < size state)
    {fuel : ℕ} {start : σ} (initial : invariant start) (enough : size start ≤ fuel) :
    ∃ final, run done body diverged fuel start = .ok final ∧ invariant final ∧
      done final = true := by
  induction fuel generalizing start with
  | zero =>
    cases finished : done start with
    | true => exact ⟨start, by rw [run, finished, if_pos rfl], initial, finished⟩
    | false =>
      obtain ⟨next, _, _, smaller⟩ := step start initial finished
      omega
  | succ fuel ih =>
    cases finished : done start with
    | true => exact ⟨start, by rw [run, finished, if_pos rfl], initial, finished⟩
    | false =>
      obtain ⟨next, moved, kept, smaller⟩ := step start initial finished
      obtain ⟨final, reached, rest⟩ := ih kept (by omega)
      refine ⟨final, ?_, rest⟩
      rw [run, finished, if_neg (by simp), bind_ok]
      exact ⟨next, moved, reached⟩

/-- A larger bound does not change a finished run. -/
theorem run_more {fuel more : ℕ} {start final : σ} (enough : fuel ≤ more)
    (ended : run done body diverged fuel start = .ok final) : run done body diverged more start = .ok final := by
  induction fuel generalizing more start with
  | zero =>
    cases finished : done start with
    | true =>
      rw [run, finished, if_pos rfl] at ended
      cases more <;> rw [run, finished, if_pos rfl, ended]
    | false =>
      rw [run, finished] at ended
      cases ended
  | succ fuel ih =>
    obtain ⟨more, rfl⟩ := Nat.exists_eq_succ_of_ne_zero (by omega : more ≠ 0)
    cases finished : done start with
    | true =>
      rw [run, finished] at ended ⊢
      exact ended
    | false =>
      rw [run, finished, if_neg (by simp), bind_ok] at ended ⊢
      obtain ⟨next, moved, ended⟩ := ended
      exact ⟨next, moved, ih (by omega) ended⟩

/-- A loop fails as its body does or at the bound. -/
theorem failsOnly_run {allowed : ε → Prop} (each : ∀ state, FailsOnly allowed (body state))
    (bound : allowed diverged) (fuel : ℕ) (start : σ) :
    FailsOnly allowed (run done body diverged fuel start) := by
  induction fuel generalizing start with
  | zero =>
    rw [run]
    split <;> simp [bound]
  | succ fuel ih =>
    rw [run]
    split
    · simp
    · exact failsOnly_bind.mpr ⟨each start, fun next _ => ih next⟩

end FinanceCore.Loop

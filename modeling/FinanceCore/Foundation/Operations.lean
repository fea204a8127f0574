import FinanceCore.Foundation.Exceptions

namespace FinanceCore.Operations

/-- The readings of the clock and the random names that the programs of a run meet, in their order. -/
structure World where
  clock : ℕ → ℤ
  names : ℕ → String

/-- A store, with the number of clock readings and of drawn names so far. -/
structure Session (σ : Type) where
  store : σ
  (readings draws : ℕ)

variable {σ ε α β κ : Type}

/-- A program over a store; a write stays in the store when a later statement raises. -/
abbrev Operation (σ ε α : Type) := EStateM ε (Session σ) α

/-- A check that changes nothing. -/
def raising (check : Except ε α) : Operation σ ε α := fun session =>
  match check with
  | .ok value => .ok value session
  | .error failure => .error failure session

/-- A query of the store. -/
def reading (query : σ → Except ε α) : Operation σ ε α := fun session => raising (query session.store) session

/-- A change of the store. -/
def writing (change : σ → Except ε σ) : Operation σ ε Unit := fun session =>
  match change session.store with
  | .ok store => .ok () { session with store }
  | .error failure => .error failure session

/-- One reading of the clock. -/
def now (world : World) : Operation σ ε ℤ := fun session =>
  .ok (world.clock session.readings) { session with readings := session.readings + 1 }

/-- One random name. -/
def draw (world : World) : Operation σ ε String := fun session =>
  .ok (world.names session.draws) { session with draws := session.draws + 1 }

/-- A program that raises has its writes rolled back. -/
def transaction (body : Operation σ ε α) : Operation σ ε α := fun session =>
  match body session with
  | .ok value after => .ok value after
  | .error failure after => .error failure { after with store := session.store }

section Inversion

variable {session after : Session σ} {value : α}

variable {first : Operation σ ε β} {failure : ε}

variable {next : β → Operation σ ε α} {change : β → α} {check : Except ε α} {world : World} {body : Operation σ ε α}

/-- A sequence returns when both parts do. -/
theorem bind_returns :
    (first >>= next) session = .ok value after ↔
      ∃ result middle, first session = .ok result middle ∧
      next result middle = .ok value after := by
  change EStateM.bind first next session = _ ↔ _
  unfold EStateM.bind
  cases first session with
  | ok result middle => simp
  | error failure middle => simp

theorem pure_returns {result : α} :
    (pure result : Operation σ ε α) session = .ok value after ↔ result = value ∧
      session = after := by
  change EStateM.Result.ok result session = _ ↔ _
  simp

/-- A mapped program returns the mapped value. -/
theorem map_returns :
    (change <$> first) session = .ok value after ↔ ∃ result, first session = .ok result after ∧
      change result = value := by
  change EStateM.map change first session = _ ↔ _
  unfold EStateM.map
  cases first session with
  | ok result final => simp [and_comm]
  | error failure final => simp

theorem raising_returns : raising check session = .ok value after ↔ check = .ok value ∧ session = after := by
  unfold raising
  cases check <;> simp

theorem reading_returns {query : σ → Except ε α} :
    reading query session = .ok value after ↔ query session.store = .ok value ∧
      session = after := raising_returns

/-- A write returns with the changed store. -/
theorem writing_returns {change : σ → Except ε σ} {result : Unit} :
    writing change session = .ok result after ↔
      ∃ store, change session.store = .ok store ∧ { session with store } = after := by
  unfold writing
  cases change session.store <;> simp

theorem now_returns {moment : ℤ} :
    (now world : Operation σ ε ℤ) session = .ok moment after ↔
      world.clock session.readings = moment ∧ { session with readings := session.readings + 1 } = after := by
  simp [now]

theorem draw_returns {name : String} :
    (draw world : Operation σ ε String) session = .ok name after ↔
      world.names session.draws = name ∧ { session with draws := session.draws + 1 } = after := by
  simp [draw]

/-- A transaction that returns has its writes. -/
theorem transaction_returns : transaction body session = .ok value after ↔ body session = .ok value after := by
  unfold transaction
  cases body session <;> simp

/-- A sequence raises in one of its parts. -/
theorem bind_raises :
    (first >>= next) session = .error failure after ↔ first session = .error failure after ∨
      ∃ result middle, first session = .ok result middle ∧
      next result middle = .error failure after := by
  change EStateM.bind first next session = _ ↔ _
  unfold EStateM.bind
  cases first session with
  | ok result middle => simp
  | error found middle => simp

theorem map_raises : (change <$> first) session = .error failure after ↔ first session = .error failure after := by
  change EStateM.map change first session = _ ↔ _
  unfold EStateM.map
  cases first session with
  | ok result final => simp
  | error found final => simp

theorem raising_raises : raising check session = .error failure after ↔ check = .error failure ∧ session = after := by
  unfold raising
  cases check <;> simp

/-- A transaction that raises leaves the store as it was. -/
theorem transaction_raises (raised : transaction body session = .error failure after) :
    after.store = session.store := by
  unfold transaction at raised
  cases ended : body session with
  | ok value final =>
    rw [ended] at raised
    cases raised
  | error found final =>
    rw [ended] at raised
    cases raised
    rfl

end Inversion

section Runs

variable {perform : κ → Operation σ ε α}

/-- The session after a call, whether it returns or raises. -/
def next (perform : κ → Operation σ ε α) (session : Session σ) (call : κ) : Session σ :=
  match perform call session with
  | .ok _ after => after
  | .error _ after => after

/-- The session after a sequence of calls. -/
def run (perform : κ → Operation σ ε α) (session : Session σ) (calls : List κ) : Session σ :=
  calls.foldl (next perform) session

variable {session : Session σ} {call : κ} {calls : List κ} {position : ℕ}

theorem next_of_ok {after : Session σ} {value : α} (done : perform call session = .ok value after) :
    next perform session call = after := by
  rw [next, done]

/-- A run with one more call. -/
theorem run_concat (session : Session σ) (calls : List κ) (call : κ) :
    run perform session (calls ++ [call]) = next perform (run perform session calls) call := by
  rw [run, List.foldl_append]
  rfl

variable (restores : ∀ call session failure after, perform call session = .error failure after → after.store =
  session.store)

include restores in
/-- A call returns, or it leaves the store as it was. -/
theorem next_cases (session : Session σ) (call : κ) :
    (next perform session call).store = session.store ∨
      ∃ value, perform call session = .ok value (next perform session call) := by
  cases ended : perform call session with
  | ok value after =>
    right
    rw [next_of_ok ended]
    exact ⟨value, rfl⟩
  | error failure after =>
    left
    rw [next, ended]
    exact restores call session failure after ended

/-- The session that the call at a position of a run meets. -/
def runTo (perform : κ → Operation σ ε α) (session : Session σ) (calls : List κ)
    (position : ℕ) : Session σ :=
  run perform session (calls.take position)

theorem runTo_succ (here : calls[position]? = some call) :
    runTo perform session calls (position + 1) = next perform (runTo perform session calls position) call := by
  rw [runTo, List.take_add_one, here, Option.toList_some, run_concat]
  rfl

include restores in
/-- At a position of a run the store stays as it was, or a call returns there. -/
theorem runTo_cases (session : Session σ) (calls : List κ) (position : ℕ) :
    (runTo perform session calls (position + 1)).store = (runTo perform session calls position).store ∨
      ∃ call value, calls[position]? = some call ∧
        perform call (runTo perform session calls position) = .ok value (runTo perform session calls (position + 1)) := by
  cases here : calls[position]? with
  | none =>
    left
    rw [runTo, List.take_add_one, here, Option.toList_none, List.append_nil]
    rfl
  | some call =>
    rw [runTo_succ here]
    rcases next_cases restores (runTo perform session calls position) call with same | ⟨value, done⟩
    · left
      exact same
    · right
      exact ⟨call, value, rfl, done⟩

/-- What holds of a store along a run but not of the first one begins at some position. -/
theorem exists_start (holds : σ → Prop) (absent : ¬ holds session.store)
    (present : holds (runTo perform session calls position).store) :
    ∃ earlier < position, ¬ holds (runTo perform session calls earlier).store ∧
      holds (runTo perform session calls (earlier + 1)).store := by
  induction position with
  | zero => exact absurd present absent
  | succ position ih =>
    by_cases before : holds (runTo perform session calls position).store
    · obtain ⟨earlier, within, begins⟩ := ih before
      exact ⟨earlier, by omega, begins⟩
    · exact ⟨position, by omega, before, present⟩

include restores in
/-- What every call that returns keeps of the store holds after every run. -/
theorem run_keeps {holds : σ → Prop} (session : Session σ) (calls : List κ)
    (initial : holds session.store)
    (step : ∀ call ∈ calls, ∀ session value after, perform call session = .ok value after →
      holds session.store → holds after.store) : holds (run perform session calls).store := by
  induction calls using List.reverseRecOn with
  | nil => exact initial
  | append_singleton calls call ih =>
    have before := ih fun earlier member => step earlier (List.mem_append_left _ member)
    rw [run_concat]
    rcases next_cases restores (run perform session calls) call with same | ⟨value, done⟩
    · rw [same]
      exact before
    · exact step call (by simp) _ _ _ done before

end Runs

variable {ε' : Type} {holds : σ → Prop} {session : Session σ}

/-- What holds of the store still holds after the program, whether it returns or raises. -/
def Keeps (holds : σ → Prop) (program : Operation σ ε α) (session : Session σ) : Prop :=
  holds session.store → holds (next id session program).store

theorem Keeps.adapt {program : Operation σ ε α} (keeps : Keeps holds program session)
    (change : ε → ε') :
    Keeps holds (EStateM.adaptExcept change program) session := by
  unfold Keeps next EStateM.adaptExcept at *
  dsimp only [id] at *
  cases ran : program session <;> rwa [ran] at keeps

/-- What both parts keep, the sequence keeps. -/
theorem Keeps.bind {first : Operation σ ε β} {rest : β → Operation σ ε α}
    (start : Keeps holds first session)
    (continued : ∀ value middle, first session = .ok value middle → Keeps holds (rest value) middle) :
    Keeps holds (first >>= rest) session := by
  intro initial
  have reached := start initial
  change holds (next id session (EStateM.bind first rest)).store
  unfold next EStateM.bind at *
  dsimp only [id] at *
  cases ran : first session with
  | ok value middle =>
    rw [ran] at reached
    exact continued value middle ran reached
  | error failure middle => rwa [ran] at reached

theorem keeps_reading (query : σ → Except ε α) : Keeps holds (reading query) session := by
  unfold Keeps next reading raising
  dsimp only [id]
  cases query session.store <;> exact id

theorem keeps_writing {change : σ → Except ε σ}
    (step : ∀ store, change session.store = .ok store → holds session.store → holds store) :
    Keeps holds (writing change) session := by
  unfold Keeps next writing
  dsimp only [id]
  cases changed : change session.store with
  | ok store => exact step store changed
  | error failure => exact id

end FinanceCore.Operations

import FinanceCore.Foundation.Exceptions

namespace FinanceCore.Transactions

variable {State Call Result Failure : Type}

/-- A store that only serialised transactions change. -/
structure System (State Call Result Failure : Type) where
  perform : State → Call → Except Failure (Result × State)

/-- One call of a run, with the store that it met and how it ended. -/
structure Event (State Call Result Failure : Type) where
  before : State
  call : Call
  outcome : Except Failure (Result × State)

namespace System

variable (system : System State Call Result Failure)

/-- A transaction that fails is rolled back. -/
def next (state : State) (call : Call) : State :=
  match system.perform state call with
  | .ok (_, after) => after
  | .error _ => state

/-- The store after a list of calls. -/
def run (state : State) (calls : List Call) : State := calls.foldl system.next state

/-- The calls of a run in their order. -/
def history (state : State) : List Call → List (Event State Call Result Failure)
  | [] => []
  | call :: rest => ⟨state, call, system.perform state call⟩ :: history (system.next state call) rest

variable {system}

variable {state : State} {call : Call}

theorem next_of_ok {after : State} {result : Result} (done : system.perform state call = .ok (result, after)) :
    system.next state call = after := by
  rw [next, done]

theorem next_of_error {failure : Failure} (failed : system.perform state call = .error failure) :
    system.next state call = state := by
  rw [next, failed]

/-- A call leaves the store as it was, or it is a transaction that committed. -/
theorem next_cases (state : State) (call : Call) :
    system.next state call = state ∨ ∃ result, system.perform state call = .ok (result, system.next state call) := by
  cases ended : system.perform state call with
  | error failure => exact .inl (next_of_error ended)
  | ok outcome =>
    obtain ⟨result, after⟩ := outcome
    rw [next_of_ok ended]
    exact .inr ⟨result, rfl⟩

theorem run_concat (state : State) (calls : List Call) (call : Call) :
    system.run state (calls ++ [call]) = system.next (system.run state calls) call := List.foldl_append

theorem history_concat (state : State) (calls : List Call) (call : Call) :
    system.history state (calls ++ [call]) = system.history state calls ++
      [⟨system.run state calls, call, system.perform (system.run state calls) call⟩] := by
  induction calls generalizing state with
  | nil => rfl
  | cons head rest ih => exact congrArg _ (ih (system.next state head))

/-- What every committed transaction keeps holds after every run. -/
theorem run_keeps {holds : State → Prop}
    (step : ∀ {state call result after}, system.perform state call = .ok (result, after) → holds state → holds after)
    (initial : holds state) (calls : List Call) : holds (system.run state calls) := by
  induction calls generalizing state with
  | nil => exact initial
  | cons call rest ih =>
    apply ih
    rcases next_cases state call with same | ⟨result, done⟩
    · rw [same]
      exact initial
    · exact step done initial

/-- A preorder that relates the two sides of every committed transaction relates the two ends of every run. -/
theorem run_moves {related : State → State → Prop} (refl : ∀ state, related state state)
    (trans : ∀ {first second third}, related first second → related second third → related first third)
    (step : ∀ {state call result after}, system.perform state call = .ok (result, after) → related state after)
    (state : State) (calls : List Call) : related state (system.run state calls) :=
  run_keeps (fun done before => trans before (step done)) (refl state) calls

/-- An invariant of a store and of the calls that led to it. -/
theorem history_keeps {holds : List (Event State Call Result Failure) → State → Prop}
    {start : State} (initial : holds [] start)
    (step : ∀ past state call, holds past state →
      holds (past ++ [⟨state, call, system.perform state call⟩]) (system.next state call))
    (calls : List Call) : holds (system.history start calls) (system.run start calls) := by
  induction calls using List.reverseRecOn with
  | nil => exact initial
  | append_singleton calls call ih =>
    rw [history_concat, run_concat]
    exact step _ _ call ih

end System

end FinanceCore.Transactions

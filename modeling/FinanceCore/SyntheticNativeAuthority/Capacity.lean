import FinanceCore.Foundation.Operations

namespace FinanceCore.SyntheticNativeAuthority

open Exceptions Operations Function

inductive Kind where
  | journal
  | wal
  deriving DecidableEq

instance : Fintype Kind := ⟨{.journal, .wal}, fun kind => by cases kind <;> decide⟩

inductive Phase where
  | virgin
  | resetIntent
  | resetDone
  | active
  | retired
  deriving DecidableEq

structure Slot where
  generation : ℕ
  phase : Phase
  deriving DecidableEq

structure Reference where
  generation : ℕ
  slot : Fin 2
  deriving DecidableEq

structure Pending where
  target : Reference
  phase : Phase
  opId : String
  deriving DecidableEq

structure Entry where
  lastGeneration : ℕ := 0
  lastSlot : Option (Fin 2) := none
  active : Option Reference := none
  pending : Option Pending := none
  slots : Fin 2 → Slot := fun _ => ⟨0, .virgin⟩

abbrev State := Kind → Entry

def initialState : State := fun _ => {}

inductive AuthorityError where
  | invalidState
  | occupied
  | generationIncrement
  | slotNotReusable
  | pendingTransition
  | staleRetirement
  | retirementCapacity
  | pairCapacity
  | format
  | operationId
  | duplicateOperation
  | tokenCapacity
  | allocationRoom
  | noUnreferencedSlot
  | generationCap
  | closedToken
  | staleGeneration

/-- The limits of an epoch; a descriptor admits no more than 256 records and 63 generations. -/
structure Limits where
  (registryRecordCap headRecordCap registryByteCap headByteCap generationCap tokenCap : ℕ)
  recordsAdmitted : registryRecordCap ≤ 256
  generationsAdmitted : generationCap ≤ 63

def capacity (limits : Limits) : ℕ :=
  min (min limits.registryRecordCap limits.headRecordCap)
    (min (limits.registryByteCap / 4096) (limits.headByteCap / 2048))

def Slot.Bounded (slot : Slot) (lastGeneration : ℕ) : Prop :=
  slot.generation ≤ lastGeneration ∧ (slot.phase = .virgin → slot.generation = 0)
  deriving Decidable

section

variable (entry : Entry)

def Entry.Matches (target : Reference) (phase : Phase) : Prop :=
  target.generation = entry.lastGeneration ∧ entry.slots target.slot = ⟨target.generation, phase⟩
  deriving Decidable

/-- What the validation of a state asks of one kind. -/
def Entry.Valid (generationCap : ℕ) : Prop :=
  entry.lastGeneration ≤ generationCap ∧ (∀ index, (entry.slots index).Bounded entry.lastGeneration) ∧
  (entry.active = none ∨ entry.pending = none) ∧ (∀ target ∈ entry.active, entry.Matches target .active) ∧
  ∀ pending ∈ entry.pending, (pending.phase = .resetIntent ∨ pending.phase = .resetDone) ∧
    entry.Matches pending.target pending.phase
  deriving Decidable

def State.Valid (state : State) (generationCap : ℕ) : Prop :=
  ∀ kind, (state kind).Valid generationCap
  deriving Decidable

/-- The pairs that a kind still needs until its allocation is retired. -/
def Entry.reserved : ℕ :=
  match entry.active, entry.pending with
  | some _, _ => 1
  | none, some pending => if pending.phase = .resetIntent then 3 else 2
  | none, none => 0

def reservations (state : State) : ℕ := (state .journal).reserved + (state .wal).reserved

def assertReservations (limits : Limits) (state : State)
    (seq : ℕ) : Except AuthorityError Unit := do
  require (state.Valid limits.generationCap) .invalidState
  require (seq + reservations state ≤ capacity limits) .retirementCapacity

/-- The preferred slot is the one that was not used last. -/
def selectSlot (state : State) (kind : Kind) (referenced : List (Kind × Reference)) :
    Except AuthorityError (Fin 2) := do
  let entry := state kind
  require (entry.active = none ∧ entry.pending = none) .occupied
  let eligible := (List.finRange 2).filter fun index =>
    ((entry.slots index).phase = .virgin ∨ (entry.slots index).phase = .retired) ∧
      ∀ reference ∈ referenced, reference.1 = kind → reference.2.slot ≠ index
  let other := match entry.lastSlot with
    | some slot => 1 - slot
    | none => 0
  if other ∈ eligible then return other else expect eligible.head? .noUnreferencedSlot

inductive Event where
  | resetIntent
  | resetDone
  | active
  | retired

def Entry.mark (target : Reference) (phase : Phase) : Fin 2 → Slot :=
  Function.update entry.slots target.slot { entry.slots target.slot with phase }

def Entry.advance (generationCap : ℕ) (target : Reference) (opId : String) :
    Event → Except AuthorityError Entry
  | .resetIntent => do
    require (entry.active = none ∧ entry.pending = none) .occupied
    require (target.generation = entry.lastGeneration + 1 ∧ target.generation ≤ generationCap) .generationIncrement
    require ((entry.slots target.slot).phase = .virgin ∨ (entry.slots target.slot).phase = .retired) .slotNotReusable
    return { entry with
      lastGeneration := target.generation
      lastSlot := some target.slot
      slots := Function.update entry.slots target.slot ⟨target.generation, .resetIntent⟩
      pending := some ⟨target, .resetIntent, opId⟩ }
  | .resetDone => do
    require (entry.pending = some ⟨target, .resetIntent, opId⟩) .pendingTransition
    return { entry with slots := entry.mark target .resetDone, pending := some ⟨target, .resetDone, opId⟩ }
  | .active => do
    require (entry.pending = some ⟨target, .resetDone, opId⟩) .pendingTransition
    return { entry with slots := entry.mark target .active, pending := none, active := some target }
  | .retired => do
    require (entry.active = some target) .staleRetirement
    return { entry with slots := entry.mark target .retired, active := none }

end

def transition (generationCap : ℕ) (state : State) (event : Event) (kind : Kind)
    (target : Reference) (opId : String) :
    Except AuthorityError State := do
  require (state.Valid generationCap) .invalidState
  let entry ← (state kind).advance generationCap target opId event
  let result := Function.update state kind entry
  require (State.Valid result generationCap) .invalidState
  return result

section Store

/-- The store in memory; a token is known by its number, since random names do not repeat. -/
structure Store where
  state : State
  seq : ℕ
  usedOperations : List String
  tokens : List (ℕ × Kind × Reference) := []
  issued : ℕ := 0

/-- The identifiers that a frame can hold. -/
def isId (text : String) : Bool :=
  text.toList.length = 32 ∧ ∀ char ∈ text.toList, char.isDigit ∨ 'a' ≤ char ∧ char ≤ 'f'

/-- One record pair; everything is checked before the first byte is written. -/
def commit (limits : Limits) (event : Event) (kind : Kind) (target : Reference) (opId : String)
    (store : Store) :
    Except AuthorityError Store := do
  require (store.seq + 1 ≤ capacity limits) .pairCapacity
  let future ← transition limits.generationCap store.state event kind target opId
  assertReservations limits future (store.seq + 1)
  require (isId opId ∧ store.seq + 1 ≤ 256 ∧ target.generation ≤ 63) .format
  return { store with state := future, seq := store.seq + 1, usedOperations := opId :: store.usedOperations }

def genesis (limits : Limits) (opId : String) : Except AuthorityError Store := do
  require (1 ≤ capacity limits) .pairCapacity
  assertReservations limits initialState 1
  require (isId opId) .format
  return { state := initialState, seq := 1, usedOperations := [opId] }

variable (limits : Limits) (hexadecimal : String → Bool)

/-- The operation identifier has thirty-two characters and is new; that it reads as a number in base sixteen and equals
its lower case is the parameter's test. -/
def checkOperation (opId : String) (store : Store) : Except AuthorityError Unit := do
  require (opId.toList.length = 32 ∧ hexadecimal opId) .operationId
  require (opId ∉ store.usedOperations) .duplicateOperation

/-- The checks in front of an allocation, with the generation and the slot that they choose. -/
def checkAllocation (kind : Kind) (opId : String) (store : Store) : Except AuthorityError Reference := do
  checkOperation hexadecimal opId store
  require ((store.state kind).active = none ∧ (store.state kind).pending = none) .occupied
  require (store.tokens.length < limits.tokenCap) .tokenCapacity
  require (store.seq + (reservations store.state + 4) ≤ capacity limits) .allocationRoom
  let slot ← selectSlot store.state kind (store.tokens.map Prod.snd)
  require ((store.state kind).lastGeneration + 1 ≤ limits.generationCap) .generationCap
  return ⟨(store.state kind).lastGeneration + 1, slot⟩

def newToken (kind : Kind) (target : Reference) (store : Store) : Except AuthorityError Store := do
  require (store.tokens.length < limits.tokenCap) .tokenCapacity
  return { store with tokens := (store.issued, kind, target) :: store.tokens, issued := store.issued + 1 }

def allocate (kind : Kind) (opId : String) : Operation Store AuthorityError Unit := do
  let target ← reading (checkAllocation limits hexadecimal kind opId)
  writing (commit limits .resetIntent kind target opId)
  writing (commit limits .resetDone kind target opId)
  writing (commit limits .active kind target opId)
  writing (newToken limits kind target)

def validateToken (token : ℕ) (store : Store) : Except AuthorityError (Kind × Reference) := do
  let entry ← expect (store.tokens.lookup token) .closedToken
  require ((store.state entry.1).active = some entry.2) .staleGeneration
  return entry

def retire (token : ℕ) (opId : String) : Operation Store AuthorityError Unit := do
  let entry ← reading (validateToken token)
  reading (checkOperation hexadecimal opId)
  writing (commit limits .retired entry.1 entry.2 opId)

inductive Call where
  | allocate (kind : Kind) (opId : String)
  | retire (token : ℕ) (opId : String)

def perform : Call → Operation Store AuthorityError Unit
  | .allocate kind opId => allocate limits hexadecimal kind opId
  | .retire token opId => retire limits hexadecimal token opId

end Store

section Capacity

variable {limits : Limits} {hexadecimal : String → Bool} {store : Store} {kind : Kind} {target : Reference}
  {opId : String} {event : Event} {entry : Entry} {state : State} {generationCap : ℕ}

theorem reservations_update (state : State) (kind : Kind) (entry : Entry) :
    reservations (update state kind entry) + (state kind).reserved = reservations state + entry.reserved := by
  cases kind <;> simp [reservations] <;> omega

theorem Entry.mark_bounded {phase : Phase} (marked : phase ≠ .virgin)
    (slots : ∀ index, (entry.slots index).Bounded entry.lastGeneration) (index : Fin 2) :
    (entry.mark target phase index).Bounded entry.lastGeneration := by
  by_cases here : index = target.slot
  · subst here
    simpa [Entry.mark, Slot.Bounded, marked] using (slots target.slot).1
  · simpa [Entry.mark, here] using slots index

theorem Entry.Matches.mark {before after : Phase} (matching : entry.Matches target before)
    (active : Option Reference) (pending : Option Pending) :
    Entry.Matches { entry with slots := entry.mark target after, active, pending } target after :=
  ⟨matching.1, by simp [Entry.mark, matching.2]⟩

/-- Every event keeps a valid entry valid. -/
theorem Entry.Valid.advance {next : Entry} (valid : entry.Valid generationCap)
    (done : entry.advance generationCap target opId event = .ok next) : next.Valid generationCap := by
  obtain ⟨small, slots, alone, active, pending⟩ := valid
  cases event with
  | resetIntent =>
    simp only [Entry.advance, bind_ok, require_ok, pure_ok] at done
    obtain ⟨-, free, -, bounded, -, -, rfl⟩ := done
    refine ⟨bounded.2, fun index => ?_, .inl free.1, by simp [free.1], by simp [Entry.Matches]⟩
    by_cases here : index = target.slot
    · simp [here, Slot.Bounded]
    · have kept := slots index
      simp only [update_of_ne here]
      exact ⟨kept.1.trans (by omega), kept.2⟩
  | resetDone =>
    simp only [Entry.advance, bind_ok, require_ok, pure_ok] at done
    obtain ⟨-, here, rfl⟩ := done
    have matching := (pending _ here).2
    have absent : entry.active = none := by simpa [here] using alone
    exact ⟨small, Entry.mark_bounded (by decide) slots, .inl absent, by simp [absent],
      by simpa using matching.mark _ _⟩
  | active =>
    simp only [Entry.advance, bind_ok, require_ok, pure_ok] at done
    obtain ⟨-, here, rfl⟩ := done
    have matching := (pending _ here).2
    exact ⟨small, Entry.mark_bounded (by decide) slots, .inr rfl, by simpa using matching.mark _ _, by simp⟩
  | retired =>
    simp only [Entry.advance, bind_ok, require_ok, pure_ok] at done
    obtain ⟨-, here, rfl⟩ := done
    have absent : entry.pending = none := by simpa [here] using alone
    exact ⟨small, Entry.mark_bounded (by decide) slots, .inl rfl, by simp, by simp [absent]⟩

/-- The pairs that are still needed fit beside those that were written. -/
structure Store.Roomy (limits : Limits) (store : Store) : Prop where
  valid : store.state.Valid limits.generationCap
  room : store.seq + reservations store.state ≤ capacity limits

def Store.record (store : Store) (kind : Kind) (entry : Entry) (opId : String) : Store :=
  { store with
    state := Function.update store.state kind entry
    seq := store.seq + 1
    usedOperations := opId :: store.usedOperations }

@[simp] theorem Store.record_state : (store.record kind entry opId).state kind = entry := update_self ..

/-- A pair whose reservation is there is committed, unless the frame cannot hold the identifier. -/
theorem Store.Roomy.commit (roomy : store.Roomy limits) (kind : Kind)
    (small : target.generation ≤ limits.generationCap)
    (advanced : (store.state kind).advance limits.generationCap target opId event = .ok entry)
    (room : store.seq + 1 + (reservations store.state + entry.reserved) ≤
      capacity limits + (store.state kind).reserved) :
    commit limits event kind target opId store =
        (if isId opId then .ok (store.record kind entry opId) else .error .format) ∧
      (store.record kind entry opId).Roomy limits := by
  have valid : State.Valid (update store.state kind entry) limits.generationCap :=
    fun other => by
      by_cases same : other = kind
      · subst same
        simpa using (roomy.valid other).advance advanced
      · simpa [same] using roomy.valid other
  have reserved := reservations_update store.state kind entry
  have fits : store.seq + 1 + reservations (update store.state kind entry) ≤ capacity limits := by omega
  have recorded : capacity limits ≤ 256 := by
    have admitted := limits.recordsAdmitted
    unfold capacity
    omega
  have admitted := limits.generationsAdmitted
  refine ⟨?_, valid, fits⟩
  have pair : store.seq + 1 ≤ capacity limits := by omega
  have framed : store.seq + 1 ≤ 256 ∧ target.generation ≤ 63 := by omega
  simp only [SyntheticNativeAuthority.commit, transition, assertReservations, require, advanced, roomy.valid, valid,
    fits, pair, framed, if_true, and_true, ok_bind, pure_bind]
  split_ifs <;> rfl

/-- A call with a frame's identifier returns with the result, and with any other it changes nothing. -/
def Completes (call : Operation Store AuthorityError Unit) (opId : String) (session : Session Store)
    (result : Store → Prop) : Prop :=
  if isId opId then ∃ after, call session = .ok () after ∧ result after.store else call session = .error .format session

variable {session : Session Store}

theorem Completes.imp {call : Operation Store AuthorityError Unit} {result other : Store → Prop}
    (completes : Completes call opId session result) (implied : ∀ after, result after → other after) :
    Completes call opId session other := by
  unfold Completes at *
  split_ifs at * with frame
  · obtain ⟨after, done, holds⟩ := completes
    exact ⟨after, done, implied _ holds⟩
  · exact completes

/-- What holds of the store between two calls. -/
structure Store.Sound (limits : Limits) (store : Store) : Prop extends store.Roomy limits where
  settled : ∀ kind, (store.state kind).pending = none
  held : ∀ kind target, (store.state kind).active = some target →
    ∃ token < store.issued, store.tokens.lookup token = some (kind, target)

/-- The next store is sound when its changed kind is settled and no earlier token is lost. -/
theorem Store.Sound.next {after : Store} (sound : store.Sound limits) (kind : Kind)
    (roomy : after.Roomy limits) (others : ∀ other ≠ kind, after.state other = store.state other)
    (issued : store.issued ≤ after.issued)
    (tokens : ∀ token < store.issued, after.tokens.lookup token = store.tokens.lookup token)
    (settled : (after.state kind).pending = none)
    (held : ∀ target, (after.state kind).active = some target →
      ∃ token < after.issued, after.tokens.lookup token = some (kind, target)) : after.Sound limits := by
  refine ⟨roomy, fun other => ?_, fun other target present => ?_⟩
  · by_cases same : other = kind
    · rw [same, settled]
    · rw [others other same, sound.settled]
  · by_cases same : other = kind
    · subst same
      exact held target present
    · rw [others other same] at present
      obtain ⟨token, earlier, opened⟩ := sound.held other target present
      exact ⟨token, by omega, by rw [tokens token earlier, opened]⟩

theorem selectSlot_reusable {referenced : List (Kind × Reference)} {slot : Fin 2}
    (chosen : selectSlot state kind referenced = .ok slot) :
    ((state kind).slots slot).phase = .virgin ∨ ((state kind).slots slot).phase = .retired := by
  simp only [selectSlot, bind_ok] at chosen
  obtain ⟨-, -, chosen⟩ := chosen
  split_ifs at chosen with preferred
  · cases chosen
    exact (of_decide_eq_true (List.mem_filter.mp preferred).2).1
  · have listed := List.mem_of_mem_head? (expect_ok.mp chosen)
    exact (of_decide_eq_true (List.mem_filter.mp listed).2).1

/-- A free entry takes the three events of an allocation, each of which needs one pair less. -/
theorem Entry.advance_thrice (opId : String) (target : Reference)
    (free : entry.active = none ∧ entry.pending = none)
    (bounded : target.generation = entry.lastGeneration + 1 ∧ target.generation ≤ generationCap)
    (reusable : (entry.slots target.slot).phase = .virgin ∨ (entry.slots target.slot).phase = .retired) :
    ∃ intent done active, entry.advance generationCap target opId .resetIntent = .ok intent ∧
      intent.advance generationCap target opId .resetDone = .ok done ∧
      done.advance generationCap target opId .active = .ok active ∧ intent.reserved = 3 ∧
      done.reserved = 2 ∧
      active.reserved = 1 ∧ active.active = some target ∧ active.pending = none := by
  exact ⟨_, _, _, by
    simp only [Entry.advance, bind_ok, require_ok, pure_ok]
    exact ⟨(), free, (), bounded, (), reusable, rfl⟩, by
    simp only [Entry.advance, bind_ok, require_ok, pure_ok]
    exact ⟨(), trivial, rfl⟩, by
    simp only [Entry.advance, bind_ok, require_ok, pure_ok]
    exact ⟨(), trivial, rfl⟩, by simp [Entry.reserved, free], by simp [Entry.reserved, free], rfl, rfl, rfl⟩

variable (sound : session.store.Sound limits)
include sound

theorem Store.Sound.allocate (checked : checkAllocation limits hexadecimal kind opId session.store = .ok target) :
    Completes (allocate limits hexadecimal kind opId) opId session fun after => after.Sound limits ∧
      after.seq = session.store.seq + 3 ∧ (after.state kind).active = some target := by
  have passed := checked
  simp only [checkAllocation, bind_ok, require_ok, pure_ok] at checked
  obtain ⟨-, -, -, free, -, tokens, -, room, slot, chosen, -, small, rfl⟩ := checked
  obtain ⟨intent, done, active, first, second, third, three, two, one, named, settled⟩ :=
    Entry.advance_thrice opId ⟨_, slot⟩ free ⟨rfl, small⟩ (selectSlot_reusable chosen)
  obtain ⟨committed, roomy⟩ := sound.commit kind small first (by omega)
  obtain ⟨prepared, ready⟩ := roomy.commit kind small (by rw [Store.record_state]; exact second) (by
    have room := roomy.room
    rw [Store.record_state]
    omega)
  obtain ⟨activated, final⟩ := ready.commit kind small (by rw [Store.record_state]; exact third) (by
    have room := ready.room
    rw [Store.record_state]
    omega)
  unfold Completes
  split_ifs with frame
  · simp only [frame, if_true] at committed prepared activated
    simp only [SyntheticNativeAuthority.allocate, bind_returns, reading_returns, writing_returns]
    refine ⟨_, ⟨_, _, ⟨passed, rfl⟩, (), _, ⟨_, committed, rfl⟩, (), _, ⟨_, prepared, rfl⟩, (), _, ⟨_, activated, rfl⟩,
      _, by simp only [newToken, bind_ok, require_ok, pure_ok]; exact ⟨(), tokens, rfl⟩, rfl⟩, ?_, rfl,
      by simpa [Store.record] using named⟩
    refine sound.next kind ⟨final.valid, final.room⟩ (fun other same => by simp [Store.record, same]) (Nat.le_succ _)
      (fun token earlier => ?_) (by simpa [Store.record] using settled) fun held present => ⟨_, Nat.lt_succ_self _, ?_⟩
    · have older : (token == session.store.issued) = false := by simpa using earlier.ne
      simp [Store.record, List.lookup_cons, older]
    · simp_all [Store.record]
  · simp only [frame] at committed
    simp only [SyntheticNativeAuthority.allocate, bind_raises]
    exact .inr ⟨_, _, reading_returns.mpr ⟨passed, rfl⟩, .inl (by rw [writing, committed]; rfl)⟩

theorem Store.Sound.retire {token : ℕ} (opened : session.store.tokens.lookup token = some (kind, target))
    (present : (session.store.state kind).active = some target)
    (fresh : checkOperation hexadecimal opId session.store = .ok ()) :
    Completes (retire limits hexadecimal token opId) opId session fun after => after.Sound limits ∧
      (after.state kind).active = none := by
  have matching := (sound.valid kind).2.2.2.1 target present
  have validated : validateToken token session.store = .ok (kind, target) := by
    simp [validateToken, opened, present, expect, require]
  have advanced : (session.store.state kind).advance limits.generationCap target opId .retired = .ok
      { session.store.state kind with slots := (session.store.state kind).mark target .retired, active := none } := by
    simp [Entry.advance, present, require]
  obtain ⟨committed, roomy⟩ := sound.commit kind (matching.1.trans_le (sound.valid kind).1) advanced (by
    have room := sound.room
    simp only [Entry.reserved, present, sound.settled kind]
    omega)
  unfold Completes
  split_ifs with frame
  · simp only [frame, if_true] at committed
    simp only [SyntheticNativeAuthority.retire, bind_returns, reading_returns, writing_returns]
    refine ⟨_, ⟨_, _, ⟨validated, rfl⟩, (), _, ⟨fresh, rfl⟩, _, committed, rfl⟩, ?_, by simp [Store.record]⟩
    exact sound.next kind roomy (fun other same => by simp [Store.record, same]) le_rfl (fun _ _ => rfl)
      (by simpa [Store.record] using sound.settled kind) (by simp [Store.record])
  · simp only [frame] at committed
    simp only [SyntheticNativeAuthority.retire, bind_raises]
    exact .inr ⟨_, _, reading_returns.mpr ⟨validated, rfl⟩, .inr ⟨_, _, reading_returns.mpr ⟨fresh, rfl⟩,
      by rw [writing, committed]; rfl⟩⟩

/-- A call returns and leaves a sound store, or it raises and changes nothing. -/
theorem Store.Sound.perform (call : Call) :
    (∃ after, perform limits hexadecimal call session = .ok () after ∧ after.store.Sound limits) ∨
      ∃ failure, perform limits hexadecimal call session = .error failure session := by
  have ended {call : Operation Store AuthorityError Unit} {opId : String}
      (completes : Completes call opId session fun after => after.Sound limits) :
      (∃ after, call session = .ok () after ∧ after.store.Sound limits) ∨
        ∃ failure, call session = .error failure session := by
    unfold Completes at completes
    split_ifs at completes
    · exact .inl completes
    · exact .inr ⟨_, completes⟩
  cases call with
  | allocate kind opId =>
    cases checked : checkAllocation limits hexadecimal kind opId session.store with
    | error failure => exact .inr ⟨failure, bind_raises.mpr (.inl (raising_raises.mpr ⟨checked, rfl⟩))⟩
    | ok target => exact ended ((sound.allocate checked).imp fun _ result => result.1)
  | retire token opId =>
    cases validated : validateToken token session.store with
    | error failure => exact .inr ⟨failure, bind_raises.mpr (.inl (raising_raises.mpr ⟨validated, rfl⟩))⟩
    | ok entry =>
      cases fresh : checkOperation hexadecimal opId session.store with
      | error failure =>
        exact .inr ⟨failure, bind_raises.mpr (.inr ⟨_, _, reading_returns.mpr ⟨validated, rfl⟩,
          bind_raises.mpr (.inl (raising_raises.mpr ⟨fresh, rfl⟩))⟩)⟩
      | ok _ =>
        simp only [validateToken, bind_ok, expect_ok, require_ok, pure_ok] at validated
        obtain ⟨_, opened, -, present, rfl⟩ := validated
        exact ended ((sound.retire opened present fresh).imp fun _ result => result.1)

omit sound

theorem genesis_sound (enrolled : genesis limits opId = .ok store) : store.Sound limits := by
  simp only [genesis, assertReservations, bind_ok, require_ok, pure_ok] at enrolled
  obtain ⟨-, -, -, ⟨-, valid, room⟩, -, -, rfl⟩ := enrolled
  exact ⟨⟨valid, room⟩, fun _ => rfl, fun _ _ present => by simp [initialState] at present⟩

/-- After any allocations and retirements the pairs fit, an allocation that passes its checks is completed, every
active allocation can be retired, and a call that raises has written nothing. -/
theorem allocations_never_stranded (enrolled : genesis limits opId = .ok store) (calls : List Call)
    {reached : Session Store} (ran : run (perform limits hexadecimal) ⟨store, 0, 0⟩ calls = reached) :
    reached.store.seq ≤ capacity limits ∧
    (∀ kind opId target, checkAllocation limits hexadecimal kind opId reached.store = .ok target →
      Completes (allocate limits hexadecimal kind opId) opId reached fun after =>
        after.seq = reached.store.seq + 3 ∧ (after.state kind).active = some target) ∧
    (∀ kind target, (reached.store.state kind).active = some target →
      ∃ token, reached.store.tokens.lookup token = some (kind, target) ∧
        ∀ opId, checkOperation hexadecimal opId reached.store = .ok () →
          Completes (retire limits hexadecimal token opId) opId reached fun after =>
            (after.state kind).active = none) ∧
    ∀ call failure after, perform limits hexadecimal call reached = .error failure after →
      after = reached := by
  have sound : reached.store.Sound limits := by
    rw [← ran]
    refine List.foldlRecOn (motive := fun session : Session Store => session.store.Sound limits) calls _
      (genesis_sound enrolled) fun session sound call _ => ?_
    rcases sound.perform call with ⟨after, done, kept⟩ | ⟨failure, raised⟩
    · rwa [next_of_ok done]
    · rwa [next, raised]
  refine ⟨Nat.le_of_add_right_le sound.room, fun kind opId target checked => ?_, fun kind target present => ?_,
    fun call failure after raised => ?_⟩
  · exact (sound.allocate checked).imp fun _ result => result.2
  · obtain ⟨token, -, opened⟩ := sound.held kind target present
    exact ⟨token, opened, fun opId fresh => (sound.retire opened present fresh).imp fun _ result => result.2⟩
  · rcases sound.perform call with ⟨_, done, -⟩ | ⟨_, same⟩
    · rw [done] at raised
      cases raised
    · rw [same] at raised
      cases raised
      rfl

def defaultLimits : Limits := ⟨256, 256, 1048576, 524288, 63, 16, by decide, by decide⟩

/-- An operation identifier that ends in the given digit. -/
def sampleId (digit : Char) : String := String.ofList (List.replicate 31 '0' ++ [digit])

theorem isId_sampleId {digit : Char} (decimal : digit.isDigit = true) : isId (sampleId digit) = true := by
  simp [isId, sampleId, decimal]

def sampleStore : Store := ⟨initialState, 1, [sampleId '0'], [], 0⟩

theorem genesis_sample : genesis defaultLimits (sampleId '0') = .ok sampleStore := by
  simp only [genesis, assertReservations, bind_ok, require_ok, pure_ok]
  exact ⟨(), by decide, (), ⟨(), by decide, by decide⟩, (), isId_sampleId (by decide), rfl⟩

/-- An allocation uses its identifier three times and issues one token. -/
theorem allocate_issues {after : Session Store}
    (done : allocate limits hexadecimal kind opId session = .ok () after) :
    after.store.usedOperations = opId :: opId :: opId :: session.store.usedOperations ∧
      after.store.issued = session.store.issued + 1 ∧ ∃ target,
        checkAllocation limits hexadecimal kind opId session.store = .ok target ∧
        after.store.tokens = (session.store.issued, kind, target) :: session.store.tokens := by
  simp only [allocate, bind_returns, reading_returns, writing_returns, commit, newToken, bind_ok, require_ok,
    pure_ok] at done
  obtain ⟨target, _, ⟨checked, rfl⟩, _, _, ⟨_, ⟨-, -, _, -, -, -, -, -, rfl⟩, rfl⟩, _, _,
    ⟨_, ⟨-, -, _, -, -, -, -, -, rfl⟩, rfl⟩, _, _, ⟨_, ⟨-, -, _, -, -, -, -, -, rfl⟩, rfl⟩, _, ⟨-, -, rfl⟩, rfl⟩ := done
  exact ⟨rfl, rfl, target, checked, rfl⟩

theorem checkAllocation_sample :
    checkAllocation defaultLimits isId .journal (sampleId '1') sampleStore = .ok ⟨1, 0⟩ := by
  simp only [checkAllocation, checkOperation, bind_ok, require_ok, pure_ok]
  exact ⟨(), ⟨(), ⟨by simp [sampleId], isId_sampleId rfl⟩, by simp [sampleStore, sampleId]⟩, (), by decide, (),
    by decide, (), by decide, 0, rfl, (), by decide, rfl⟩

/-- The first allocation of a new authority. -/
theorem sample_allocated :
    ∃ after, allocate defaultLimits isId .journal (sampleId '1') ⟨sampleStore, 0, 0⟩ = .ok () after ∧
      (after.store.state .journal).active = some ⟨1, 0⟩ := by
  have checked := checkAllocation_sample
  have framed : isId (sampleId '1') = true := isId_sampleId rfl
  -- The identifier is abstract from here on, since its test does not reduce.
  generalize sampleId '1' = opId at checked framed ⊢
  have completes : Completes (allocate defaultLimits isId .journal opId) opId ⟨sampleStore, 0, 0⟩ _ :=
    Store.Sound.allocate (genesis_sound genesis_sample) checked
  rw [Completes, if_pos framed] at completes
  obtain ⟨after, done, -, -, active⟩ := completes
  exact ⟨after, done, active⟩

/-- The journal of a new authority is allocated, and the token of the allocation retires it. -/
theorem allocations_never_stranded_pair :
    genesis defaultLimits (sampleId '0') = .ok sampleStore ∧ ∃ allocated retired token,
      allocate defaultLimits isId .journal (sampleId '1') ⟨sampleStore, 0, 0⟩ = .ok () allocated ∧
      (allocated.store.state .journal).active = some ⟨1, 0⟩ ∧
      retire defaultLimits isId token (sampleId '2') allocated = .ok () retired ∧
      (retired.store.state .journal).active = none := by
  obtain ⟨allocated, done, active⟩ := sample_allocated
  have ran : run (perform defaultLimits isId) ⟨sampleStore, 0, 0⟩ [.allocate .journal (sampleId '1')] = allocated := by
    rw [run, List.foldl_cons, List.foldl_nil, next, perform, done]
  have checked : checkOperation isId (sampleId '2') allocated.store = .ok () := by
    simp only [checkOperation, (allocate_issues done).1, bind_ok, require_ok]
    exact ⟨(), ⟨by simp [sampleId], isId_sampleId rfl⟩, by simp [sampleStore, sampleId]⟩
  have framed : isId (sampleId '2') = true := isId_sampleId rfl
  refine ⟨genesis_sample, allocated, ?_⟩
  generalize sampleId '2' = opId at checked framed ⊢
  obtain ⟨token, -, completes⟩ :=
    (allocations_never_stranded genesis_sample _ ran).2.2.1 .journal ⟨1, 0⟩ active
  have retires := completes opId checked
  rw [Completes, if_pos framed] at retires
  obtain ⟨retired, gone, inactive⟩ := retires
  exact ⟨retired, token, done, active, gone, inactive⟩

end Capacity

end FinanceCore.SyntheticNativeAuthority

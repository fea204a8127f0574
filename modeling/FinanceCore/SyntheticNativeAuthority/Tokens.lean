import FinanceCore.Foundation.Dict
import FinanceCore.SyntheticNativeAuthority.Capacity

namespace FinanceCore.SyntheticNativeAuthority

open Exceptions Operations Function List

inductive TokenError where
  | authority (failure : AuthorityError)
  | kindAbsent

inductive TokenCall where
  | call (call : Call)
  | openToken (kind : Kind)
  | closeToken (token : ℕ)

section

variable (limits : Limits) (hexadecimal : String → Bool)

def openToken (kind : Kind) (store : Store) : Except TokenError Store := do
  let target ← expect (store.state kind).active .kindAbsent
  (newToken limits kind target store).mapError .authority

/-- A closed token is forgotten, whether its allocation is active or not. -/
def closeToken (token : ℕ) (store : Store) : Except TokenError Store := do
  let _ ← expect (store.tokens.lookup token) (.authority .closedToken)
  return { store with tokens := store.tokens.filter fun entry => entry.1 ≠ token }

def performToken : TokenCall → Operation Store TokenError Unit
  | .call call => EStateM.adaptExcept .authority (perform limits hexadecimal call)
  | .openToken kind => writing (openToken limits kind)
  | .closeToken token => writing (closeToken token)

end

/-- The slot of the reference has the generation of the reference, and no reset of it is pending. -/
structure Entry.Follows (entry : Entry) (reference : Reference) : Prop where
  kept : (entry.slots reference.slot).generation = reference.generation
  apart : ∀ pending ∈ entry.pending, reference.slot ≠ pending.target.slot

/-- The open tokens are numbered and their slots follow them; since the origin no token came back into the store or into
force. -/
structure Tracked (limits : Limits) (origin store : Store) : Prop where
  valid : store.state.Valid limits.generationCap
  distinct : (store.tokens.map Prod.fst).Nodup
  numbered : ∀ token ∈ store.tokens, token.1 < store.issued
  follows : ∀ token ∈ store.tokens, (store.state token.2.1).Follows token.2.2
  issued : origin.issued ≤ store.issued
  earlier : ∀ token ∈ store.tokens, token.1 < origin.issued → token ∈ origin.tokens ∧
    ((store.state token.2.1).active = some token.2.2 → (origin.state token.2.1).active = some token.2.2)

variable {limits : Limits} {hexadecimal : String → Bool} {origin store after : Store} {kind : Kind}
  {target reference : Reference} {opId : String} {event : Event} {entry next : Entry} {generationCap : ℕ}

theorem Tracked.restart (tracked : Tracked limits origin store) : Tracked limits store store :=
  { tracked with issued := le_rfl, earlier := fun _ listed _ => ⟨listed, id⟩ }

/-- An event that resets no slot of the reference keeps it followed, and does not activate it. -/
theorem Entry.Follows.advance (follows : entry.Follows reference)
    (done : entry.advance generationCap target opId event = .ok next)
    (unreferenced : event = .resetIntent → reference.slot ≠ target.slot) :
    next.Follows reference ∧ (next.active = some reference → entry.active = some reference) := by
  obtain ⟨kept, apart⟩ := follows
  have marked (phase : Phase) : (entry.mark target phase reference.slot).generation = reference.generation := by
    by_cases here : reference.slot = target.slot
    · simp [Entry.mark, ← here, kept]
    · simp [Entry.mark, here, kept]
  cases event <;> simp only [Entry.advance, bind_ok, require_ok, pure_ok] at done
  · obtain ⟨-, free, -, -, -, -, rfl⟩ := done
    have other := unreferenced rfl
    exact ⟨⟨by simp [other, kept], by simpa using other⟩, id⟩
  · obtain ⟨-, here, rfl⟩ := done
    exact ⟨⟨marked _, by simpa using apart _ here⟩, id⟩
  · obtain ⟨-, here, rfl⟩ := done
    refine ⟨⟨marked _, by simp⟩, fun same => absurd ?_ (apart _ here)⟩
    rw [Option.some.inj same]
  · obtain ⟨-, -, rfl⟩ := done
    exact ⟨⟨marked _, apart⟩, by simp⟩

theorem Tracked.commit (tracked : Tracked limits origin store)
    (done : commit limits event kind target opId store = .ok after)
    (unreferenced : event = .resetIntent → ∀ token ∈ store.tokens, token.2.1 = kind → token.2.2.slot ≠ target.slot) :
    Tracked limits origin after := by
  simp only [SyntheticNativeAuthority.commit, transition, bind_ok, require_ok, pure_ok] at done
  obtain ⟨-, -, _, ⟨-, -, entry, advanced, -, valid, rfl⟩, -, -, -, -, rfl⟩ := done
  have each : ∀ token ∈ store.tokens, (update store.state kind entry token.2.1).Follows token.2.2 ∧
      ((update store.state kind entry token.2.1).active = some token.2.2 →
        (store.state token.2.1).active = some token.2.2) := by
    intro token listed
    have follows := tracked.follows token listed
    by_cases same : token.2.1 = kind
    · subst same
      rw [update_self]
      exact follows.advance advanced fun reset => unreferenced reset token listed rfl
    · rw [update_of_ne same]
      exact ⟨follows, id⟩
  exact { tracked with
    valid
    follows := fun token listed => (each token listed).1
    earlier := fun token listed old => (tracked.earlier token listed old).imp id (· ∘ (each token listed).2) }

theorem Tracked.newToken (tracked : Tracked limits origin store)
    (done : newToken limits kind target store = .ok after)
    (active : (store.state kind).active = some target) :
    Tracked limits origin after := by
  simp only [SyntheticNativeAuthority.newToken, bind_ok, require_ok, pure_ok] at done
  obtain ⟨-, -, rfl⟩ := done
  obtain ⟨-, -, free, matching, -⟩ := tracked.valid kind
  have fresh : store.issued ∉ store.tokens.map Prod.fst := by
    intro listed
    obtain ⟨token, inside, same⟩ := mem_map.mp listed
    exact absurd (tracked.numbered token inside) (by omega)
  have issued := tracked.issued
  refine ⟨tracked.valid, nodup_cons.mpr ⟨fresh, tracked.distinct⟩, forall_mem_cons.mpr ⟨Nat.lt_succ_self _, ?_⟩,
    forall_mem_cons.mpr ⟨⟨by simp [(matching target active).2], by simp_all⟩, tracked.follows⟩, by simp; omega,
    forall_mem_cons.mpr ⟨fun old => absurd old (by simpa using issued), tracked.earlier⟩⟩
  exact fun token listed => Nat.lt_succ_of_lt (tracked.numbered token listed)

theorem selectSlot_unreferenced {state : State} {referenced : List (Kind × Reference)}
    {slot : Fin 2} (chosen : selectSlot state kind referenced = .ok slot) :
    ∀ reference ∈ referenced, reference.1 = kind → reference.2.slot ≠ slot := by
  simp only [selectSlot, bind_ok] at chosen
  obtain ⟨-, -, chosen⟩ := chosen
  split_ifs at chosen with preferred
  · cases chosen
    exact (of_decide_eq_true (List.mem_filter.mp preferred).2).2
  · have listed := List.mem_of_mem_head? (expect_ok.mp chosen)
    exact (of_decide_eq_true (List.mem_filter.mp listed).2).2

theorem perform_tracked (call : Call) (session : Session Store) :
    Keeps (Tracked limits origin) (perform limits hexadecimal call) session := by
  cases call with
  | allocate kind opId =>
    refine (keeps_reading _).bind fun target middle checked => ?_
    obtain ⟨passed, rfl⟩ := reading_returns.mp checked
    simp only [checkAllocation, bind_ok, require_ok, pure_ok] at passed
    obtain ⟨-, -, -, -, -, -, -, -, slot, chosen, -, -, rfl⟩ := passed
    refine (keeps_writing fun _ done tracked => tracked.commit done fun _ token listed =>
      selectSlot_unreferenced chosen _ (mem_map_of_mem listed)).bind fun _ _ _ => ?_
    refine (keeps_writing fun _ done tracked => tracked.commit done (by rintro ⟨⟩)).bind fun _ _ _ => ?_
    refine (keeps_writing fun _ done tracked => tracked.commit done (by rintro ⟨⟩)).bind fun _ _ activated => ?_
    refine keeps_writing fun _ done tracked => tracked.newToken done ?_
    obtain ⟨store, committed, rfl⟩ := writing_returns.mp activated
    simp only [commit, transition, Entry.advance, bind_ok, require_ok, pure_ok] at committed
    obtain ⟨-, -, _, ⟨-, -, entry, ⟨-, -, rfl⟩, -, -, rfl⟩, -, -, -, -, rfl⟩ := committed
    simp
  | retire token opId =>
    refine (keeps_reading _).bind fun entry _ _ => (keeps_reading _).bind fun _ _ _ => ?_
    exact keeps_writing fun _ done tracked => tracked.commit done (by rintro ⟨⟩)

theorem performToken_tracked (call : TokenCall) (session : Session Store) :
    Keeps (Tracked limits origin) (performToken limits hexadecimal call) session := by
  cases call with
  | call call => exact (perform_tracked call session).adapt _
  | openToken kind =>
    refine keeps_writing fun after done tracked => ?_
    obtain ⟨target, active, done⟩ := bind_ok.mp done
    exact tracked.newToken (mapError_ok.mp done) (expect_ok.mp active)
  | closeToken token =>
    refine keeps_writing fun after done tracked => ?_
    obtain ⟨_, _, done⟩ := bind_ok.mp done
    rw [← pure_ok.mp done]
    exact { tracked with
      distinct := tracked.distinct.sublist (filter_sublist.map _)
      numbered := fun other listed => tracked.numbered other (mem_of_mem_filter listed)
      follows := fun other listed => tracked.follows other (mem_of_mem_filter listed)
      earlier := fun other listed => tracked.earlier other (mem_of_mem_filter listed) }

theorem run_tracked (session : Session Store) (tracked : Tracked limits origin session.store)
    (calls : List TokenCall) :
    Tracked limits origin (run (performToken limits hexadecimal) session calls).store :=
  foldlRecOn (motive := fun session : Session Store => Tracked limits origin session.store) calls _ tracked
    fun session tracked call _ => performToken_tracked call session tracked

theorem genesis_tracked (enrolled : genesis limits opId = .ok store) : Tracked limits store store := by
  have valid := (genesis_sound enrolled).valid
  simp only [genesis, bind_ok, pure_ok] at enrolled
  obtain ⟨-, -, -, -, -, -, rfl⟩ := enrolled
  exact ⟨valid, nodup_nil, by simp, by simp, le_rfl, by simp⟩

theorem Tracked.lookup (tracked : Tracked limits origin store) {token : ℕ}
    {entry : Kind × Reference} :
    store.tokens.lookup token = some entry ↔ (token, entry) ∈ store.tokens :=
  Iff.symm (Dict.mem_entries_iff : _ ↔ Dict.get? ⟨store.tokens, tracked.distinct⟩ token = some entry)

/-- After any allocations, retirements, openings and closings of tokens the slot of an open token holds the generation
that the token was issued for. A token that is accepted later was accepted, for the same allocation, at every moment
since it was issued. -/
theorem tokens_track_allocations (enrolled : genesis limits opId = .ok store)
    (calls later : List TokenCall)
    {reached final : Session Store} (ran : run (performToken limits hexadecimal) ⟨store, 0, 0⟩ calls = reached)
    (ranOn : run (performToken limits hexadecimal) reached later = final) :
    (∀ token kind target, reached.store.tokens.lookup token = some (kind, target) →
      ((reached.store.state kind).slots target.slot).generation = target.generation) ∧
    ∀ token < reached.store.issued, ∀ entry, validateToken token final.store = .ok entry →
      validateToken token reached.store = .ok entry := by
  have tracked : Tracked limits store reached.store := by
    rw [← ran]
    exact run_tracked ⟨store, 0, 0⟩ (genesis_tracked enrolled) calls
  have trackedOn : Tracked limits reached.store final.store := ranOn ▸ run_tracked reached tracked.restart later
  refine ⟨fun token kind target opened => (tracked.follows _ (tracked.lookup.mp opened)).kept,
    fun token known entry accepted => ?_⟩
  simp only [validateToken, bind_ok, expect_ok, require_ok, pure_ok] at accepted ⊢
  obtain ⟨_, opened, _, active, rfl⟩ := accepted
  obtain ⟨listed, activeBefore⟩ := trackedOn.earlier _ (trackedOn.lookup.mp opened) known
  exact ⟨_, tracked.lookup.mpr listed, (), activeBefore active, rfl⟩

/-- The token of an allocation is accepted after another one is opened, as it was before. -/
theorem tokens_track_allocations_journal :
    genesis defaultLimits (sampleId '0') = .ok sampleStore ∧ ∃ reached final,
      performToken defaultLimits isId (.call (.allocate .journal (sampleId '1'))) ⟨sampleStore, 0, 0⟩ =
        .ok () reached ∧
      performToken defaultLimits isId (.openToken .journal) reached = .ok () final ∧
      validateToken 0 final.store = .ok (.journal, ⟨1, 0⟩) ∧
      validateToken 0 reached.store = .ok (.journal, ⟨1, 0⟩) ∧
      ((reached.store.state .journal).slots 0).generation = 1 := by
  obtain ⟨reached, done, active⟩ := sample_allocated
  obtain ⟨-, issued, target, checked, tokens⟩ := allocate_issues done
  cases checkAllocation_sample.symm.trans checked
  have allocated : performToken defaultLimits isId (.call (.allocate .journal (sampleId '1'))) ⟨sampleStore, 0, 0⟩ =
      .ok () reached := by
    rw [performToken, EStateM.adaptExcept, perform, done]
  obtain ⟨final, opened, again, kept⟩ : ∃ final, performToken defaultLimits isId (.openToken .journal) reached =
      .ok () final ∧ final.store.tokens = (1, .journal, ⟨1, 0⟩) :: reached.store.tokens ∧
      final.store.state = reached.store.state := by
    simp only [performToken, writing_returns, openToken, newToken, bind_ok, expect_ok, mapError_ok, require_ok, pure_ok]
    exact ⟨_, ⟨_, ⟨_, active, (), by rw [tokens]; decide, rfl⟩, rfl⟩, by rw [issued]; rfl, rfl⟩
  have accepted : validateToken 0 final.store = .ok (.journal, ⟨1, 0⟩) := by
    simp only [validateToken, again, tokens, kept, bind_ok, expect_ok, require_ok, pure_ok]
    exact ⟨_, rfl, (), active, rfl⟩
  have ran : run (performToken defaultLimits isId) ⟨sampleStore, 0, 0⟩ [.call (.allocate .journal (sampleId '1'))] =
      reached := by
    rw [run, foldl_cons, foldl_nil, Operations.next, allocated]
  have ranOn : run (performToken defaultLimits isId) reached [.openToken .journal] = final := by
    rw [run, foldl_cons, foldl_nil, Operations.next, opened]
  have tracked := tokens_track_allocations genesis_sample _ _ ran ranOn
  exact ⟨genesis_sample, reached, final, allocated, opened, accepted, tracked.2 0 (by rw [issued]; decide) _ accepted,
    tracked.1 0 .journal ⟨1, 0⟩ (by rw [tokens]; rfl)⟩

end FinanceCore.SyntheticNativeAuthority

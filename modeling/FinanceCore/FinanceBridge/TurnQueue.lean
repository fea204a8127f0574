import Mathlib.Algebra.Order.Floor.Ring
import Mathlib.Data.Rat.Floor
import Mathlib.Logic.Relation

namespace FinanceCore.FinanceBridge

open List

/-- A call waits in the queue, runs its body and returns; after that its link of the promise chain resolves. -/
inductive Stage where
  | waiting
  | running
  | finished
  | resolved

def Stage.isOver : Stage → Bool
  | .finished | .resolved => true
  | _ => false

/-- A controller with the stages of the calls that it admitted, in the order of their arrival: the link of the last one
is its queue. The bodies started and the calls that ran out of time are listed with the last one first. -/
structure Controller where
  queuedTurns : ℕ
  turns : List Stage
  (starts timeouts : List ℕ)

def maxQueuedTurns : ℕ := 8

def controllerDeadlineMs : ℤ := 105000

/-- The deadline is a safe integer between one and the longest one. -/
def deadlineValid (deadline : Option ℤ) : Bool :=
  deadline.any fun deadline => 0 < deadline && deadline ≤ controllerDeadlineMs

def remaining (deadline : Option ℤ) (waited : ℚ) : ℤ := ⌊(deadline.getD 0 : ℚ) - waited⌋

namespace Controller

def initial : Controller := ⟨0, [], [], []⟩

/-- Takes a call into the queue, unless it is full; without a valid deadline the call ends at once. -/
def handle (deadline : Option ℤ) (controller : Controller) : Controller :=
  if maxQueuedTurns ≤ controller.queuedTurns then controller
  else if deadlineValid deadline then
    { controller with queuedTurns := controller.queuedTurns + 1, turns := controller.turns ++ [.waiting] }
  else { controller with turns := controller.turns ++ [.finished] }

section

variable (controller : Controller)

def place (index : ℕ) (stage : Stage) : Controller :=
  { controller with turns := controller.turns.set index stage }

/-- A call leaves through its `finally`: the counter goes down and its completion is released. -/
def leave (index : ℕ) : Controller :=
  { controller.place index .finished with queuedTurns := controller.queuedTurns - 1 }

/-- The promise that a call found in the queue, the link of the call before it, has resolved. -/
def PredecessorResolved (index : ℕ) : Prop :=
  ∀ before, index = before + 1 → controller.turns[before]? = some .resolved

/-- What the event loop may run next: a call up to its first wait, a waiting call that its predecessor has woken in time
or that its timer or its remaining time has failed, the end of a body, or the link of a call that has returned. -/
inductive Step (controller : Controller) (deadline : Option ℤ) : Controller → Prop where
  | arrive : Step controller deadline (controller.handle deadline)
  | start (index : ℕ) (waited : ℚ) (waiting : controller.turns[index]? = some .waiting)
      (ready : controller.PredecessorResolved index) (left : 0 < remaining deadline waited) :
      Step controller deadline { controller.place index .running with starts := index :: controller.starts }
  | timeout (index : ℕ) (waiting : controller.turns[index]? = some .waiting) :
      Step controller deadline { controller.leave index with timeouts := index :: controller.timeouts }
  | finish (index : ℕ) (running : controller.turns[index]? = some .running) :
      Step controller deadline (controller.leave index)
  | resolve (index : ℕ) (finished : controller.turns[index]? = some .finished)
      (ready : controller.PredecessorResolved index) :
      Step controller deadline (controller.place index .resolved)

/-- The turn has finished or was resolved. -/
def Over (index : ℕ) : Prop := ∃ stage ∈ controller.turns[index]?, stage.isOver

end

/-- What the stage of a call says about its body and its timeout. -/
def Agrees (started timedOut : Prop) : Option Stage → Prop
  | none | some .waiting => ¬started ∧ ¬timedOut
  | some .running => started ∧ ¬timedOut
  | some _ => ¬(started ∧ timedOut)

structure Sound (controller : Controller) : Prop where
  counted : controller.queuedTurns = controller.turns.countP (!·.isOver)
  bounded : controller.queuedTurns ≤ maxQueuedTurns
  agrees : ∀ index, Agrees (index ∈ controller.starts) (index ∈ controller.timeouts) controller.turns[index]?
  ahead : ∀ index, index ∈ controller.starts ∨ controller.turns[index]? = some .resolved →
    ∀ earlier < index, controller.Over earlier
  ordered : controller.starts.Pairwise (· > ·)

variable {controller after : Controller} {deadline : Option ℤ} {index other : ℕ} {old stage : Stage}

section Place

variable (found : controller.turns[index]? = some old)
include found

theorem turns_place :
    (controller.place index stage).turns[other]? = if index = other then some stage else controller.turns[other]? := by
  obtain ⟨inside, -⟩ := List.getElem?_eq_some_iff.mp found
  rw [place, getElem?_set]
  split_ifs <;> rfl

/-- A call that moves changes the count by its old and its new stage. -/
theorem count_place (stage : Stage) : (controller.place index stage).turns.countP (!·.isOver) + (!old.isOver).toNat =
    controller.turns.countP (!·.isOver) + (!stage.isOver).toNat := by
  obtain ⟨inside, rfl⟩ := List.getElem?_eq_some_iff.mp found
  rw [place, countP_set inside]
  cases ended : controller.turns[index].isOver with
  | true => cases stage.isOver <;> simp
  | false =>
    have counted : 0 < controller.turns.countP (!·.isOver) :=
      countP_pos_iff.mpr ⟨_, getElem_mem inside, by rw [ended]; rfl⟩
    cases stage.isOver <;> simp <;> omega

theorem count_place_same (stage : Stage) (same : stage.isOver = old.isOver) :
    (controller.place index stage).turns.countP (!·.isOver) = controller.turns.countP (!·.isOver) := by
  have counted := count_place found stage
  rw [same] at counted
  exact Nat.add_right_cancel counted

/-- A call that is over stays over when no call moves back. -/
theorem Over.place (passed : controller.Over other) (lasting : old.isOver → stage.isOver) :
    (controller.place index stage).Over other := by
  obtain ⟨kept, held, ended⟩ := passed
  unfold Over
  rw [turns_place found]
  split_ifs with same
  · rw [same, held] at found
    cases found
    exact ⟨stage, rfl, lasting ended⟩
  · exact ⟨kept, held, ended⟩

end Place

section

variable (sound : controller.Sound)
include sound

/-- Before a call whose predecessor has resolved every call is over. -/
theorem Sound.earlier_over (ready : controller.PredecessorResolved index) :
    ∀ earlier < index, controller.Over earlier := by
  intro earlier less
  obtain ⟨before, rfl⟩ : ∃ before, index = before + 1 := ⟨index - 1, by omega⟩
  have resolved := ready before rfl
  obtain rfl | below := Nat.eq_or_lt_of_le (Nat.le_of_lt_succ less)
  · exact ⟨_, resolved, rfl⟩
  · exact sound.ahead before (.inr resolved) earlier below

/-- Before a started call no call waits or runs. -/
theorem Sound.not_before_started (started : other ∈ controller.starts)
    (found : controller.turns[index]? = some old)
    (active : old.isOver = false) : ¬index < other := by
  intro less
  obtain ⟨stage, held, ended⟩ := sound.ahead other (.inl started) index less
  rw [Option.mem_def, found] at held
  cases held
  rw [active] at ended
  cases ended

/-- No call before a running one runs. -/
theorem Sound.not_before (first : controller.turns[index]? = some .running)
    (second : controller.turns[other]? = some .running) : ¬index < other := by
  have agrees := sound.agrees other
  rw [second] at agrees
  exact sound.not_before_started agrees.1 first rfl

/-- The marks of the calls still agree with their stages after one call has moved and got its marks. -/
theorem Sound.agrees_place (found : controller.turns[index]? = some old) {starts timeouts : List ℕ}
    (others : ∀ other ≠ index, (other ∈ starts ↔ other ∈ controller.starts) ∧
      (other ∈ timeouts ↔ other ∈ controller.timeouts))
    (here : Agrees (index ∈ starts) (index ∈ timeouts) (some stage)) (other : ℕ) :
    Agrees (other ∈ starts) (other ∈ timeouts) (controller.place index stage).turns[other]? := by
  rw [turns_place found]
  split_ifs with same
  · rw [← same]
    exact here
  · have kept := others other (Ne.symm same)
    rw [kept.1, kept.2]
    exact sound.agrees other

/-- Every call before a started or a resolved one is still over after one call has moved on. -/
theorem Sound.ahead_place (found : controller.turns[index]? = some old)
    (lasting : old.isOver → stage.isOver)
    {starts : List ℕ} (listed : ∀ other ∈ starts, other = index ∨ other ∈ controller.starts)
    (before : index ∈ starts ∨ stage = .resolved → ∀ earlier < index, controller.Over earlier)
    (other : ℕ)
    (passed : other ∈ starts ∨ (controller.place index stage).turns[other]? = some .resolved) :
    ∀ earlier < other, (controller.place index stage).Over earlier := by
  intro earlier less
  refine Over.place found ?_ lasting
  rw [turns_place found] at passed
  by_cases same : index = other
  · subst same
    rw [if_pos rfl, Option.some.injEq] at passed
    exact before passed earlier less
  · rw [if_neg same] at passed
    refine sound.ahead other (passed.imp_left fun started => ?_) earlier less
    exact (listed other started).resolve_left (Ne.symm same)

/-- A new call waits, or it has returned at once. -/
theorem Sound.push (fresh : stage ≠ .running ∧ stage ≠ .resolved) {count : ℕ}
    (counted : count = controller.queuedTurns + (!stage.isOver).toNat)
    (bounded : count ≤ maxQueuedTurns) :
    Sound { controller with queuedTurns := count, turns := controller.turns ++ [stage] } := by
  have turns (other : ℕ) : (controller.turns ++ [stage])[other]? =
      if controller.turns.length = other then some stage else controller.turns[other]? := by
    rw [getElem?_append]
    grind
  refine ⟨?_, bounded, ?_, ?_, sound.ordered⟩
  · rw [counted, sound.counted, countP_append]
    cases ended : stage.isOver <;> simp [ended]
  · intro other
    have agrees := sound.agrees other
    change Agrees _ _ (controller.turns ++ [stage])[other]?
    rw [turns]
    split_ifs with new
    · rw [getElem?_eq_none new.le] at agrees
      cases stage with
      | waiting => exact agrees
      | running => exact absurd rfl fresh.1
      | finished => exact fun marked => agrees.1 marked.1
      | resolved => exact absurd rfl fresh.2
    · exact agrees
  · intro other passed earlier less
    change other ∈ controller.starts ∨ (controller.turns ++ [stage])[other]? = _ at passed
    have known : other ∈ controller.starts ∨ controller.turns[other]? = some .resolved := by
      refine passed.imp_right fun resolved => ?_
      rw [turns] at resolved
      split_ifs at resolved with new
      · exact absurd (Option.some.inj resolved) fresh.2
      · exact resolved
    obtain ⟨kept, held, ended⟩ := sound.ahead other known earlier less
    exact ⟨kept, (getElem?_append_left (List.getElem?_eq_some_iff.mp held).1).trans held, ended⟩

theorem Sound.handle (deadline : Option ℤ) : (controller.handle deadline).Sound := by
  unfold Controller.handle
  split_ifs with full valid
  · exact sound
  · exact sound.push (by simp) rfl (by omega)
  · exact sound.push (by simp) rfl sound.bounded

theorem Sound.start (waiting : controller.turns[index]? = some .waiting)
    (ready : controller.PredecessorResolved index) :
    Sound { controller.place index .running with starts := index :: controller.starts } := by
  have agrees := sound.agrees index
  rw [waiting] at agrees
  have latest : ∀ other ∈ controller.starts, index > other := by
    intro other started
    have least := sound.not_before_started started waiting rfl
    have apart : index ≠ other := fun same => agrees.1 (same ▸ started)
    omega
  refine ⟨?_, sound.bounded, ?_, ?_, pairwise_cons.mpr ⟨latest, sound.ordered⟩⟩
  · exact sound.counted.trans (count_place_same waiting .running rfl).symm
  · exact sound.agrees_place waiting (fun other apart => ⟨by simp [apart], Iff.rfl⟩) ⟨mem_cons_self, agrees.2⟩
  · exact sound.ahead_place waiting (by simp [Stage.isOver]) (fun _ => mem_cons.mp) fun _ => sound.earlier_over ready

/-- A call that waits or runs leaves, and its timeout is listed when it never ran. -/
theorem Sound.leave (found : controller.turns[index]? = some old) (active : old.isOver = false)
    {timeouts : List ℕ} (others : ∀ other ≠ index, other ∈ timeouts ↔ other ∈ controller.timeouts)
    (here : ¬(index ∈ controller.starts ∧ index ∈ timeouts)) :
    Sound { controller.leave index with timeouts } := by
  have counted := count_place found .finished
  rw [active, ← sound.counted] at counted
  have bounded := sound.bounded
  refine ⟨?_, ?_, ?_, ?_, sound.ordered⟩
  · change controller.queuedTurns - 1 = _
    exact (Nat.eq_sub_of_add_eq counted).symm
  · exact (Nat.sub_le _ _).trans bounded
  · exact sound.agrees_place found (fun other apart => ⟨Iff.rfl, others other apart⟩) here
  · refine sound.ahead_place found (fun _ => rfl) (fun _ => .inr) ?_
    rintro (started | ⟨⟨⟩⟩)
    exact sound.ahead index (.inl started)

/-- One step of the event loop keeps a controller sound. -/
theorem Sound.step (step : controller.Step deadline after) : after.Sound := by
  cases step with
  | arrive => exact sound.handle deadline
  | start _ _ waiting ready => exact sound.start waiting ready
  | timeout index waiting =>
    have agrees := sound.agrees index
    rw [waiting] at agrees
    exact sound.leave waiting rfl (fun other apart => by simp [apart]) fun marked => agrees.1 marked.1
  | finish index running =>
    have agrees := sound.agrees index
    rw [running] at agrees
    exact sound.leave running rfl (fun _ _ => Iff.rfl) fun marked => agrees.2 marked.2
  | resolve index finished ready =>
    have agrees := sound.agrees index
    rw [finished] at agrees
    refine ⟨?_, sound.bounded, ?_, ?_, sound.ordered⟩
    · exact sound.counted.trans (count_place_same finished .resolved rfl).symm
    · exact sound.agrees_place finished (fun _ _ => ⟨Iff.rfl, Iff.rfl⟩) agrees
    · exact sound.ahead_place finished (fun _ => rfl) (fun _ => .inr) fun _ => sound.earlier_over ready

end

/-- A run of the event loop from a new controller. -/
def Reached (controller : Controller) (deadline : Option ℤ) : Prop :=
  Relation.ReflTransGen (Step · deadline) initial controller

/-- Every reachable controller is sound. -/
theorem Reached.sound (reached : controller.Reached deadline) : controller.Sound := by
  induction reached with
  | refl => exact ⟨rfl, by decide, by simp [initial, Agrees], by simp [initial], .nil⟩
  | tail _ step ih => exact ih.step step

end Controller

/-- Whatever the event loop does, two bodies never run at once, the bodies start in the order of arrival, a call that ran
out of time never starts its body, every call before a started one is over, and the counter is the number of admitted
calls that have not returned, within its limit. -/
theorem turns_serialized (deadline : Option ℤ) (controller : Controller)
    (reached : controller.Reached deadline) :
    (∀ first second : ℕ, controller.turns[first]? = some Stage.running →
      controller.turns[second]? = some Stage.running → first = second) ∧
    controller.starts.Pairwise (· > ·) ∧ controller.starts.Disjoint controller.timeouts ∧
    (∀ started ∈ controller.starts, ∀ earlier < started, controller.Over earlier) ∧
    controller.queuedTurns = controller.turns.countP (!·.isOver) ∧
      controller.queuedTurns ≤ maxQueuedTurns := by
  obtain ⟨counted, bounded, agrees, ahead, ordered⟩ := reached.sound
  refine ⟨?_, ordered, ?_, fun started listed => ahead started (.inl listed), counted, bounded⟩
  · intro first second one other
    exact le_antisymm (not_lt.mp (reached.sound.not_before other one)) (not_lt.mp (reached.sound.not_before one other))
  · intro index started timedOut
    have known := agrees index
    unfold Controller.Agrees at known
    split at known <;> simp [started, timedOut] at known

/-- The second call times out while the body of the first one runs. -/
theorem turns_serialized_sample :
    Controller.Reached ⟨1, [.running, .finished], [0], [1]⟩ (some 1000) ∧ [0].Disjoint [1] := by
  have arrived : Controller.Reached ⟨2, [.waiting, .waiting], [], []⟩ (some 1000) := .tail (.tail .refl .arrive) .arrive
  have started : Controller.Reached ⟨2, [.running, .waiting], [0], []⟩ (some 1000) :=
    .tail arrived (.start 0 0 rfl (fun _ follows => absurd follows.symm (Nat.succ_ne_zero _)) (by decide +kernel))
  have reached : Controller.Reached ⟨1, [.running, .finished], [0], [1]⟩ (some 1000) :=
    .tail started (.timeout 1 rfl)
  exact ⟨reached, (turns_serialized _ _ reached).2.2.1⟩

end FinanceCore.FinanceBridge

import YamlAgno.Agentos.ResyncManager
import YamlAgno.Library.TaskPool
import Mathlib.Data.List.Induction

/-!
# What holds of every run of the resync manager

Whatever order file events, calls of `resync_now`, cancellations and the steps of the
tasks come in:

* the semaphore is never given away twice nor lost (`permits_add_holding`), so that at
  most `max_concurrent` tasks are in `config.reload()` at once, cancelled ones included;
* tasks never wait for each other in a circle: as long as one is not done, some task can
  go on, and they are all done after a number of steps (`tasks_come_to_an_end`);
* a sleep that ends is that of the last file event, and it ends once
  (`last_fileEvent_of_expired`): a burst of events leads to one resync at most;
* the breaker sees what the tasks do and nothing else (`breaker_books`).
-/

namespace YamlAgno
namespace ResyncManager

open Runs TaskPool CircuitBreaker

variable {settings : ResyncSettings} {s s' : State}

/-! ## The semaphore -/

/-- One task, as the semaphore counts it. -/
def Cycle.held (cycle : Cycle) : ℕ :=
  if cycle.phase = .reloading then 1 else 0

/-- The tasks that have the semaphore. -/
def holding (cycles : List Cycle) : ℕ :=
  cycles.countP fun cycle => cycle.phase = .reloading

theorem Cycle.held_of_reloading
    {cycle : Cycle}
    (h : cycle.phase = .reloading) :
    cycle.held = 1 :=
  if_pos h

theorem Cycle.held_of_ne
    {cycle : Cycle}
    (h : cycle.phase ≠ .reloading) :
    cycle.held = 0 :=
  if_neg h

@[simp] theorem Cycle.cancel_phase (cycle : Cycle) :
    cycle.cancel.phase = cycle.phase := by
  unfold Cycle.cancel
  split <;> rfl

theorem holding_set
    {cycles : List Cycle} {id : ℕ} {cycle : Cycle}
    (hcycle : cycles[id]? = some cycle)
    (cycle' : Cycle) :
    holding (cycles.set id cycle') + cycle.held = holding cycles + cycle'.held := by
  obtain ⟨hlt, rfl⟩ := List.getElem?_eq_some_iff.mp hcycle
  have hle := List.boole_getElem_le_countP (p := fun c : Cycle => c.phase = .reloading) hlt
  simp only [holding, List.countP_set hlt, Cycle.held, decide_eq_true_eq] at hle ⊢
  omega

theorem holding_append_new
    (cycles : List Cycle)
    {phase : Phase}
    (hphase : phase ≠ .reloading) :
    holding (cycles ++ [.new phase]) = holding cycles := by
  simp [holding, Cycle.new, hphase]

/-- A cancellation takes the semaphore from no task. -/
theorem holding_cancelDebounce (s : State) :
    holding s.cancelDebounce.cycles = holding s.cycles := by
  unfold State.cancelDebounce
  split
  · rfl
  · split
    · rfl
    · next id _ _ cycle hcycle =>
        have hset := holding_set hcycle cycle.cancel
        simp only [Cycle.held, cycle.cancel_phase] at hset
        exact Nat.add_right_cancel hset

theorem permits_cancelDebounce (s : State) :
    s.cancelDebounce.permits = s.permits := by
  unfold State.cancelDebounce
  split
  · rfl
  · split <;> rfl

/-- A task that has the semaphore and ends gives it back. -/
theorem permits_add_holding_finish
    {id : ℕ} {cycle : Cycle}
    (hcycle : s.cycles[id]? = some cycle)
    (hphase : cycle.phase = .reloading)
    (cycle' : Cycle)
    (outcome : Outcome) :
    s.permits + 1 + holding (s.cycles.set id (cycle'.record outcome)) =
      s.permits + holding s.cycles := by
  have hset := holding_set hcycle (cycle'.record outcome)
  rw [Cycle.held_of_reloading hphase, Cycle.held_of_ne (by simp [Cycle.record])] at hset
  omega

theorem permits_add_holding_of_step
    {event : Event}
    (hstep : step settings s event = some s') :
    s'.permits + holding s'.cycles = s.permits + holding s.cycles := by
  cases event with
  | attach =>
      cases hstep
      rfl
  | fileEvent =>
      cases hstep
      simp only [State.startDebounceTimer, permits_cancelDebounce,
        holding_append_new _ (show Phase.sleeping ≠ .reloading by decide),
        holding_cancelDebounce]
  | resyncNow =>
      simp only [step] at hstep
      split at hstep
      · cases hstep
        simp only [holding_append_new _ (show Phase.queued ≠ .reloading by decide)]
      · cases hstep
        rfl
  | expired id =>
      obtain ⟨cycle, hlive, rfl⟩ := Option.map_eq_some_iff.mp hstep
      obtain ⟨hcycle, hphase, -⟩ := live_eq_some_iff.mp hlive
      have hset := holding_set hcycle
        { cycle with phase := if s.attached = true then .queued else .ended }
      rw [Cycle.held_of_ne (by simp [hphase]), Cycle.held_of_ne (by split <;> simp)] at hset
      exact congrArg (s.permits + ·) hset
  | acquired id now =>
      simp only [step] at hstep
      split at hstep
      case isTrue hpos =>
        obtain ⟨cycle, hlive, hs'⟩ := Option.map_eq_some_iff.mp hstep
        obtain ⟨hcycle, hphase, -⟩ := live_eq_some_iff.mp hlive
        split at hs'
        · subst hs'
          have hset := holding_set hcycle { cycle with phase := .reloading, admitted := true }
          rw [Cycle.held_of_ne (by simp [hphase]), Cycle.held_of_reloading rfl] at hset
          simp only [State.put]
          omega
        · subst hs'
          have hset := holding_set hcycle { cycle with phase := .ended }
          rw [Cycle.held_of_ne (by simp [hphase]), Cycle.held_of_ne (by simp)] at hset
          exact congrArg (s.permits + ·) hset
      case isFalse =>
        cases hstep
  | configReloaded id =>
      obtain ⟨cycle, hlive, rfl⟩ := Option.map_eq_some_iff.mp hstep
      obtain ⟨hcycle, -, -⟩ := live_eq_some_iff.mp hlive
      have hset := holding_set hcycle { cycle with reloaded := true }
      exact congrArg (s.permits + ·) (Nat.add_right_cancel hset)
  | reloadReturned id resync now =>
      obtain ⟨cycle, hlive, hs'⟩ := Option.map_eq_some_iff.mp hstep
      obtain ⟨hcycle, hphase, -⟩ := live_eq_some_iff.mp hlive
      cases resync with
      | ok value =>
          subst hs'
          exact permits_add_holding_finish hcycle hphase _ _
      | error error =>
          subst hs'
          exact permits_add_holding_finish hcycle hphase _ _
  | reloadRaised id now =>
      obtain ⟨cycle, hfilter, rfl⟩ := Option.map_eq_some_iff.mp hstep
      obtain ⟨hlive, -⟩ := Option.filter_eq_some_iff.mp hfilter
      obtain ⟨hcycle, hphase, -⟩ := live_eq_some_iff.mp hlive
      exact permits_add_holding_finish hcycle hphase _ _
  | delivered id =>
      obtain ⟨cycle, hfilter, rfl⟩ := Option.map_eq_some_iff.mp hstep
      obtain ⟨hcycle, -⟩ := Option.filter_eq_some_iff.mp hfilter
      have hset := holding_set hcycle { cycle with phase := .ended }
      have hended : ({ cycle with phase := .ended } : Cycle).held = 0 :=
        Cycle.held_of_ne (by simp)
      rw [hended] at hset
      simp only [State.put]
      split
      case isTrue hphase =>
        rw [Cycle.held_of_reloading hphase] at hset
        omega
      case isFalse hphase =>
        rw [Cycle.held_of_ne hphase] at hset
        exact congrArg (s.permits + ·) hset

/-- In every run, the permits left and the tasks that have one make up `max_concurrent`. -/
theorem permits_add_holding
    (settings : ResyncSettings)
    {events : List Event}
    (hrun : run (step settings) (initial settings) events = some s) :
    s.permits + holding s.cycles = settings.maxConcurrent :=
  run_invariant (I := fun s => s.permits + holding s.cycles = settings.maxConcurrent)
    (fun _ _ _ h hstep => (permits_add_holding_of_step hstep).trans h) rfl hrun

/-- A save during a reload: the reload keeps its permit until it gets the `CancelledError`. -/
theorem permits_add_holding_saveDuringReload :
    ∃ s, run (step {}) (initial {}) (saveDuringReload []) = some s ∧
      s.permits + holding s.cycles = 1 := by
  obtain ⟨s, hs⟩ : ∃ s, run (step {}) (initial {}) (saveDuringReload []) = some s := ⟨_, rfl⟩
  exact ⟨s, hs, permits_add_holding {} hs⟩

/-! ## Tasks come to an end -/

/-- The events by which a task goes on to its next `await`, or ends. -/
def Event.moves : Event → Bool
  | .expired _ | .acquired _ _ | .reloadReturned _ _ _ | .reloadRaised _ _ | .delivered _ => true
  | .attach | .fileEvent | .resyncNow | .configReloaded _ => false

/-- The events that start a task. -/
def Event.starts : Event → Bool
  | .fileEvent | .resyncNow => true
  | .attach | .configReloaded _ | .expired _ | .acquired _ _ | .reloadReturned _ _ _
  | .reloadRaised _ _ | .delivered _ => false

/-- How many moves are left to a task at most. -/
def Phase.rank : Phase → ℕ
  | .sleeping => 3
  | .queued => 2
  | .reloading => 1
  | .ended => 0

/-- How many are left to all tasks. -/
def movesLeft (s : State) : ℕ :=
  (s.cycles.map fun cycle => cycle.phase.rank).sum

/-- A move takes one task on, and no other. -/
theorem moved_of_step
    {event : Event}
    (hmoves : event.moves = true)
    (hstep : step settings s event = some s') :
    ∃ id cycle cycle', s.cycles[id]? = some cycle ∧ cycle'.phase.rank < cycle.phase.rank ∧
      s'.cycles = s.cycles.set id cycle' := by
  cases event with
  | attach | fileEvent | resyncNow | configReloaded =>
      cases hmoves
  | expired id =>
      obtain ⟨cycle, hlive, rfl⟩ := Option.map_eq_some_iff.mp hstep
      obtain ⟨hcycle, hphase, -⟩ := live_eq_some_iff.mp hlive
      refine ⟨id, cycle, _, hcycle, ?_, rfl⟩
      rw [hphase]
      dsimp only
      split <;> simp [Phase.rank]
  | acquired id now =>
      simp only [step] at hstep
      split at hstep
      · obtain ⟨cycle, hlive, hs'⟩ := Option.map_eq_some_iff.mp hstep
        obtain ⟨hcycle, hphase, -⟩ := live_eq_some_iff.mp hlive
        split at hs'
        · subst hs'
          exact ⟨id, cycle, _, hcycle, by simp [hphase, Phase.rank], rfl⟩
        · subst hs'
          exact ⟨id, cycle, _, hcycle, by simp [hphase, Phase.rank], rfl⟩
      · cases hstep
  | reloadReturned id resync now =>
      obtain ⟨cycle, hlive, hs'⟩ := Option.map_eq_some_iff.mp hstep
      obtain ⟨hcycle, hphase, -⟩ := live_eq_some_iff.mp hlive
      cases resync with
      | ok value =>
          subst hs'
          exact ⟨id, cycle, _, hcycle, by simp [hphase, Phase.rank, Cycle.record], rfl⟩
      | error error =>
          subst hs'
          exact ⟨id, cycle, _, hcycle, by simp [hphase, Phase.rank, Cycle.record], rfl⟩
  | reloadRaised id now =>
      obtain ⟨cycle, hfilter, rfl⟩ := Option.map_eq_some_iff.mp hstep
      obtain ⟨hlive, -⟩ := Option.filter_eq_some_iff.mp hfilter
      obtain ⟨hcycle, hphase, -⟩ := live_eq_some_iff.mp hlive
      exact ⟨id, cycle, _, hcycle, by simp [hphase, Phase.rank, Cycle.record], rfl⟩
  | delivered id =>
      obtain ⟨cycle, hfilter, rfl⟩ := Option.map_eq_some_iff.mp hstep
      obtain ⟨hcycle, hcancelled⟩ := Option.filter_eq_some_iff.mp hfilter
      obtain ⟨-, hphase⟩ := decide_eq_true_iff.mp hcancelled
      refine ⟨id, cycle, _, hcycle, ?_, rfl⟩
      cases h : cycle.phase with
      | ended => exact absurd h hphase
      | sleeping | queued | reloading => simp [Phase.rank]

/-- A cancellation takes nothing from what a task has left to do. -/
theorem movesLeft_cancelDebounce (s : State) :
    movesLeft s.cancelDebounce = movesLeft s := by
  unfold State.cancelDebounce
  split
  · rfl
  · split
    · rfl
    · next id _ _ cycle hcycle =>
        have hsum := sum_map_set (fun c : Cycle => c.phase.rank) hcycle cycle.cancel
        simp only [Cycle.cancel_phase] at hsum
        exact Nat.add_right_cancel hsum

/-- A move is paid for by the event that started its task. -/
theorem movesLeft_of_step
    {event : Event}
    (hstep : step settings s event = some s') :
    movesLeft s' + (if event.moves then 1 else 0) ≤
      movesLeft s + (if event.starts then 3 else 0) := by
  by_cases hmoves : event.moves = true
  · obtain ⟨id, cycle, cycle', hcycle, hless, hset⟩ := moved_of_step hmoves hstep
    have hsum := sum_map_set (fun c : Cycle => c.phase.rank) hcycle cycle'
    rw [if_pos hmoves, movesLeft, movesLeft, hset]
    omega
  · cases event with
    | attach =>
        cases hstep
        exact Nat.le_refl _
    | fileEvent =>
        cases hstep
        have hold := movesLeft_cancelDebounce s
        simp only [movesLeft] at hold
        simp only [movesLeft, State.startDebounceTimer, sum_map_append_singleton, hold]
        exact Nat.le_refl _
    | resyncNow =>
        simp only [step] at hstep
        split at hstep
        · cases hstep
          simp [movesLeft, Event.moves, Event.starts, Cycle.new, Phase.rank]
        · cases hstep
          exact Nat.le_add_right _ _
    | configReloaded id =>
        obtain ⟨cycle, hlive, rfl⟩ := Option.map_eq_some_iff.mp hstep
        obtain ⟨hcycle, -, -⟩ := live_eq_some_iff.mp hlive
        have hsum := sum_map_set (fun c : Cycle => c.phase.rank) hcycle
          { cycle with reloaded := true }
        exact Nat.le_of_eq (Nat.add_right_cancel hsum)
    | expired | acquired | reloadReturned | reloadRaised | delivered =>
        exact absurd rfl hmoves

/-- A task that has been cancelled gets its `CancelledError`, wherever it waits. -/
theorem exists_move_of_cancelled
    {id : ℕ} {cycle : Cycle}
    (hcycle : s.cycles[id]? = some cycle)
    (hphase : cycle.phase ≠ .ended)
    (hcancelled : cycle.cancelledAt ≠ none) :
    ∃ event s', event.moves = true ∧ step settings s event = some s' := by
  refine ⟨.delivered id, _, rfl, Option.map_eq_some_iff.mpr ⟨cycle, ?_, rfl⟩⟩
  refine Option.filter_eq_some_iff.mpr ⟨hcycle, decide_eq_true ⟨?_, hphase⟩⟩
  exact Option.isSome_iff_ne_none.mpr hcancelled

/-- A task that has the semaphore can end. -/
theorem exists_move_of_reloading
    {id : ℕ} {cycle : Cycle}
    (hcycle : s.cycles[id]? = some cycle)
    (hphase : cycle.phase = .reloading) :
    ∃ event s', event.moves = true ∧ step settings s event = some s' := by
  by_cases hlive : cycle.cancelledAt = none
  · obtain ⟨s', outcome, hstep, -⟩ : ∃ s' outcome,
        step settings s (.reloadReturned id (.ok ()) 0) = some s' ∧ _ :=
      step_reloadReturned hcycle hphase hlive (.ok ()) 0
    exact ⟨_, s', rfl, hstep⟩
  · exact exists_move_of_cancelled hcycle (by simp [hphase]) hlive

/-- As long as a task is not done, it or one that it waits for can go on. -/
theorem exists_move
    (hpos : 1 ≤ settings.maxConcurrent)
    (hbalance : s.permits + holding s.cycles = settings.maxConcurrent)
    {id : ℕ} {cycle : Cycle}
    (hcycle : s.cycles[id]? = some cycle)
    (hphase : cycle.phase ≠ .ended) :
    ∃ event s', event.moves = true ∧ step settings s event = some s' := by
  by_cases hlive : cycle.cancelledAt = none
  · cases hp : cycle.phase with
    | sleeping =>
        refine ⟨.expired id, _, rfl, Option.map_eq_some_iff.mpr ⟨cycle, ?_, rfl⟩⟩
        exact live_eq_some_iff.mpr ⟨hcycle, hp, hlive⟩
    | reloading =>
        exact exists_move_of_reloading hcycle hp
    | ended =>
        exact absurd hp hphase
    | queued =>
        by_cases hfree : 0 < s.permits
        · have hqueued := live_eq_some_iff.mpr ⟨hcycle, hp, hlive⟩
          exact ⟨.acquired id 0, _, rfl, by rw [step, if_pos hfree, hqueued]; rfl⟩
        · -- All permits are out, so some task has one and can give it back.
          have hholds : 0 < holding s.cycles := by omega
          obtain ⟨other, hmem, hother⟩ := List.countP_pos_iff.mp hholds
          obtain ⟨i, hi⟩ := List.mem_iff_getElem?.mp hmem
          exact exists_move_of_reloading hi (by simpa using hother)
  · exact exists_move_of_cancelled hcycle hphase hlive

/--
Each file event and each call of `resync_now` leads to three moves at most; and where no
move is left all tasks are done and the semaphore has all its permits.
-/
theorem tasks_come_to_an_end
    (settings : ResyncSettings)
    (hpos : 1 ≤ settings.maxConcurrent)
    {events : List Event}
    (hrun : run (step settings) (initial settings) events = some s) :
    events.countP Event.moves ≤ 3 * events.countP Event.starts ∧
      ((∀ event, event.moves = true → step settings s event = none) →
        (∀ cycle ∈ s.cycles, cycle.phase = .ended) ∧
          s.permits = settings.maxConcurrent) := by
  have hcount := run_countP_le (p := Event.moves) (q := Event.starts) (c := 3)
    (I := fun _ => True) (fun _ _ _ _ _ => trivial)
    (fun _ _ _ _ hstep => movesLeft_of_step hstep) trivial hrun
  have hbalance := run_invariant (I := fun s => s.permits + holding s.cycles = settings.maxConcurrent)
    (fun _ _ _ h hstep => (permits_add_holding_of_step hstep).trans h) rfl hrun
  have hfresh : movesLeft (initial settings) = 0 := rfl
  refine ⟨by omega, fun hstuck => ?_⟩
  have hdone : ∀ cycle ∈ s.cycles, cycle.phase = .ended := by
    intro cycle hcycle
    by_contra hphase
    obtain ⟨id, hid⟩ := List.mem_iff_getElem?.mp hcycle
    obtain ⟨event, s', hmove, hstep⟩ := exists_move hpos hbalance hid hphase
    rw [hstuck event hmove] at hstep
    cases hstep
  refine ⟨hdone, ?_⟩
  have hnone : holding s.cycles = 0 :=
    List.countP_eq_zero.mpr fun cycle hcycle => by simp [hdone cycle hcycle]
  omega

/-- The run of `twoSaves`: its four moves are paid for by the two saves. -/
theorem tasks_come_to_an_end_twoSaves :
    ∃ s, run (step {}) (initial {}) twoSaves = some s ∧
      twoSaves.countP Event.moves ≤ 3 * twoSaves.countP Event.starts ∧
      ((∀ event, event.moves = true → step {} s event = none) →
        (∀ cycle ∈ s.cycles, cycle.phase = .ended) ∧ s.permits = 1) := by
  obtain ⟨s, hs⟩ : ∃ s, run (step {}) (initial {}) twoSaves = some s := ⟨_, rfl⟩
  exact ⟨s, hs, tasks_come_to_an_end {} le_rfl hs⟩

/-! ## One resync a burst -/

/-- The task of the last file event is the only one asleep that has not been cancelled. -/
def OneTimer (s : State) : Prop :=
  ∀ id cycle, s.cycles[id]? = some cycle → cycle.phase = .sleeping →
    cycle.cancelledAt = none → s.debounceTask = some id

/-- No task falls asleep again. -/
theorem not_sleeping_of_cycleStep
    {cycle cycle' : Cycle}
    (h : CycleStep cycle cycle') :
    cycle'.phase ≠ .sleeping := by
  cases h with
  | awake phase _ _ hnext =>
      rcases hnext with rfl | rfl <;> simp
  | reloaded hphase =>
      simp [hphase]
  | refused | admitted | returned | raised | delivered =>
      simp [Cycle.record]

/-- After a step other than a file event, a task that is asleep has not been touched. -/
theorem sleeping_of_step
    {event : Event}
    (hevent : event ≠ .fileEvent)
    (hstep : step settings s event = some s')
    {id : ℕ} {cycle : Cycle}
    (hcycle : s'.cycles[id]? = some cycle)
    (hphase : cycle.phase = .sleeping) :
    s.cycles[id]? = some cycle := by
  rcases cycles_of_step hevent hstep with hsame | hnew | ⟨i, c, c', hc, hmove, hset⟩
  · exact hsame ▸ hcycle
  · rw [hnew] at hcycle
    rcases getElem?_append_singleton hcycle with h | ⟨-, rfl⟩
    · exact h
    · cases hphase
  · rw [hset, List.getElem?_set] at hcycle
    split at hcycle
    · split at hcycle
      · cases hcycle
        exact absurd hphase (not_sleeping_of_cycleStep hmove)
      · cases hcycle
    · exact hcycle

/-- A file event leaves no task asleep but the cancelled ones and its own. -/
theorem cancelled_of_cancelDebounce
    (h : OneTimer s)
    {id : ℕ} {cycle : Cycle}
    (hcycle : s.cancelDebounce.cycles[id]? = some cycle)
    (hphase : cycle.phase = .sleeping) :
    cycle.cancelledAt ≠ none := by
  intro hlive
  unfold State.cancelDebounce at hcycle
  split at hcycle
  · next hnone =>
      rw [h id cycle hcycle hphase hlive] at hnone
      cases hnone
  · next i htimer =>
      split at hcycle
      · next hgone =>
          cases htimer.symm.trans (h id cycle hcycle hphase hlive)
          rw [hgone] at hcycle
          cases hcycle
      · next c hc =>
          simp only [State.put, List.getElem?_set] at hcycle
          split at hcycle
          · split at hcycle
            · cases hcycle
              rw [Cycle.cancel_phase] at hphase
              have hne : c.phase ≠ .ended := by simp [hphase]
              rw [Cycle.cancel, if_neg hne, Option.or_eq_none_iff] at hlive
              cases hlive.2
            · cases hcycle
          · next hid =>
              have htimer' := h id cycle hcycle hphase hlive
              exact hid (Option.some.inj (htimer.symm.trans htimer'))

theorem length_cancelDebounce (s : State) :
    s.cancelDebounce.cycles.length = s.cycles.length := by
  unfold State.cancelDebounce
  split
  · rfl
  · split
    · rfl
    · exact List.length_set

/-- Only a file event changes which task the timer is. -/
theorem debounceTask_of_step
    {event : Event}
    (hevent : event ≠ .fileEvent)
    (hstep : step settings s event = some s') :
    s'.debounceTask = s.debounceTask := by
  cases event with
  | fileEvent =>
      exact absurd rfl hevent
  | attach =>
      cases hstep
      rfl
  | resyncNow =>
      simp only [step] at hstep
      split at hstep <;> cases hstep <;> rfl
  | expired id =>
      obtain ⟨cycle, -, rfl⟩ := Option.map_eq_some_iff.mp hstep
      rfl
  | acquired id now =>
      simp only [step] at hstep
      split at hstep
      · obtain ⟨cycle, -, hs'⟩ := Option.map_eq_some_iff.mp hstep
        split at hs' <;> subst hs' <;> rfl
      · cases hstep
  | configReloaded id =>
      obtain ⟨cycle, -, rfl⟩ := Option.map_eq_some_iff.mp hstep
      rfl
  | reloadReturned id resync now =>
      obtain ⟨cycle, -, hs'⟩ := Option.map_eq_some_iff.mp hstep
      cases resync <;> subst hs' <;> rfl
  | reloadRaised id now =>
      obtain ⟨cycle, -, rfl⟩ := Option.map_eq_some_iff.mp hstep
      rfl
  | delivered id =>
      obtain ⟨cycle, -, rfl⟩ := Option.map_eq_some_iff.mp hstep
      rfl

theorem oneTimer_of_step
    {event : Event}
    (h : OneTimer s)
    (hstep : step settings s event = some s') :
    OneTimer s' := by
  intro id cycle hcycle hphase hlive
  by_cases hevent : event = .fileEvent
  · subst hevent
    cases hstep
    rcases getElem?_append_singleton hcycle with hold | ⟨hid, -⟩
    · exact absurd hlive (cancelled_of_cancelDebounce h hold hphase)
    · rw [hid, length_cancelDebounce]
      rfl
  · rw [debounceTask_of_step hevent hstep]
    exact h id cycle (sleeping_of_step hevent hstep hcycle hphase) hphase hlive

theorem oneTimer
    {events : List Event}
    (hrun : run (step settings) (initial settings) events = some s) :
    OneTimer s :=
  run_invariant (fun _ _ _ h hstep => oneTimer_of_step h hstep)
    (fun _ _ hcycle => by cases hcycle) hrun

/-- The last file event of the run has started task `id`, and `later` has happened since. -/
def LastStarted
    (settings : ResyncSettings)
    (events later : List Event)
    (id : ℕ) : Prop :=
  ∃ earlier before, events = earlier ++ .fileEvent :: later ∧ .fileEvent ∉ later ∧
    run (step settings) (initial settings) earlier = some before ∧
    id = before.cycles.length

/-- The timer is the task of the last file event, and is not asleep once its sleep has ended. -/
theorem exists_lastStarted
    {events : List Event}
    (hrun : run (step settings) (initial settings) events = some s)
    {id : ℕ}
    (htimer : s.debounceTask = some id) :
    ∃ later, LastStarted settings events later id ∧
      ((∀ i, .expired i ∉ later) ∨
        ∀ cycle, s.cycles[id]? = some cycle → cycle.phase ≠ .sleeping) := by
  induction events using List.reverseRecOn generalizing s with
  | nil =>
      cases hrun
      cases htimer
  | append_singleton events event ih =>
      obtain ⟨before, hbefore, hlast⟩ := run_append_eq_some.mp hrun
      obtain ⟨s', hstep, hend⟩ := (run_cons_eq_some _).mp hlast
      cases hend
      by_cases hevent : event = .fileEvent
      · subst hevent
        cases hstep
        cases htimer
        exact ⟨[], ⟨events, before, rfl, List.not_mem_nil, hbefore, rfl⟩,
          .inl fun _ => List.not_mem_nil⟩
      · rw [debounceTask_of_step hevent hstep] at htimer
        obtain ⟨later, ⟨earlier, start, rfl, hnone, hstart, hid⟩, hsleep⟩ := ih hbefore htimer
        refine ⟨later ++ [event], ⟨earlier, start, by simp, ?_, hstart, hid⟩, ?_⟩
        · simpa [hnone] using fun h => hevent h.symm
        · have hkeep : (∀ cycle, before.cycles[id]? = some cycle → cycle.phase ≠ .sleeping) →
              ∀ cycle, s.cycles[id]? = some cycle → cycle.phase ≠ .sleeping :=
            fun h cycle hcycle hphase =>
              h cycle (sleeping_of_step hevent hstep hcycle hphase) hphase
          rcases hsleep with hsleep | hawake
          · by_cases hexpired : ∃ i, event = .expired i
            · -- Only the timer can be asleep, so it is the timer's sleep that ends.
              obtain ⟨i, rfl⟩ := hexpired
              obtain ⟨cycle, hlive, rfl⟩ := Option.map_eq_some_iff.mp hstep
              obtain ⟨hcycle, hphase, hnot⟩ := live_eq_some_iff.mp hlive
              cases htimer.symm.trans (oneTimer hbefore i cycle hcycle hphase hnot)
              refine .inr fun cycle' hcycle' hsleeping => ?_
              have hlt := (List.getElem?_eq_some_iff.mp hcycle).1
              rw [State.put, List.getElem?_set_self hlt] at hcycle'
              cases hcycle'
              revert hsleeping
              dsimp only
              split <;> simp
            · refine .inl fun i hi => ?_
              rcases List.mem_append.mp hi with hi | hi
              · exact hsleep i hi
              · exact hexpired ⟨i, (List.mem_singleton.mp hi).symm⟩
          · exact .inr (hkeep hawake)

/--
A sleep that ends is that of the last file event, and no sleep has ended since that event:
any number of file events in a row lead to one resync at most, the last one's.
-/
theorem last_fileEvent_of_expired
    (settings : ResyncSettings)
    {events : List Event}
    {id : ℕ}
    (hrun : run (step settings) (initial settings) (events ++ [.expired id]) = some s) :
    ∃ later, LastStarted settings events later id ∧ ∀ i, .expired i ∉ later := by
  obtain ⟨before, hbefore, hlast⟩ := run_append_eq_some.mp hrun
  obtain ⟨s', hstep, -⟩ := (run_cons_eq_some _).mp hlast
  obtain ⟨cycle, hlive, -⟩ := Option.map_eq_some_iff.mp hstep
  obtain ⟨hcycle, hphase, hnot⟩ := live_eq_some_iff.mp hlive
  have htimer := oneTimer hbefore id cycle hcycle hphase hnot
  obtain ⟨later, hstarted, hsleep⟩ := exists_lastStarted hbefore htimer
  refine ⟨later, hstarted, ?_⟩
  rcases hsleep with hsleep | hawake
  · exact hsleep
  · exact absurd hphase (hawake cycle hcycle)

/-- The sleep that ends in `twoSaves` is that of the second save. -/
theorem last_fileEvent_of_expired_twoSaves :
    ∃ later, LastStarted {} (twoSaves.take 4) later 1 ∧ ∀ i, .expired i ∉ later := by
  obtain ⟨s, hs⟩ : ∃ s, run (step {}) (initial {}) (twoSaves.take 4 ++ [.expired 1]) = some s :=
    ⟨_, rfl⟩
  exact last_fileEvent_of_expired {} hs

/-! ## The breaker's books -/

/-- The method of the breaker that an event calls. -/
def Event.op : Event → Option Op
  | .acquired _ now => some (.allowRequest now)
  | .reloadReturned _ (.ok _) _ => some .recordSuccess
  | .reloadReturned _ (.error _) now => some (.recordFailure now)
  | .reloadRaised _ now => some (.recordFailure now)
  | .attach | .fileEvent | .resyncNow | .expired _ | .configReloaded _ | .delivered _ => none

theorem breaker_cancelDebounce (s : State) :
    s.cancelDebounce.breaker = s.breaker := by
  unfold State.cancelDebounce
  split
  · rfl
  · split <;> rfl

/-- The breaker's part of a step is the method the event calls, or nothing. -/
theorem run_applyOp_of_step
    {event : Event}
    (hstep : step settings s event = some s') :
    run (applyOp settings.breaker) s.breaker event.op.toList = some s'.breaker := by
  cases event with
  | attach =>
      cases hstep
      rfl
  | fileEvent =>
      cases hstep
      exact congrArg some (breaker_cancelDebounce s).symm
  | resyncNow =>
      simp only [step] at hstep
      split at hstep <;> cases hstep <;> rfl
  | expired id =>
      obtain ⟨cycle, -, rfl⟩ := Option.map_eq_some_iff.mp hstep
      rfl
  | acquired id now =>
      simp only [step] at hstep
      split at hstep
      · obtain ⟨cycle, -, hs'⟩ := Option.map_eq_some_iff.mp hstep
        split at hs' <;> subst hs' <;> rfl
      · cases hstep
  | configReloaded id =>
      obtain ⟨cycle, -, rfl⟩ := Option.map_eq_some_iff.mp hstep
      rfl
  | reloadReturned id resync now =>
      obtain ⟨cycle, -, hs'⟩ := Option.map_eq_some_iff.mp hstep
      cases resync <;> subst hs' <;> rfl
  | reloadRaised id now =>
      obtain ⟨cycle, -, rfl⟩ := Option.map_eq_some_iff.mp hstep
      rfl
  | delivered id =>
      obtain ⟨cycle, -, rfl⟩ := Option.map_eq_some_iff.mp hstep
      rfl

/-- What is recorded of one task. -/
structure Booked (cycle : Cycle) : Prop where
  outcomes_le_one : cycle.outcomes.length ≤ 1
  ended_of_outcome : cycle.outcomes ≠ [] → cycle.phase = .ended
  /-- A task that has not got its `CancelledError` yet is where it was cancelled. -/
  cancelled_here :
    cycle.phase ≠ .ended → cycle.cancelledAt = none ∨ cycle.cancelledAt = some cycle.phase
  /-- A task that is cancelled, its reload included, is never recorded. -/
  unrecorded_of_cancelled : cycle.cancelledAt ≠ none → cycle.outcomes = []
  admitted_iff :
    cycle.admitted = true ↔
      cycle.phase = .reloading ∨ cycle.outcomes ≠ [] ∨ cycle.cancelledAt = some .reloading

theorem Booked.outcomes_eq_nil
    {cycle : Cycle}
    (h : Booked cycle)
    (hphase : cycle.phase ≠ .ended) :
    cycle.outcomes = [] := by
  by_contra hne
  exact hphase (h.ended_of_outcome hne)

theorem booked_new
    {phase : Phase}
    (hphase : phase ≠ .reloading) :
    Booked (.new phase) where
  outcomes_le_one := Nat.zero_le 1
  ended_of_outcome h := absurd rfl h
  cancelled_here _ := .inl rfl
  unrecorded_of_cancelled _ := rfl
  admitted_iff := by simp [Cycle.new, hphase]

theorem Booked.cancel
    {cycle : Cycle}
    (h : Booked cycle) :
    Booked cycle.cancel := by
  unfold Cycle.cancel
  split
  case isTrue => exact h
  case isFalse hphase =>
    have hnil := h.outcomes_eq_nil hphase
    have hadmitted := h.admitted_iff
    refine ⟨h.outcomes_le_one, h.ended_of_outcome, fun _ => .inr ?_, fun _ => hnil, ?_⟩
    · rcases h.cancelled_here hphase with hnone | hsome
      · simp [hnone]
      · simp [hsome]
    · rcases h.cancelled_here hphase with hnone | hsome
      · simpa [hnil, hnone] using hadmitted
      · simpa [hnil, hsome] using hadmitted

/-- An admitted task that ends by itself has one outcome. -/
theorem Booked.record
    {cycle : Cycle}
    (h : Booked cycle)
    (hphase : cycle.phase = .reloading)
    (hlive : cycle.cancelledAt = none)
    (reloaded resynced : Bool)
    (outcome : Outcome) :
    Booked ({ cycle with reloaded := reloaded, resynced := resynced }.record outcome) where
  outcomes_le_one := by simp [Cycle.record, h.outcomes_eq_nil (by simp [hphase])]
  ended_of_outcome _ := rfl
  cancelled_here hended := absurd rfl hended
  unrecorded_of_cancelled hcancelled := absurd hlive hcancelled
  admitted_iff := by simp [Cycle.record, h.admitted_iff, hphase]

theorem booked_of_cycleStep
    {cycle cycle' : Cycle}
    (h : Booked cycle)
    (hstep : CycleStep cycle cycle') :
    Booked cycle' := by
  have hadmitted := h.admitted_iff
  cases hstep with
  | awake phase hphase hlive hnext =>
      have hnil := h.outcomes_eq_nil (by simp [hphase])
      refine ⟨h.outcomes_le_one, fun hne => absurd hnil hne, fun _ => .inl hlive,
        fun _ => hnil, ?_⟩
      rcases hnext with rfl | rfl <;> simpa [hphase, hlive, hnil] using hadmitted
  | refused hphase hlive =>
      have hnil := h.outcomes_eq_nil (by simp [hphase])
      refine ⟨h.outcomes_le_one, fun _ => rfl, fun _ => .inl hlive, fun _ => hnil, ?_⟩
      simpa [hphase, hlive, hnil] using hadmitted
  | admitted hphase hlive =>
      have hnil := h.outcomes_eq_nil (by simp [hphase])
      exact ⟨h.outcomes_le_one, fun hne => absurd hnil hne, fun _ => .inl hlive,
        fun _ => hnil, by simp⟩
  | reloaded hphase hlive =>
      exact ⟨h.outcomes_le_one, h.ended_of_outcome, h.cancelled_here,
        h.unrecorded_of_cancelled, hadmitted⟩
  | returned outcome hphase hlive =>
      exact h.record hphase hlive true true outcome
  | raised hphase hlive hreloaded =>
      exact h.record hphase hlive _ _ .failure
  | delivered hcancelled hphase =>
      have hnil := h.outcomes_eq_nil hphase
      refine ⟨h.outcomes_le_one, fun _ => rfl, fun hended => absurd rfl hended,
        fun _ => hnil, ?_⟩
      rcases h.cancelled_here hphase with hnone | hsome
      · simp [hnone] at hcancelled
      · simpa [hnil, hsome] using hadmitted

theorem booked_of_step
    {event : Event}
    (h : ∀ cycle ∈ s.cycles, Booked cycle)
    (hstep : step settings s event = some s') :
    ∀ cycle ∈ s'.cycles, Booked cycle := by
  by_cases hevent : event = .fileEvent
  · subst hevent
    obtain ⟨hcycles, hcancel⟩ := cycles_of_fileEvent hstep
    rw [hcycles]
    refine forall_mem_append_singleton ?_ (booked_new (by simp))
    rcases hcancel with hsame | ⟨id, cycle, -, hcycle, hset⟩
    · rw [hsame]
      exact h
    · rw [hset]
      exact forall_mem_set h (h cycle (List.mem_of_getElem? hcycle)).cancel
  · rcases cycles_of_step hevent hstep with hsame | hnew | ⟨id, cycle, cycle', hcycle, hmove, hset⟩
    · rw [hsame]
      exact h
    · rw [hnew]
      exact forall_mem_append_singleton h (booked_new (by simp))
    · rw [hset]
      exact forall_mem_set h (booked_of_cycleStep (h cycle (List.mem_of_getElem? hcycle)) hmove)

/-- How many outcomes have been recorded. -/
def recorded (cycles : List Cycle) : ℕ :=
  (cycles.map fun cycle => cycle.outcomes.length).sum

/-- A task that is replaced by one with the same outcomes changes nothing in the books. -/
theorem recorded_set_of_eq
    {cycles : List Cycle} {id : ℕ} {cycle cycle' : Cycle}
    (hcycle : cycles[id]? = some cycle)
    (hsame : cycle'.outcomes = cycle.outcomes) :
    recorded (cycles.set id cycle') = recorded cycles := by
  have hsum := sum_map_set (fun c : Cycle => c.outcomes.length) hcycle cycle'
  simp only [hsame] at hsum
  exact Nat.add_right_cancel hsum

theorem recorded_set_record
    {cycles : List Cycle} {id : ℕ} {cycle cycle' : Cycle}
    (hcycle : cycles[id]? = some cycle)
    (hsame : cycle'.outcomes = cycle.outcomes)
    (outcome : Outcome) :
    recorded (cycles.set id (cycle'.record outcome)) = recorded cycles + 1 := by
  have hsum := sum_map_set (fun c : Cycle => c.outcomes.length) hcycle (cycle'.record outcome)
  have hlength : (cycle'.record outcome).outcomes.length = cycle.outcomes.length + 1 := by
    simp [Cycle.record, hsame]
  unfold recorded
  omega

theorem recorded_append_new
    (cycles : List Cycle)
    (phase : Phase) :
    recorded (cycles ++ [.new phase]) = recorded cycles := by
  simp [recorded, Cycle.new]

theorem recorded_cancelDebounce (s : State) :
    recorded s.cancelDebounce.cycles = recorded s.cycles := by
  unfold State.cancelDebounce
  split
  · rfl
  · split
    · rfl
    · next cycle hcycle =>
        refine recorded_set_of_eq hcycle ?_
        unfold Cycle.cancel
        split <;> rfl

theorem totalRequests_of_step
    {event : Event}
    (h : s.breaker.totalRequests = recorded s.cycles)
    (hstep : step settings s event = some s') :
    s'.breaker.totalRequests = recorded s'.cycles := by
  cases event with
  | attach =>
      cases hstep
      exact h
  | fileEvent =>
      cases hstep
      simp only [State.startDebounceTimer, recorded_append_new, recorded_cancelDebounce,
        breaker_cancelDebounce]
      exact h
  | resyncNow =>
      simp only [step] at hstep
      split at hstep
      · cases hstep
        exact h.trans (recorded_append_new _ _).symm
      · cases hstep
        exact h
  | expired id =>
      obtain ⟨cycle, hlive, rfl⟩ := Option.map_eq_some_iff.mp hstep
      obtain ⟨hcycle, -, -⟩ := live_eq_some_iff.mp hlive
      refine h.trans (recorded_set_of_eq hcycle ?_).symm
      rfl
  | acquired id now =>
      simp only [step] at hstep
      split at hstep
      · obtain ⟨cycle, hlive, hs'⟩ := Option.map_eq_some_iff.mp hstep
        obtain ⟨hcycle, -, -⟩ := live_eq_some_iff.mp hlive
        have hasked := (allowRequest_totalRequests settings.breaker now s.breaker).trans h
        split at hs'
        · subst hs'
          refine hasked.trans (recorded_set_of_eq hcycle ?_).symm
          rfl
        · subst hs'
          refine hasked.trans (recorded_set_of_eq hcycle ?_).symm
          rfl
      · cases hstep
  | configReloaded id =>
      obtain ⟨cycle, hlive, rfl⟩ := Option.map_eq_some_iff.mp hstep
      obtain ⟨hcycle, -, -⟩ := live_eq_some_iff.mp hlive
      refine h.trans (recorded_set_of_eq hcycle ?_).symm
      rfl
  | reloadReturned id resync now =>
      obtain ⟨cycle, hlive, hs'⟩ := Option.map_eq_some_iff.mp hstep
      obtain ⟨hcycle, -, -⟩ := live_eq_some_iff.mp hlive
      cases resync with
      | ok value =>
          subst hs'
          simp only [State.finish, State.put, recordSuccess_totalRequests, h]
          exact (recorded_set_record hcycle (by rfl) _).symm
      | error error =>
          subst hs'
          simp only [State.finish, State.put, recordFailure_totalRequests, h]
          exact (recorded_set_record hcycle (by rfl) _).symm
  | reloadRaised id now =>
      obtain ⟨cycle, hfilter, rfl⟩ := Option.map_eq_some_iff.mp hstep
      obtain ⟨hlive, -⟩ := Option.filter_eq_some_iff.mp hfilter
      obtain ⟨hcycle, -, -⟩ := live_eq_some_iff.mp hlive
      simp only [State.finish, State.put, recordFailure_totalRequests, h]
      exact (recorded_set_record hcycle (by rfl) _).symm
  | delivered id =>
      obtain ⟨cycle, hfilter, rfl⟩ := Option.map_eq_some_iff.mp hstep
      obtain ⟨hcycle, -⟩ := Option.filter_eq_some_iff.mp hfilter
      refine h.trans (recorded_set_of_eq hcycle ?_).symm
      rfl

/--
The breaker is what the calls of its methods by the tasks make of a fresh one, in their
order.  Its total is the number of tasks that ended with an outcome; each of them has one,
and the other admitted ones are in `config.reload()` or were cancelled there.
-/
theorem breaker_books
    (settings : ResyncSettings)
    {events : List Event}
    (hrun : run (step settings) (initial settings) events = some s) :
    run (applyOp settings.breaker) fresh (events.filterMap Event.op) = some s.breaker ∧
      s.breaker.totalRequests = recorded s.cycles ∧
      ∀ cycle ∈ s.cycles, Booked cycle := by
  refine ⟨run_projection (I := fun _ => True) State.breaker Event.op (fun _ _ _ _ _ => trivial)
    (fun _ _ _ _ hstep => run_applyOp_of_step hstep) trivial hrun, ?_, ?_⟩
  · exact run_invariant (I := fun s => s.breaker.totalRequests = recorded s.cycles)
      (fun _ _ _ h hstep => totalRequests_of_step h hstep) rfl hrun
  · exact run_invariant (I := fun s => ∀ cycle ∈ s.cycles, Booked cycle)
      (fun _ _ _ h hstep => booked_of_step h hstep) (fun _ hcycle => by cases hcycle) hrun

/-- The books of a reload that is cancelled: admitted, and nothing recorded. -/
theorem breaker_books_saveDuringReload :
    ∃ s, run (step {}) (initial {}) (saveDuringReload []) = some s ∧
      run (applyOp (ResyncSettings.breaker {})) fresh
        ((saveDuringReload []).filterMap Event.op) = some s.breaker ∧
      s.breaker.totalRequests = recorded s.cycles ∧
      ∀ cycle ∈ s.cycles, Booked cycle := by
  obtain ⟨s, hs⟩ : ∃ s, run (step {}) (initial {}) (saveDuringReload []) = some s := ⟨_, rfl⟩
  exact ⟨s, hs, breaker_books {} hs⟩

end ResyncManager
end YamlAgno

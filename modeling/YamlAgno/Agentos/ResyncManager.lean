import YamlAgno.Resilience.CircuitBreaker

/-!
# The resync manager

`ResyncManager` of `agentos/resync_manager.py`.  A file event cancels the task of the last
event and starts a new one, which sleeps and then calls `resync_now`.  A run interleaves
file events, calls of `resync_now` and the steps of the tasks from one `await` to the next.

`task.cancel()` only asks for the cancellation; the task gets its `CancelledError` at the
`await` it is suspended at (`delivered`), and does nothing else in between.  That `await`
need not be the sleep: the task that a file event finds in `_debounce_task` may be waiting
for the semaphore or for `config.reload()`.  `except Exception` does not see a
`CancelledError`, so an admitted cycle then ends with no outcome on the breaker.

`neverAborted_throughout_iff` says that this is the only way to lose a cycle: a run keeps
every promise of the module exactly when each file event finds the last task still asleep
or done.
-/

namespace YamlAgno

open Runs CircuitBreaker

/-- The fields of `ResyncSettings` that are read when a manager is attached and in a resync. -/
structure ResyncSettings where
  enabled : Bool := false
  maxConcurrent : Nat := 1
  failureThreshold : ℚ := 50
  minRequests : Int := 5
  recoveryTimeout : Int := 30

/-- The breaker that the manager builds from its settings. -/
def ResyncSettings.breaker (settings : ResyncSettings) : Settings where
  failureThreshold := .float (.finite settings.failureThreshold)
  recoveryTimeout := settings.recoveryTimeout
  minRequests := settings.minRequests

namespace ResyncManager

/-- Where a task is: asleep, at the semaphore, at `config.reload()`, or done. -/
inductive Phase where
  | sleeping
  | queued
  | reloading
  | ended
deriving DecidableEq

/-- What is recorded on the breaker. -/
inductive Outcome where
  | success
  | failure
deriving DecidableEq

/-- A task that runs `resync_now`, with what has become of it. -/
structure Cycle where
  phase : Phase
  /-- Where the task was suspended when it was cancelled. -/
  cancelledAt : Option Phase
  /-- `allow_request` has returned `True`. -/
  admitted : Bool
  outcomes : List Outcome
  /-- `config.reload()` has succeeded. -/
  reloaded : Bool
  /-- `AgentOS.resync()` has been called. -/
  resynced : Bool
deriving DecidableEq

/-- A new task. -/
def Cycle.new (phase : Phase) : Cycle where
  phase := phase
  cancelledAt := none
  admitted := false
  outcomes := []
  reloaded := false
  resynced := false

/-- `task.cancel()`, unless the task is done. -/
def Cycle.cancel (cycle : Cycle) : Cycle :=
  if cycle.phase = .ended then cycle
  else { cycle with cancelledAt := cycle.cancelledAt.or (some cycle.phase) }

/-- The end of an admitted cycle: `record_success` or `record_failure`. -/
def Cycle.record (cycle : Cycle) (outcome : Outcome) : Cycle :=
  { cycle with phase := .ended, outcomes := cycle.outcomes ++ [outcome] }

/-- The manager, its semaphore, and all its tasks in the order in which they were created. -/
structure State where
  attached : Bool
  breaker : Breaker
  permits : Nat
  cycles : List Cycle
  debounceTask : Option Nat
deriving DecidableEq

/-- `ResyncManager(...)`. -/
def initial (settings : ResyncSettings) : State where
  attached := false
  breaker := fresh
  permits := settings.maxConcurrent
  cycles := []
  debounceTask := none

/-- What happens to a manager; a step of a task names the task. -/
inductive Event where
  | attach
  | fileEvent
  | resyncNow
  /-- The sleep is over. -/
  | expired (id : Nat)
  /-- The task has the semaphore, and asks the breaker. -/
  | acquired (id : Nat) (now : ℚ)
  /-- `config.reload()` has done its work, but the task is not resumed yet. -/
  | configReloaded (id : Nat)
  /-- `config.reload()` returns, and `AgentOS.resync()` is called. -/
  | reloadReturned (id : Nat) (resync : Except String Unit) (now : ℚ)
  /-- `config.reload()` raises. -/
  | reloadRaised (id : Nat) (now : ℚ)
  /-- The task gets the `CancelledError`. -/
  | delivered (id : Nat)

namespace State

/-- Puts a task in its place. -/
def put (s : State) (id : Nat) (cycle : Cycle) : State :=
  { s with cycles := s.cycles.set id cycle }

/-- The task, if it can go on from the given `await`. -/
def live (s : State) (id : Nat) (phase : Phase) : Option Cycle :=
  (s.cycles[id]?).filter fun cycle => cycle.phase = phase ∧ cycle.cancelledAt = none

/-- `_cancel_debounce`. -/
def cancelDebounce (s : State) : State :=
  match s.debounceTask with
  | none => s
  | some id =>
      match s.cycles[id]? with
      | none => s
      | some cycle => s.put id cycle.cancel

/-- `_start_debounce_timer`. -/
def startDebounceTimer (s : State) : State :=
  { s.cancelDebounce with
    cycles := s.cancelDebounce.cycles ++ [.new .sleeping]
    debounceTask := some s.cycles.length }

/-- An admitted cycle ends with an outcome, and gives the semaphore back. -/
def finish (s : State) (id : Nat) (cycle : Cycle) (outcome : Outcome) (breaker : Breaker) : State :=
  { s.put id (cycle.record outcome) with
    breaker := breaker
    permits := s.permits + 1 }

end State

/-- One event; `none` where the task it names is not at the `await` it is about. -/
def step (settings : ResyncSettings) (s : State) : Event → Option State
  | .attach => some { s with attached := true }
  | .fileEvent => some s.startDebounceTimer
  | .resyncNow =>
      -- Without an `AgentOS` the call raises before it comes to the semaphore.
      if s.attached then some { s with cycles := s.cycles ++ [.new .queued] } else some s
  | .expired id =>
      (s.live id .sleeping).map fun cycle =>
        s.put id { cycle with phase := if s.attached then .queued else .ended }
  | .acquired id now =>
      if 0 < s.permits then
        (s.live id .queued).map fun cycle =>
          let answer := allowRequest settings.breaker now s.breaker
          if answer.1 then
            { s.put id { cycle with phase := .reloading, admitted := true } with
              breaker := answer.2
              permits := s.permits - 1 }
          else
            { s.put id { cycle with phase := .ended } with breaker := answer.2 }
      else none
  | .configReloaded id =>
      (s.live id .reloading).map fun cycle => s.put id { cycle with reloaded := true }
  | .reloadReturned id resync now =>
      (s.live id .reloading).map fun cycle =>
        let resumed := { cycle with reloaded := true, resynced := true }
        match resync with
        | .ok _ => s.finish id resumed .success (recordSuccess settings.breaker s.breaker)
        | .error _ => s.finish id resumed .failure (recordFailure settings.breaker now s.breaker)
  | .reloadRaised id now =>
      ((s.live id .reloading).filter fun cycle => !cycle.reloaded).map fun cycle =>
        s.finish id cycle .failure (recordFailure settings.breaker now s.breaker)
  | .delivered id =>
      ((s.cycles[id]?).filter fun cycle => cycle.cancelledAt.isSome ∧ cycle.phase ≠ .ended).map
        fun cycle =>
          { s.put id { cycle with phase := .ended } with
            permits := if cycle.phase = .reloading then s.permits + 1 else s.permits }

/-- What the module promises of every cycle. -/
structure NeverAborted (settings : ResyncSettings) (s : State) : Prop where
  cancelled_sleeping :
    ∀ cycle ∈ s.cycles, ∀ phase, cycle.cancelledAt = some phase → phase = .sleeping
  outcome_of_admitted :
    ∀ cycle ∈ s.cycles, cycle.admitted = true →
      (cycle.phase = .reloading ∧ cycle.cancelledAt = none ∧ cycle.outcomes = []) ∨
        (cycle.phase = .ended ∧ cycle.outcomes.length = 1)
  resynced_of_reloaded :
    ∀ cycle ∈ s.cycles, cycle.reloaded = true → cycle.phase = .ended → cycle.resynced = true
  /-- A cycle that has no outcome yet gets one when its reload returns. -/
  outcome_of_return :
    ∀ (id : Nat) cycle, s.cycles[id]? = some cycle → cycle.phase = .reloading →
      ∀ resync now, ∃ s' cycle', step settings s (.reloadReturned id resync now) = some s' ∧
        s'.cycles[id]? = some cycle' ∧ cycle'.phase = .ended ∧ cycle'.resynced = true ∧
        cycle'.outcomes.length = 1

/-- A file event finds the task of the last one asleep or done. -/
def FindsSleeping (s : State) : Event → Prop
  | .fileEvent =>
      ∀ cycle ∈ s.debounceTask.bind fun id => s.cycles[id]?,
        cycle.phase = .sleeping ∨ cycle.phase = .ended
  | _ => True

instance decidableFindsSleeping (s : State) : (event : Event) → Decidable (FindsSleeping s event)
  | .fileEvent =>
      inferInstanceAs (Decidable (∀ cycle ∈ s.debounceTask.bind fun id => s.cycles[id]?, _))
  | .attach | .resyncNow | .expired _ | .acquired _ _ | .configReloaded _
  | .reloadReturned _ _ _ | .reloadRaised _ _ | .delivered _ => isTrue trivial

/-! ## What a step does to the tasks -/

section Steps

variable {settings : ResyncSettings} {s s' : State}

/-- The steps that a task takes by itself, and the delivery of its cancellation. -/
inductive CycleStep (cycle : Cycle) : Cycle → Prop
  | awake (phase : Phase)
      (hphase : cycle.phase = .sleeping) (hlive : cycle.cancelledAt = none)
      (hnext : phase = .queued ∨ phase = .ended) :
      CycleStep cycle { cycle with phase := phase }
  | refused (hphase : cycle.phase = .queued) (hlive : cycle.cancelledAt = none) :
      CycleStep cycle { cycle with phase := .ended }
  | admitted (hphase : cycle.phase = .queued) (hlive : cycle.cancelledAt = none) :
      CycleStep cycle { cycle with phase := .reloading, admitted := true }
  | reloaded (hphase : cycle.phase = .reloading) (hlive : cycle.cancelledAt = none) :
      CycleStep cycle { cycle with reloaded := true }
  | returned (outcome : Outcome)
      (hphase : cycle.phase = .reloading) (hlive : cycle.cancelledAt = none) :
      CycleStep cycle ({ cycle with reloaded := true, resynced := true }.record outcome)
  | raised (hphase : cycle.phase = .reloading) (hlive : cycle.cancelledAt = none)
      (hreloaded : cycle.reloaded = false) :
      CycleStep cycle (cycle.record .failure)
  | delivered (hcancelled : cycle.cancelledAt.isSome = true) (hphase : cycle.phase ≠ .ended) :
      CycleStep cycle { cycle with phase := .ended }

theorem live_eq_some_iff
    {id : Nat} {phase : Phase} {cycle : Cycle} :
    s.live id phase = some cycle ↔
      s.cycles[id]? = some cycle ∧ cycle.phase = phase ∧ cycle.cancelledAt = none := by
  rw [State.live, Option.filter_eq_some_iff, decide_eq_true_iff]

/-- The tasks after a step: the same, one more that asks for the semaphore, or one moved on. -/
theorem cycles_of_step
    {event : Event}
    (hevent : event ≠ .fileEvent)
    (hstep : step settings s event = some s') :
    s'.cycles = s.cycles ∨ s'.cycles = s.cycles ++ [.new .queued] ∨
      ∃ id cycle cycle', s.cycles[id]? = some cycle ∧ CycleStep cycle cycle' ∧
        s'.cycles = s.cycles.set id cycle' := by
  cases event with
  | fileEvent =>
      exact absurd rfl hevent
  | attach =>
      cases hstep
      exact .inl rfl
  | resyncNow =>
      simp only [step] at hstep
      split at hstep
      · cases hstep
        exact .inr (.inl rfl)
      · cases hstep
        exact .inl rfl
  | expired id =>
      obtain ⟨cycle, hlive, rfl⟩ := Option.map_eq_some_iff.mp hstep
      obtain ⟨hcycle, hphase, hnone⟩ := live_eq_some_iff.mp hlive
      refine .inr (.inr ⟨id, cycle, _, hcycle, .awake _ hphase hnone ?_, rfl⟩)
      split
      · exact .inl rfl
      · exact .inr rfl
  | acquired id now =>
      simp only [step] at hstep
      split at hstep
      · obtain ⟨cycle, hlive, hs'⟩ := Option.map_eq_some_iff.mp hstep
        obtain ⟨hcycle, hphase, hnone⟩ := live_eq_some_iff.mp hlive
        split at hs'
        · subst hs'
          exact .inr (.inr ⟨id, cycle, _, hcycle, .admitted hphase hnone, rfl⟩)
        · subst hs'
          exact .inr (.inr ⟨id, cycle, _, hcycle, .refused hphase hnone, rfl⟩)
      · cases hstep
  | configReloaded id =>
      obtain ⟨cycle, hlive, rfl⟩ := Option.map_eq_some_iff.mp hstep
      obtain ⟨hcycle, hphase, hnone⟩ := live_eq_some_iff.mp hlive
      exact .inr (.inr ⟨id, cycle, _, hcycle, .reloaded hphase hnone, rfl⟩)
  | reloadReturned id resync now =>
      obtain ⟨cycle, hlive, hs'⟩ := Option.map_eq_some_iff.mp hstep
      obtain ⟨hcycle, hphase, hnone⟩ := live_eq_some_iff.mp hlive
      cases resync with
      | ok value =>
          subst hs'
          exact .inr (.inr ⟨id, cycle, _, hcycle, .returned .success hphase hnone, rfl⟩)
      | error error =>
          subst hs'
          exact .inr (.inr ⟨id, cycle, _, hcycle, .returned .failure hphase hnone, rfl⟩)
  | reloadRaised id now =>
      obtain ⟨cycle, hfilter, rfl⟩ := Option.map_eq_some_iff.mp hstep
      obtain ⟨hlive, hreloaded⟩ := Option.filter_eq_some_iff.mp hfilter
      obtain ⟨hcycle, hphase, hnone⟩ := live_eq_some_iff.mp hlive
      exact .inr (.inr ⟨id, cycle, _, hcycle,
        .raised hphase hnone (by simpa using hreloaded), rfl⟩)
  | delivered id =>
      obtain ⟨cycle, hfilter, rfl⟩ := Option.map_eq_some_iff.mp hstep
      obtain ⟨hcycle, hcancelled⟩ := Option.filter_eq_some_iff.mp hfilter
      obtain ⟨hsome, hphase⟩ := decide_eq_true_iff.mp hcancelled
      exact .inr (.inr ⟨id, cycle, _, hcycle, .delivered hsome hphase, rfl⟩)

/-- A file event cancels the last task, if there is one, and adds a task that sleeps. -/
theorem cycles_of_fileEvent
    (hstep : step settings s .fileEvent = some s') :
    s'.cycles = s.cancelDebounce.cycles ++ [.new .sleeping] ∧
      (s.cancelDebounce.cycles = s.cycles ∨
        ∃ id cycle, s.debounceTask = some id ∧ s.cycles[id]? = some cycle ∧
          s.cancelDebounce.cycles = s.cycles.set id cycle.cancel) := by
  cases hstep
  refine ⟨rfl, ?_⟩
  unfold State.cancelDebounce
  split
  · exact .inl rfl
  · next id hid =>
      split
      · exact .inl rfl
      · next cycle hcycle => exact .inr ⟨id, cycle, hid, hcycle, rfl⟩

end Steps

/-! ## Runs that do not disturb a resync -/

section Runs

variable {settings : ResyncSettings} {s s' : State}

/-- The tasks of a run in which only sleeping tasks are cancelled. -/
inductive Sound : Cycle → Prop
  | sleeping (cancelledAt : Option Phase)
      (h : cancelledAt = none ∨ cancelledAt = some .sleeping) :
      Sound ⟨.sleeping, cancelledAt, false, [], false, false⟩
  | queued : Sound ⟨.queued, none, false, [], false, false⟩
  | reloading (reloaded : Bool) : Sound ⟨.reloading, none, true, [], reloaded, false⟩
  | notAdmitted (cancelledAt : Option Phase)
      (h : cancelledAt = none ∨ cancelledAt = some .sleeping) :
      Sound ⟨.ended, cancelledAt, false, [], false, false⟩
  | finished (outcome : Outcome) (reloaded resynced : Bool)
      (h : reloaded = true → resynced = true) :
      Sound ⟨.ended, none, true, [outcome], reloaded, resynced⟩

/-- A task that starts at its sleep or at the semaphore is sound. -/
theorem sound_new
    {phase : Phase}
    (h : phase = .sleeping ∨ phase = .queued) :
    Sound (.new phase) := by
  rcases h with rfl | rfl
  · exact .sleeping none (.inl rfl)
  · exact .queued

theorem sound_of_cycleStep
    {cycle cycle' : Cycle}
    (h : Sound cycle)
    (hstep : CycleStep cycle cycle') :
    Sound cycle' := by
  cases hstep with
  | awake phase hphase hlive hnext =>
      cases h with
      | sleeping cancelledAt _ =>
          cases hlive
          rcases hnext with rfl | rfl
          · exact .queued
          · exact .notAdmitted none (.inl rfl)
      | queued | reloading | notAdmitted | finished => cases hphase
  | refused hphase hlive =>
      cases h with
      | queued => exact .notAdmitted none (.inl rfl)
      | sleeping | reloading | notAdmitted | finished => cases hphase
  | admitted hphase hlive =>
      cases h with
      | queued => exact .reloading false
      | sleeping | reloading | notAdmitted | finished => cases hphase
  | reloaded hphase hlive =>
      cases h with
      | reloading => exact .reloading true
      | sleeping | queued | notAdmitted | finished => cases hphase
  | returned outcome hphase hlive =>
      cases h with
      | reloading => exact .finished outcome true true (fun _ => rfl)
      | sleeping | queued | notAdmitted | finished => cases hphase
  | raised hphase hlive hreloaded =>
      cases h with
      | reloading reloaded =>
          cases hreloaded
          exact .finished .failure false false (fun h => h)
      | sleeping | queued | notAdmitted | finished => cases hphase
  | delivered hcancelled hphase =>
      cases h with
      | sleeping cancelledAt h => exact .notAdmitted cancelledAt h
      | queued | reloading => cases hcancelled
      | notAdmitted | finished => exact absurd rfl hphase

/-- A task that is asleep or done stays sound when it is cancelled. -/
theorem sound_cancel
    {cycle : Cycle}
    (h : Sound cycle)
    (hphase : cycle.phase = .sleeping ∨ cycle.phase = .ended) :
    Sound cycle.cancel := by
  cases h with
  | sleeping cancelledAt h =>
      refine .sleeping _ (.inr ?_)
      rcases h with rfl | rfl <;> rfl
  | queued | reloading =>
      rcases hphase with hphase | hphase <;> cases hphase
  | notAdmitted cancelledAt h => exact .notAdmitted cancelledAt h
  | finished outcome reloaded resynced h => exact .finished outcome reloaded resynced h

/-- What holds of the tasks holds after one of them is replaced by another it holds of. -/
theorem forall_mem_set
    {P : Cycle → Prop} {cycles : List Cycle} {id : Nat} {cycle : Cycle}
    (h : ∀ c ∈ cycles, P c)
    (hcycle : P cycle) :
    ∀ c ∈ cycles.set id cycle, P c := by
  intro c hc
  rcases List.mem_or_eq_of_mem_set hc with hc | rfl
  · exact h c hc
  · exact hcycle

theorem forall_mem_append_singleton
    {P : Cycle → Prop} {cycles : List Cycle} {cycle : Cycle}
    (h : ∀ c ∈ cycles, P c)
    (hcycle : P cycle) :
    ∀ c ∈ cycles ++ [cycle], P c := by
  intro c hc
  rcases List.mem_append.mp hc with hc | hc
  · exact h c hc
  · obtain rfl := List.mem_singleton.mp hc
    exact hcycle

theorem sound_of_step
    {event : Event}
    (h : ∀ cycle ∈ s.cycles, Sound cycle)
    (hfinds : FindsSleeping s event)
    (hstep : step settings s event = some s') :
    ∀ cycle ∈ s'.cycles, Sound cycle := by
  by_cases hevent : event = .fileEvent
  · subst hevent
    obtain ⟨hcycles, hcancel⟩ := cycles_of_fileEvent hstep
    rw [hcycles]
    refine forall_mem_append_singleton ?_ (sound_new (.inl rfl))
    rcases hcancel with hsame | ⟨id, cycle, hid, hcycle, hset⟩
    · rw [hsame]
      exact h
    · rw [hset]
      have hsound := h cycle (List.mem_of_getElem? hcycle)
      have hfound : cycle ∈ s.debounceTask.bind fun id => s.cycles[id]? :=
        Option.bind_eq_some_iff.mpr ⟨id, hid, hcycle⟩
      exact forall_mem_set h (sound_cancel hsound (hfinds cycle hfound))
  · rcases cycles_of_step hevent hstep with hsame | hnew | ⟨id, cycle, cycle', hcycle, hmove, hset⟩
    · rw [hsame]
      exact h
    · rw [hnew]
      exact forall_mem_append_singleton h (sound_new (.inr rfl))
    · rw [hset]
      exact forall_mem_set h (sound_of_cycleStep (h cycle (List.mem_of_getElem? hcycle)) hmove)

/-- A reload that returns gives its cycle an outcome. -/
theorem step_reloadReturned
    {id : Nat} {cycle : Cycle}
    (hcycle : s.cycles[id]? = some cycle)
    (hphase : cycle.phase = .reloading)
    (hlive : cycle.cancelledAt = none)
    (resync : Except String Unit)
    (now : ℚ) :
    ∃ s' outcome, step settings s (.reloadReturned id resync now) = some s' ∧
      s'.cycles[id]? =
        some ({ cycle with reloaded := true, resynced := true }.record outcome) := by
  have hlive' := live_eq_some_iff.mpr ⟨hcycle, hphase, hlive⟩
  have hlt : id < s.cycles.length := (List.getElem?_eq_some_iff.mp hcycle).1
  cases resync with
  | ok value =>
      refine ⟨_, .success, by rw [step, hlive']; rfl, ?_⟩
      exact List.getElem?_set_self hlt
  | error error =>
      refine ⟨_, .failure, by rw [step, hlive']; rfl, ?_⟩
      exact List.getElem?_set_self hlt

theorem neverAborted_of_sound
    (h : ∀ cycle ∈ s.cycles, Sound cycle) :
    NeverAborted settings s where
  cancelled_sleeping cycle hcycle phase hphase := by
    cases h cycle hcycle with
    | queued | reloading | finished => cases hphase
    | sleeping cancelledAt h | notAdmitted cancelledAt h =>
        rcases h with rfl | rfl
        · cases hphase
        · cases hphase
          rfl
  outcome_of_admitted cycle hcycle hadmitted := by
    cases h cycle hcycle with
    | reloading => exact .inl ⟨rfl, rfl, rfl⟩
    | finished => exact .inr ⟨rfl, rfl⟩
    | sleeping | queued | notAdmitted => cases hadmitted
  resynced_of_reloaded cycle hcycle hreloaded hphase := by
    cases h cycle hcycle with
    | finished outcome reloaded resynced h => exact h hreloaded
    | sleeping | queued | reloading => cases hphase
    | notAdmitted => cases hreloaded
  outcome_of_return id cycle hcycle hphase resync now := by
    have hsound := h cycle (List.mem_of_getElem? hcycle)
    cases hsound with
    | reloading reloaded =>
        obtain ⟨s', outcome, hstep, hcycle'⟩ : ∃ s' outcome,
            step settings s (.reloadReturned id resync now) = some s' ∧ _ :=
          step_reloadReturned hcycle rfl rfl resync now
        exact ⟨s', _, hstep, hcycle', rfl, rfl, rfl⟩
    | sleeping | queued | notAdmitted | finished => cases hphase

/-- A file event that finds the last task at the semaphore or in its reload cancels it there. -/
theorem not_neverAborted_of_fileEvent
    {event : Event}
    (h : ∀ cycle ∈ s.cycles, Sound cycle)
    (hfinds : ¬ FindsSleeping s event)
    (hstep : step settings s event = some s') :
    ¬ NeverAborted settings s' := by
  intro hnever
  cases event with
  | fileEvent =>
      simp only [FindsSleeping, not_forall] at hfinds
      obtain ⟨cycle, hfound, hphase⟩ := hfinds
      obtain ⟨id, hid, hcycle⟩ := Option.bind_eq_some_iff.mp hfound
      have hcancel : s.cancelDebounce.cycles = s.cycles.set id cycle.cancel := by
        simp only [State.cancelDebounce, hid, hcycle, State.put]
      have hlt : id < s.cycles.length := (List.getElem?_eq_some_iff.mp hcycle).1
      have hmem : cycle.cancel ∈ s'.cycles := by
        rw [(cycles_of_fileEvent hstep).1, hcancel]
        exact List.mem_append_left _ (List.mem_set hlt _)
      cases h cycle (List.mem_of_getElem? hcycle) with
      | queued => cases hnever.cancelled_sleeping _ hmem .queued rfl
      | reloading => cases hnever.cancelled_sleeping _ hmem .reloading rfl
      | sleeping => exact hphase (.inl rfl)
      | notAdmitted | finished => exact hphase (.inr rfl)
  | attach | resyncNow | expired | acquired | configReloaded | reloadReturned | reloadRaised
    | delivered => exact hfinds trivial

/--
A run keeps its promises about every resync exactly when each of its file events finds the
last task asleep or done.
-/
theorem neverAborted_throughout_iff
    (settings : ResyncSettings)
    {events : List Event}
    (hrun : run (step settings) (initial settings) events = some s) :
    Throughout (step settings) (NeverAborted settings) (initial settings) events ↔
      Along (step settings) FindsSleeping (initial settings) events :=
  throughout_iff_along (fun _ => neverAborted_of_sound)
    (fun _ _ _ h hfinds hstep => sound_of_step h hfinds hstep)
    (fun _ _ _ h hfinds hstep => not_neverAborted_of_fileEvent h hfinds hstep)
    (fun _ hcycle => absurd hcycle List.not_mem_nil) hrun

end Runs

/-- Two quick saves, and the resync of the second. -/
def twoSaves : List Event :=
  [.attach, .fileEvent, .fileEvent, .delivered 0, .expired 1, .acquired 1 0,
    .reloadReturned 1 (.ok ()) 0]

theorem neverAborted_throughout_twoSaves :
    Throughout (step {}) (NeverAborted {}) (initial {}) twoSaves := by
  obtain ⟨s, hs⟩ : ∃ s, run (step {}) (initial {}) twoSaves = some s := ⟨_, rfl⟩
  exact (neverAborted_throughout_iff {} hs).mpr (by decide)

/-- A save while the resync of the one before waits in `config.reload()`. -/
def saveDuringReload (reload : List Event) : List Event :=
  [.attach, .fileEvent, .expired 0, .acquired 0 0] ++ reload ++ [.fileEvent, .delivered 0]

/--
The first resync was admitted and records nothing; if the reload had done its work by then,
the `AgentOS` stays as it was.
-/
theorem not_neverAborted_saveDuringReload :
    (∃ s, run (step {}) (initial {}) (saveDuringReload []) = some s ∧
      s.cycles[0]? = some
        { phase := .ended, cancelledAt := some .reloading, admitted := true, outcomes := [],
          reloaded := false, resynced := false } ∧
      ¬ NeverAborted {} s) ∧
    ∃ s, run (step {}) (initial {}) (saveDuringReload [.configReloaded 0]) = some s ∧
      s.cycles[0]? = some
        { phase := .ended, cancelledAt := some .reloading, admitted := true, outcomes := [],
          reloaded := true, resynced := false } ∧
      ¬ NeverAborted {} s := by
  refine ⟨⟨_, rfl, rfl, fun hnever => ?_⟩, ⟨_, rfl, rfl, fun hnever => ?_⟩⟩
  · cases hnever.cancelled_sleeping _ List.mem_cons_self .reloading rfl
  · cases hnever.cancelled_sleeping _ List.mem_cons_self .reloading rfl

end ResyncManager
end YamlAgno

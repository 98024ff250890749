import YamlAgno.Config.HotReload
import YamlAgno.Library.TaskPool

/-!
# Reload loops that overlap

`HotReloadCoordinator` follows one task and takes `stop()` for one step.  In the source
`stop()` forgets the task, cancels it and awaits its end, and while it waits others may call
`start()` and `stop()` again: there can be any number of tasks that have not ended yet.

Here each `start()` adds a task and `stop()` has a call and a return, with any events between
them.  `run_of_interleaved` says that this makes no difference: every such run is a run of the
coordinator with one task, with each `stop()` taken at its call.  At most one task still goes
on with its loop, that of `_task` (`one_loop`), and a `stop()` returns what it returns in that
run, after one step of the task it awaits (`stopCalled_returns`).
-/

namespace YamlAgno
namespace ReloadLoops

open Runs TaskPool HotReloadCoordinator

variable {Env X V Y σ : Type} (modelValidate : Env → PyDict → Except V σ)
  (isCancelledError : ReloadError X V Y → Bool)

/-- Where a task of `_run` is. -/
inductive Stage (E : Type) where
  | suspended (point : AwaitPoint)
  | ended (error : E)
  | cancelled

/-- A task that `start()` has created, and whether it has been told to end. -/
structure Loop (E : Type) where
  stage : Stage E
  cancelling : Bool

/-- `task.cancel()`: a task that has ended takes no notice. -/
def Loop.cancel {E : Type} (loop : Loop E) : Loop E :=
  match loop.stage with
  | .suspended _ => { loop with cancelling := true }
  | .ended _ | .cancelled => loop

/-- How `await task` ends under `contextlib.suppress(asyncio.CancelledError)`. -/
def Loop.awaited (loop : Loop (ReloadError X V Y)) : Option (Except (ReloadError X V Y) Unit) :=
  match loop.stage with
  | .suspended _ => none
  | .ended error => some (if isCancelledError error then .ok () else .error error)
  | .cancelled => some (.ok ())

/-- The coordinator, its tasks in the order of their starts, and the calls of `stop()` that
await one; `started` is whether `start()` was called after the last `stop()`. -/
structure State (σ E : Type) where
  config : ConfigAdapter σ
  loops : List (Loop E)
  task : Option ℕ
  stops : List ℕ
  started : Bool

/-- The task is replaced. -/
def State.put {E : Type} (s : State σ E) (id : ℕ) (loop : Loop E) : State σ E :=
  { s with loops := s.loops.set id loop }

/-- `HotReloadCoordinator(config, flags)`. -/
def initial (config : ConfigAdapter σ) : State σ (ReloadError X V Y) :=
  ⟨config, [], none, [], false⟩

/-- What happens; `delivered` is when the `CancelledError` reaches the await of a task. -/
inductive Event (Env X Y : Type) where
  | start
  | stopCalled
  | delivered (id : ℕ)
  | stopReturned (id : ℕ)
  | intervalElapsed (id : ℕ)
  | configReloaded (id : ℕ) (call : CoreCall Env X)
  | flagsRefreshed (id : ℕ) (refresh : Except Y Unit)

/-- One event; `none` where the task is not at the await that the event is about. -/
def step
    (s : State σ (ReloadError X V Y)) :
    Event Env X Y → Option (State σ (ReloadError X V Y))
  | .start =>
      match s.task with
      | some _ => some { s with started := true }
      | none =>
          some { s with
            loops := s.loops ++ [⟨.suspended .sleep, false⟩]
            task := some s.loops.length
            started := true }
  | .stopCalled =>
      match s.task with
      | none => some { s with started := false }
      | some id =>
          (s.loops[id]?).map fun loop =>
            { s.put id loop.cancel with task := none, stops := id :: s.stops, started := false }
  | .delivered id =>
      match s.loops[id]? with
      | some ⟨.suspended _, true⟩ => some (s.put id ⟨.cancelled, true⟩)
      | _ => none
  | .stopReturned id =>
      if id ∈ s.stops ∧ ((s.loops[id]?).bind (Loop.awaited isCancelledError)).isSome then
        some { s with stops := s.stops.erase id }
      else none
  | .intervalElapsed id =>
      match s.loops[id]? with
      | some ⟨.suspended .sleep, false⟩ => some (s.put id ⟨.suspended .configReload, false⟩)
      | _ => none
  | .configReloaded id call =>
      match s.loops[id]? with
      | some ⟨.suspended .configReload, false⟩ =>
          match s.config.reload modelValidate call with
          | (.error error, config) =>
              some { s.put id ⟨.ended (.config error), false⟩ with config }
          | (.ok _, config) => some { s.put id ⟨.suspended .flagsRefresh, false⟩ with config }
      | _ => none
  | .flagsRefreshed id refresh =>
      match s.loops[id]? with
      | some ⟨.suspended .flagsRefresh, false⟩ =>
          match refresh with
          | .error error => some (s.put id ⟨.ended (.flags error), false⟩)
          | .ok _ => some (s.put id ⟨.suspended .sleep, false⟩)
      | _ => none

/-! ## The coordinator with one task -/

/-- A task that has not been told to end. -/
def Loop.of {E : Type} : LoopTask E → Loop E
  | .suspended point => ⟨.suspended point, false⟩
  | .ended error => ⟨.ended error, false⟩

/-- The same task, as the coordinator with one task has it. -/
def Loop.task {E : Type} (loop : Loop E) : Option (LoopTask E) :=
  match loop.stage with
  | .suspended point => some (.suspended point)
  | .ended error => some (.ended error)
  | .cancelled => none

@[simp] theorem Loop.task_of {E : Type} (task : LoopTask E) :
    (Loop.of task).task = some task := by
  cases task <;> rfl

/-- What the coordinator with one task sees. -/
def State.session {E : Type} (s : State σ E) : Session σ E :=
  ⟨⟨s.config, s.task.bind fun id => (s.loops[id]?).bind Loop.task⟩, s.started⟩

/-- The event of the coordinator with one task, whose `stop()` is taken at its call. -/
def Event.oneTask : Event Env X Y → Option (HotReloadCoordinator.Event Env X Y)
  | .start => some .start
  | .stopCalled => some .stop
  | .delivered _ | .stopReturned _ => none
  | .intervalElapsed _ => some .intervalElapsed
  | .configReloaded _ call => some (.configReloaded call)
  | .flagsRefreshed _ refresh => some (.flagsRefreshed refresh)

/-- The task goes on with its loop when its await comes back. -/
def Loop.GoesOn {E : Type} (loop : Loop E) : Prop :=
  loop.cancelling = false ∧ ∃ point, loop.stage = .suspended point

/-- `_task` has not been told to end, and all other tasks have been, or have ended. -/
structure Sound {E : Type} (s : State σ E) : Prop where
  current : ∀ id, s.task = some id → ∃ task, s.loops[id]? = some (Loop.of task)
  others : ∀ id loop, s.loops[id]? = some loop → loop.GoesOn → s.task = some id
  stops_known : ∀ id ∈ s.stops, id < s.loops.length ∧ s.task ≠ some id

/-- The task whose await comes back, in an event of the loop. -/
def Event.loop : Event Env X Y → Option ℕ
  | .start | .stopCalled | .delivered _ | .stopReturned _ => none
  | .intervalElapsed id | .configReloaded id _ | .flagsRefreshed id _ => some id

section Steps

variable {modelValidate isCancelledError} {E : Type}
  {s s' : State σ (ReloadError X V Y)} {event : Event Env X Y} {id : ℕ}

/-- An event of the loop takes a task that goes on, and takes it where the coordinator with
one task takes it. -/
theorem moved_of_step
    (hloop : event.loop = some id)
    (hstep : step modelValidate isCancelledError s event = some s') :
    ∃ point task config own,
      s.loops[id]? = some (Loop.of (.suspended point)) ∧
      s' = { s.put id (Loop.of task) with config } ∧
      event.oneTask = some own ∧
      ∀ started, HotReloadCoordinator.step modelValidate isCancelledError
        ⟨⟨s.config, some (.suspended point)⟩, started⟩ own =
          some ⟨⟨config, some task⟩, started⟩ := by
  cases event with
  | start | stopCalled | delivered id | stopReturned id =>
      cases hloop
  | intervalElapsed id =>
      cases hloop
      simp only [step] at hstep
      split at hstep
      · cases hstep
        exact ⟨.sleep, .suspended .configReload, s.config, .intervalElapsed, ‹_›, rfl, rfl,
          fun _ => rfl⟩
      · cases hstep
  | configReloaded id call =>
      cases hloop
      simp only [step] at hstep
      split at hstep
      · split at hstep
        · next error config hreload =>
            cases hstep
            refine ⟨.configReload, .ended (.config error), config, .configReloaded call, ‹_›,
              rfl, rfl, fun started => ?_⟩
            simp [HotReloadCoordinator.step, configReloaded, hreload]
        · next config hreload =>
            cases hstep
            refine ⟨.configReload, .suspended .flagsRefresh, config, .configReloaded call, ‹_›,
              rfl, rfl, fun started => ?_⟩
            simp [HotReloadCoordinator.step, configReloaded, hreload]
      · cases hstep
  | flagsRefreshed id refresh =>
      cases hloop
      simp only [step] at hstep
      split at hstep
      · split at hstep
        · next error =>
            cases hstep
            exact ⟨.flagsRefresh, .ended (.flags error), s.config, .flagsRefreshed (.error error),
              ‹_›, rfl, rfl, fun _ => rfl⟩
        · next value =>
            cases hstep
            exact ⟨.flagsRefresh, .suspended .sleep, s.config, .flagsRefreshed (.ok value),
              ‹_›, rfl, rfl, fun _ => rfl⟩
      · cases hstep

theorem Loop.not_goesOn_cancel
    (task : LoopTask E) :
    ¬ (Loop.of task).cancel.GoesOn := by
  rintro ⟨hcancelling, point, hstage⟩
  cases task with
  | suspended point => cases hcancelling
  | ended error => cases hstage

theorem sound_initial (config : ConfigAdapter σ) :
    Sound (initial config : State σ (ReloadError X V Y)) where
  current _ h := by cases h
  others _ _ h := by cases h
  stops_known _ h := by cases h

/-- A task is replaced by one that goes on only if it is that of `_task`. -/
theorem Sound.put
    (h : Sound s)
    {loop loop' : Loop (ReloadError X V Y)}
    (hid : s.loops[id]? = some loop)
    (hcurrent : s.task = some id → ∃ task, loop' = Loop.of task)
    (hother : loop'.GoesOn → s.task = some id) :
    Sound (s.put id loop') := by
  have hlt : id < s.loops.length := (List.getElem?_eq_some_iff.mp hid).1
  refine ⟨fun i hi => ?_, fun i other hi hgoes => ?_, fun i hi => ?_⟩
  · by_cases hsame : id = i
    · subst hsame
      obtain ⟨task, rfl⟩ := hcurrent hi
      exact ⟨task, List.getElem?_set_self hlt⟩
    · obtain ⟨task, htask⟩ := h.current i hi
      exact ⟨task, (List.getElem?_set_ne hsame).trans htask⟩
  · by_cases hsame : id = i
    · subst hsame
      rw [show (s.put id loop').loops[id]? = some loop' from List.getElem?_set_self hlt] at hi
      cases hi
      exact hother hgoes
    · exact h.others i other ((List.getElem?_set_ne hsame).symm.trans hi) hgoes
  · obtain ⟨hknown, hne⟩ := h.stops_known i hi
    exact ⟨hknown.trans_eq List.length_set.symm, hne⟩

theorem sound_of_step
    (h : Sound s)
    (hstep : step modelValidate isCancelledError s event = some s') :
    Sound s' := by
  cases hloop : event.loop with
  | some id =>
      obtain ⟨point, task, config, own, hid, rfl, -, -⟩ := moved_of_step hloop hstep
      have hcurrent : s.task = some id := h.others id _ hid ⟨rfl, point, rfl⟩
      have hput : Sound (s.put id (Loop.of task)) :=
        h.put hid (fun _ => ⟨task, rfl⟩) fun _ => hcurrent
      exact ⟨hput.current, hput.others, hput.stops_known⟩
  | none =>
      cases event with
      | intervalElapsed id | configReloaded id call | flagsRefreshed id refresh =>
          cases hloop
      | start =>
          simp only [step] at hstep
          split at hstep
          · cases hstep
            exact ⟨h.current, h.others, h.stops_known⟩
          · next hnone =>
              cases hstep
              refine ⟨fun i hi => ?_, fun i other hi hgoes => ?_, fun i hi => ?_⟩
              · obtain rfl : s.loops.length = i := Option.some.inj hi
                exact ⟨.suspended .sleep, by simp [Loop.of]⟩
              · rcases getElem?_append_singleton hi with hold | ⟨rfl, -⟩
                · have hcurrent := h.others i other hold hgoes
                  rw [hnone] at hcurrent
                  cases hcurrent
                · rfl
              · obtain ⟨hknown, -⟩ := h.stops_known i hi
                refine ⟨?_, fun heq => ?_⟩
                · rw [List.length_append]
                  omega
                · have := Option.some.inj heq
                  omega
      | stopCalled =>
          simp only [step] at hstep
          split at hstep
          · next hnone =>
              cases hstep
              exact ⟨h.current, h.others, h.stops_known⟩
          · next id hcurrent =>
              obtain ⟨loop, hid, rfl⟩ := Option.map_eq_some_iff.mp hstep
              obtain ⟨task, htask⟩ := h.current id hcurrent
              cases hid.symm.trans htask
              have hlt : id < s.loops.length := (List.getElem?_eq_some_iff.mp hid).1
              refine ⟨fun i hi => (by cases hi), fun i other hi hgoes => ?_, fun i hi => ?_⟩
              · by_cases hsame : id = i
                · subst hsame
                  have hself : (s.loops.set id (Loop.of task).cancel)[id]? =
                      some (Loop.of task).cancel := List.getElem?_set_self hlt
                  cases hself.symm.trans hi
                  exact absurd hgoes (Loop.not_goesOn_cancel task)
                · have hold := h.others i other ((List.getElem?_set_ne hsame).symm.trans hi) hgoes
                  exact absurd (Option.some.inj (hcurrent.symm.trans hold)) hsame
              · refine ⟨?_, by simp⟩
                rcases List.mem_cons.mp hi with rfl | hi
                · exact hlt.trans_eq List.length_set.symm
                · exact (h.stops_known i hi).1.trans_eq List.length_set.symm
      | delivered id =>
          simp only [step] at hstep
          split at hstep
          · next point hid =>
              cases hstep
              refine h.put hid (fun hcurrent => ?_) fun hgoes => by cases hgoes.1
              obtain ⟨task, htask⟩ := h.current id hcurrent
              cases task <;> cases hid.symm.trans htask
          · cases hstep
      | stopReturned id =>
          simp only [step] at hstep
          split at hstep
          · cases hstep
            exact ⟨h.current, h.others, fun i hi => h.stops_known i (List.mem_of_mem_erase hi)⟩
          · cases hstep

/-- What the coordinator with one task sees of a task that is not that of `_task`. -/
theorem session_put_of_ne
    (hne : s.task ≠ some id)
    (loop : Loop (ReloadError X V Y)) :
    (s.put id loop).session = s.session := by
  unfold State.session State.put
  cases htask : s.task with
  | none => rfl
  | some current =>
      have hne' : id ≠ current := fun heq => hne (heq ▸ htask)
      simp [List.getElem?_set_ne hne']

theorem session_of_current
    (hcurrent : s.task = some id)
    {task : LoopTask (ReloadError X V Y)}
    (hid : s.loops[id]? = some (Loop.of task)) :
    s.session = ⟨⟨s.config, some task⟩, s.started⟩ := by
  simp [State.session, hcurrent, hid]

/-- A step is a step of the coordinator with one task, or one that it does not see. -/
theorem session_of_step
    (h : Sound s)
    (hstep : step modelValidate isCancelledError s event = some s') :
    run (HotReloadCoordinator.step modelValidate isCancelledError) s.session
      event.oneTask.toList = some s'.session := by
  cases hloop : event.loop with
  | some id =>
      obtain ⟨point, task, config, own, hid, rfl, hown, hone⟩ := moved_of_step hloop hstep
      have hcurrent : s.task = some id := h.others id _ hid ⟨rfl, point, rfl⟩
      have hlt : id < s.loops.length := (List.getElem?_eq_some_iff.mp hid).1
      rw [session_of_current hcurrent hid, hown]
      refine (run_cons_eq_some _).mpr ⟨_, hone s.started, ?_⟩
      exact congrArg some (session_of_current (s := { s.put id (Loop.of task) with config })
        hcurrent (List.getElem?_set_self hlt)).symm
  | none =>
      cases event with
      | intervalElapsed id | configReloaded id call | flagsRefreshed id refresh =>
          cases hloop
      | start =>
          simp only [step] at hstep
          split at hstep
          · next id hcurrent =>
              cases hstep
              obtain ⟨task, htask⟩ := h.current id hcurrent
              rw [session_of_current hcurrent htask,
                session_of_current (s := { s with started := true }) hcurrent htask]
              rfl
          · next hnone =>
              cases hstep
              simp [State.session, hnone, Event.oneTask, run, HotReloadCoordinator.step,
                HotReloadCoordinator.start, Loop.task]
      | stopCalled =>
          simp only [step] at hstep
          split at hstep
          · next hnone =>
              cases hstep
              simp [State.session, hnone, Event.oneTask, run, HotReloadCoordinator.step,
                HotReloadCoordinator.stop]
          · next id hcurrent =>
              obtain ⟨loop, hid, rfl⟩ := Option.map_eq_some_iff.mp hstep
              obtain ⟨task, htask⟩ := h.current id hcurrent
              rw [session_of_current hcurrent htask]
              cases task <;> rfl
      | delivered id =>
          simp only [step] at hstep
          split at hstep
          · next point hid =>
              cases hstep
              refine congrArg some (session_put_of_ne (fun hcurrent => ?_) _).symm
              obtain ⟨task, htask⟩ := h.current id hcurrent
              cases task <;> cases hid.symm.trans htask
          · cases hstep
      | stopReturned id =>
          simp only [step] at hstep
          split at hstep
          · cases hstep
            rfl
          · cases hstep

/-! ## After the call of `stop()` -/

/-- While `_task` is not set and nobody calls `start()`, the configuration stays. -/
theorem stopped_of_step
    (h : Sound s)
    (hnone : s.task = none)
    (hevent : event ≠ .start)
    (hstep : step modelValidate isCancelledError s event = some s') :
    s'.task = none ∧ s'.config = s.config := by
  cases hloop : event.loop with
  | some id =>
      obtain ⟨point, -, -, -, hid, -⟩ := moved_of_step hloop hstep
      have hcurrent := h.others id _ hid ⟨rfl, point, rfl⟩
      rw [hnone] at hcurrent
      cases hcurrent
  | none =>
      cases event with
      | intervalElapsed id | configReloaded id call | flagsRefreshed id refresh =>
          cases hloop
      | start =>
          exact absurd rfl hevent
      | stopCalled =>
          simp only [step, hnone] at hstep
          cases hstep
          exact ⟨rfl, rfl⟩
      | delivered id =>
          simp only [step] at hstep
          split at hstep
          · cases hstep
            exact ⟨hnone, rfl⟩
          · cases hstep
      | stopReturned id =>
          simp only [step] at hstep
          split at hstep
          · cases hstep
            exact ⟨hnone, rfl⟩
          · cases hstep

/-- What a task can be from the call of `stop()` on, given what it was. -/
inductive Left {E : Type} : LoopTask E → Loop E → Prop
  | told (point : AwaitPoint) : Left (.suspended point) ⟨.suspended point, true⟩
  | delivered (point : AwaitPoint) : Left (.suspended point) ⟨.cancelled, true⟩
  | ended (error : E) : Left (.ended error) ⟨.ended error, false⟩

theorem left_cancel
    (task : LoopTask E) :
    Left task (Loop.of task).cancel := by
  cases task with
  | suspended point => exact .told point
  | ended error => exact .ended error

/-- A task that `stop()` awaits takes the one step that is left to it, or none. -/
theorem left_of_step
    (h : Sound s)
    {task : LoopTask (ReloadError X V Y)}
    (hne : s.task ≠ some id)
    (hid : ∃ loop, s.loops[id]? = some loop ∧ Left task loop)
    (hstep : step modelValidate isCancelledError s event = some s') :
    s'.task ≠ some id ∧ ∃ loop, s'.loops[id]? = some loop ∧ Left task loop := by
  obtain ⟨loop, hid, hleft⟩ := hid
  have hlt : id < s.loops.length := (List.getElem?_eq_some_iff.mp hid).1
  cases hloop : event.loop with
  | some other =>
      obtain ⟨point, task', config, -, hother, rfl, -⟩ := moved_of_step hloop hstep
      have hcurrent : s.task = some other := h.others other _ hother ⟨rfl, point, rfl⟩
      have hdiff : other ≠ id := fun heq => hne (heq ▸ hcurrent)
      exact ⟨hne, loop, (List.getElem?_set_ne hdiff).trans hid, hleft⟩
  | none =>
      cases event with
      | intervalElapsed other | configReloaded other call | flagsRefreshed other refresh =>
          cases hloop
      | start =>
          simp only [step] at hstep
          split at hstep
          · cases hstep
            exact ⟨hne, loop, hid, hleft⟩
          · cases hstep
            refine ⟨fun heq => ?_, loop, (List.getElem?_append_left hlt).trans hid, hleft⟩
            have := Option.some.inj heq
            omega
      | stopCalled =>
          simp only [step] at hstep
          split at hstep
          · cases hstep
            exact ⟨hne, loop, hid, hleft⟩
          · next other hcurrent =>
              obtain ⟨loop', -, rfl⟩ := Option.map_eq_some_iff.mp hstep
              have hdiff : other ≠ id := fun heq => hne (heq ▸ hcurrent)
              exact ⟨by simp, loop, (List.getElem?_set_ne hdiff).trans hid, hleft⟩
      | delivered other =>
          simp only [step] at hstep
          split at hstep
          · next point hother =>
              cases hstep
              refine ⟨hne, ?_⟩
              by_cases hsame : other = id
              · subst hsame
                cases hother.symm.trans hid
                cases hleft
                exact ⟨_, List.getElem?_set_self hlt, .delivered point⟩
              · exact ⟨loop, (List.getElem?_set_ne hsame).trans hid, hleft⟩
          · cases hstep
      | stopReturned other =>
          simp only [step] at hstep
          split at hstep
          · cases hstep
            exact ⟨hne, loop, hid, hleft⟩
          · cases hstep

/-- A call of `stop()` waits until it returns. -/
theorem mem_stops_of_step
    (hid : id ∈ s.stops)
    (hevent : event ≠ .stopReturned id)
    (hstep : step modelValidate isCancelledError s event = some s') :
    id ∈ s'.stops := by
  cases hloop : event.loop with
  | some other =>
      obtain ⟨-, -, -, -, -, rfl, -⟩ := moved_of_step hloop hstep
      exact hid
  | none =>
      cases event with
      | intervalElapsed other | configReloaded other call | flagsRefreshed other refresh =>
          cases hloop
      | start =>
          simp only [step] at hstep
          split at hstep <;> cases hstep <;> exact hid
      | stopCalled =>
          simp only [step] at hstep
          split at hstep
          · cases hstep
            exact hid
          · obtain ⟨loop', -, rfl⟩ := Option.map_eq_some_iff.mp hstep
            exact List.mem_cons_of_mem _ hid
      | delivered other =>
          simp only [step] at hstep
          split at hstep <;> cases hstep
          exact hid
      | stopReturned other =>
          simp only [step] at hstep
          split at hstep
          · cases hstep
            have hdiff : id ≠ other := fun heq => hevent (heq ▸ rfl)
            exact (List.mem_erase_of_ne hdiff).mpr hid
          · cases hstep

end Steps

section Runs

variable {modelValidate isCancelledError}
  {config : ConfigAdapter σ} {s : State σ (ReloadError X V Y)}
  {events : List (Event Env X Y)}

theorem sound_of_run
    (hrun : run (step modelValidate isCancelledError) (initial config) events = some s) :
    Sound s :=
  run_invariant (fun _ _ _ h hstep => sound_of_step h hstep) (sound_initial config) hrun

/--
However the calls of `start()` and `stop()` and the tasks are interleaved, what the coordinator
does is a run of the coordinator with one task, whose `stop()` is over at its call: the same
configuration and the same `_task`.
-/
theorem run_of_interleaved
    (hrun : run (step modelValidate isCancelledError) (initial config) events = some s) :
    run (HotReloadCoordinator.step modelValidate isCancelledError) (fresh config)
      (events.filterMap Event.oneTask) = some s.session :=
  run_projection State.session Event.oneTask (fun _ _ _ h hstep => sound_of_step h hstep)
    (fun _ _ _ h hstep => session_of_step h hstep) (sound_initial config) hrun

/--
At most one task goes on with its loop, that of `_task`.  Once `stop()` has been called, until
someone calls `start()` again, the tasks that have not ended yet leave the configuration alone.
-/
theorem one_loop
    (hrun : run (step modelValidate isCancelledError) (initial config) events = some s) :
    (∀ id loop, s.loops[id]? = some loop → loop.GoesOn → s.task = some id) ∧
      ∀ {later : List (Event Env X Y)} {t},
        s.task = none → (∀ event ∈ later, event ≠ .start) →
          run (step modelValidate isCancelledError) s later = some t →
            t.task = none ∧ t.config = s.config := by
  have hsound := sound_of_run hrun
  refine ⟨hsound.others, fun {later t} hnone hno hlater => ?_⟩
  have hkept := run_invariant_along (P := fun _ event => event ≠ .start)
    (I := fun u => Sound u ∧ u.task = none ∧ u.config = s.config)
    (fun u _ _ ⟨hu, hnone, hsame⟩ hevent hstep => by
      obtain ⟨hnone', hconfig⟩ := stopped_of_step hu hnone hevent hstep
      exact ⟨sound_of_step hu hstep, hnone', hconfig.trans hsame⟩)
    ⟨hsound, hnone, rfl⟩ (along_of_forall_mem (fun event hevent _ => hno event hevent) s) hlater
  exact hkept.2

/-- A task that is left has one step to its end, and then the result is that of `stop()`. -/
theorem awaited_of_left
    {task : LoopTask (ReloadError X V Y)}
    {loop : Loop (ReloadError X V Y)}
    (hleft : Left task loop)
    {result : Except (ReloadError X V Y) Unit}
    (hresult : loop.awaited isCancelledError = some result)
    (config : ConfigAdapter σ) :
    result = (HotReloadCoordinator.stop isCancelledError ⟨config, some task⟩).1 := by
  cases hleft with
  | told point => cases hresult
  | delivered point | ended error => exact (Option.some.inj hresult).symm

/--
A call of `stop()` that finds a task can return after one more step at most, of that task, no
matter what others have done since; and when it returns it returns what the `stop()` of the
coordinator with one task returns at its call.
-/
theorem stopCalled_returns
    {id : ℕ} {t : State σ (ReloadError X V Y)} {later : List (Event Env X Y)}
    (hrun : run (step modelValidate isCancelledError) (initial config) events = some s)
    (hcurrent : s.task = some id)
    (hlater : run (step modelValidate isCancelledError) s (.stopCalled :: later) = some t)
    (hwaits : ∀ event ∈ later, event ≠ .stopReturned id) :
    (∃ actions u, actions.length ≤ 1 ∧
        run (step modelValidate isCancelledError) t actions = some u ∧
        (step modelValidate isCancelledError u (.stopReturned id)).isSome = true) ∧
      ∀ result, (t.loops[id]?).bind (Loop.awaited isCancelledError) = some result →
        result = (s.session.coordinator.stop isCancelledError).1 := by
  have hsound := sound_of_run hrun
  obtain ⟨task, htask⟩ := hsound.current id hcurrent
  have hlt : id < s.loops.length := (List.getElem?_eq_some_iff.mp htask).1
  obtain ⟨called, hcalled, hrest⟩ := (run_cons_eq_some _).mp hlater
  have hcalled' : called = { s.put id (Loop.of task).cancel with
      task := none, stops := id :: s.stops, started := false } := by
    simpa [step, hcurrent, htask, eq_comm] using hcalled
  have hstart : id ∈ called.stops ∧ called.task ≠ some id ∧
      ∃ loop, called.loops[id]? = some loop ∧ Left task loop := by
    subst hcalled'
    exact ⟨List.mem_cons_self, by simp, _, List.getElem?_set_self hlt, left_cancel task⟩
  -- The call keeps waiting, and its task keeps what is left to it.
  have hkept := run_invariant_along (P := fun _ event => event ≠ .stopReturned id)
    (I := fun u => Sound u ∧ id ∈ u.stops ∧ u.task ≠ some id ∧
      ∃ loop, u.loops[id]? = some loop ∧ Left task loop)
    (fun u _ _ ⟨hu, hstops, hne, hid⟩ hevent hstep =>
      ⟨sound_of_step hu hstep, mem_stops_of_step hstops hevent hstep,
        left_of_step hu hne hid hstep⟩)
    ⟨sound_of_step hsound hcalled, hstart⟩
    (along_of_forall_mem (fun event hevent _ => hwaits event hevent) called) hrest
  obtain ⟨-, hstops, -, loop, hid, hleft⟩ := hkept
  have hlt' : id < t.loops.length := (List.getElem?_eq_some_iff.mp hid).1
  constructor
  · cases hleft with
    | told point =>
        refine ⟨[.delivered id], t.put id ⟨.cancelled, true⟩, Nat.le_refl 1, ?_, ?_⟩
        · simp [run, step, hid]
        · have hself : (t.put id ⟨.cancelled, true⟩).loops[id]? = some ⟨.cancelled, true⟩ :=
            List.getElem?_set_self hlt'
          have hmem : id ∈ (t.put id ⟨.cancelled, true⟩).stops := hstops
          simp [step, hself, hmem, Loop.awaited]
    | delivered point | ended error =>
        exact ⟨[], t, Nat.zero_le 1, rfl, by simp [step, hid, hstops, Loop.awaited]⟩
  · intro result hresult
    rw [hid, Option.bind_some] at hresult
    rw [session_of_current hcurrent htask]
    exact awaited_of_left hleft hresult s.config

end Runs

/-- While `stop()` waits for a task in `config.reload()`, `start()` is called again. -/
def restarted : List (Event Unit String Unit) :=
  [.start, .intervalElapsed 0, .stopCalled, .start, .intervalElapsed 1, .delivered 0,
    .configReloaded 1 (saved []), .stopReturned 0]

theorem run_of_interleaved_restarted :
    ∃ s, run (step ConfigAdapter.plainValidate fun _ => false) (initial devConfig) restarted =
        some s ∧
      run (HotReloadCoordinator.step ConfigAdapter.plainValidate fun _ => false) (fresh devConfig)
        (restarted.filterMap Event.oneTask) = some s.session := by
  obtain ⟨s, hs⟩ : ∃ s, run (step ConfigAdapter.plainValidate fun _ => false)
      (initial devConfig) restarted = some s := ⟨_, rfl⟩
  exact ⟨s, hs, run_of_interleaved hs⟩

/-- The task that `stop()` waits for leaves `config.reload()` without a new configuration. -/
theorem one_loop_restarted :
    ∃ s t, run (step ConfigAdapter.plainValidate fun _ => false) (initial devConfig)
        (restarted.take 3) = some s ∧
      (∀ id loop, s.loops[id]? = some loop → loop.GoesOn → s.task = some id) ∧
      run (step ConfigAdapter.plainValidate fun _ => false) s [.delivered 0, .stopReturned 0] =
        some t ∧
      t.task = none ∧ t.config = s.config := by
  obtain ⟨s, hs, hnone, t, ht⟩ : ∃ s, run (step ConfigAdapter.plainValidate fun _ => false)
      (initial devConfig) (restarted.take 3) = some s ∧ s.task = none ∧
        ∃ t, run (step ConfigAdapter.plainValidate fun _ => false) s
          [.delivered 0, .stopReturned 0] = some t := ⟨_, rfl, rfl, _, rfl⟩
  exact ⟨s, t, hs, (one_loop hs).1, ht, (one_loop hs).2 hnone (by simp) ht⟩

/-- The first `stop()` returns although the second task is in `config.reload()`. -/
theorem stopCalled_returns_restarted :
    ∃ s t, run (step ConfigAdapter.plainValidate fun _ => false) (initial devConfig)
        (restarted.take 2) = some s ∧
      run (step ConfigAdapter.plainValidate fun _ => false) s
        (.stopCalled :: [.start, .intervalElapsed 1]) = some t ∧
      ∃ actions u, actions.length ≤ 1 ∧
        run (step ConfigAdapter.plainValidate fun _ => false) t actions = some u ∧
        (step ConfigAdapter.plainValidate (fun _ => false) u (.stopReturned 0)).isSome = true := by
  obtain ⟨s, hs, hcurrent, t, ht⟩ : ∃ s, run (step ConfigAdapter.plainValidate fun _ => false)
      (initial devConfig) (restarted.take 2) = some s ∧ s.task = some 0 ∧
        ∃ t, run (step ConfigAdapter.plainValidate fun _ => false) s
          (.stopCalled :: [.start, .intervalElapsed 1]) = some t := ⟨_, rfl, rfl, _, rfl⟩
  exact ⟨s, t, hs, ht, (stopCalled_returns hs hcurrent ht (by simp)).1⟩

end ReloadLoops
end YamlAgno

import YamlAgno.Library.TaskPool

/-!
# Works that run in parallel

`StepExecutor.execute_parallel_step` of `workflows/step_executor.py`: an `asyncio.TaskGroup`
with a task for each work, and one list to which each task appends its result.  The tasks are
all created before one of them runs, and a run takes them on one `await` after the other, in
any order.

The group is told about the end of a task by a callback (`noticed`), some time after it.  The
first error that it is told of makes it cancel what is left, as does the cancellation of the
caller (`interrupted`).  To cancel a task is to ask for it: one that has not started ends
without calling its work, one that has may still end in any way.  A work that raises
`CancelledError` by itself is no error to the group.

Works raise instances of `Exception` here; `KeyboardInterrupt` and `SystemExit`, which a group
does not collect, are left out.
-/

namespace YamlAgno
namespace ParallelStep

open Runs TaskPool

/-- Where a task is. -/
inductive Stage (E α : Type) where
  | created
  | running
  | returned (value : α)
  | raised (error : E)
  | cancelled
deriving DecidableEq

/-- The task of one work. -/
structure Task (E α : Type) where
  stage : Stage E α
  /-- `task.cancel()` has been called. -/
  cancelling : Bool
  /-- The work has been called. -/
  called : Bool
  /-- The group has been told that the task is done. -/
  noticed : Bool
deriving DecidableEq

/-- A task that has just been created. -/
def Task.new {E α : Type} : Task E α where
  stage := .created
  cancelling := false
  called := false
  noticed := false

/-- How `execute_parallel_step` ends: results, an `ExceptionGroup`, or `CancelledError`. -/
inductive Outcome (E α : Type) where
  | returned (results : List α)
  | raised (errors : List E)
  | cancelled
deriving DecidableEq

/-- The group and the list of results. -/
structure Group (E α : Type) where
  tasks : List (Task E α)
  results : List α
  errors : List E
  aborting : Bool
  /-- The caller has been cancelled before anything else went wrong. -/
  interrupted : Bool
  outcome : Option (Outcome E α)
deriving DecidableEq

/-- How the awaited work ends. -/
inductive Ends (E α : Type) where
  | value (value : α)
  | error (error : E)
  | cancelled

/-- What happens; a step of a task names the task. -/
inductive Action (E α : Type) where
  /-- The task runs for the first time. -/
  | started (id : ℕ)
  | ended (id : ℕ) (ends : Ends E α)
  | noticed (id : ℕ)
  /-- The caller gets a `CancelledError` while it waits for the tasks. -/
  | interrupted
  /-- The caller leaves the group. -/
  | left

variable {E α : Type}

/-- `task.done()`. -/
def Task.done (task : Task E α) : Bool :=
  match task.stage with
  | .created | .running => false
  | .returned _ | .raised _ | .cancelled => true

/-- `task.cancel()`, which does nothing to a task that is done. -/
def Task.cancel (task : Task E α) : Task E α :=
  if task.done = true then task else { task with cancelling := true }

/-- The first step of a task: it calls its work, unless it has been cancelled. -/
def Task.start (task : Task E α) : Task E α :=
  if task.cancelling = true then { task with stage := .cancelled }
  else { task with stage := .running, called := true }

/-- The end of a task. -/
def Task.finish (task : Task E α) : Ends E α → Task E α
  | .value value => { task with stage := .returned value }
  | .error error => { task with stage := .raised error }
  | .cancelled => { task with stage := .cancelled }

namespace Group

/-- Puts a task in its place. -/
def put (s : Group E α) (id : ℕ) (task : Task E α) : Group E α :=
  { s with tasks := s.tasks.set id task }

/-- `_abort`. -/
def abort (s : Group E α) : Group E α :=
  { s with aborting := true, tasks := s.tasks.map Task.cancel }

/-- `_on_task_done`, after the task has been marked. -/
def onTaskDone (s : Group E α) (task : Task E α) : Group E α :=
  match task.stage with
  | .raised error =>
      if s.aborting = true then { s with errors := s.errors ++ [error] }
      else { s with errors := s.errors ++ [error] }.abort
  | _ => s

/-- How the caller leaves the group once all tasks are done. -/
def leave (s : Group E α) : Outcome E α :=
  if s.errors ≠ [] then .raised s.errors
  else if s.interrupted = true then .cancelled
  else .returned s.results

end Group

/-- `results.append(result)`, where there is a result. -/
def Ends.results : Ends E α → List α
  | .value v => [v]
  | .error _ | .cancelled => []

/-- The group with a task for each of `n` works. -/
def initial (n : ℕ) : Group E α where
  tasks := List.replicate n .new
  results := []
  errors := []
  aborting := false
  interrupted := false
  outcome := none

/-- One action; `none` where it cannot happen. -/
def step (s : Group E α) : Action E α → Option (Group E α)
  | .started id =>
      ((s.tasks[id]?).filter fun task => task.stage matches .created).map fun task =>
        s.put id task.start
  | .ended id ends =>
      ((s.tasks[id]?).filter fun task => task.stage matches .running).map fun task =>
        { s.put id (task.finish ends) with results := s.results ++ ends.results }
  | .noticed id =>
      ((s.tasks[id]?).filter fun task => task.done && !task.noticed).map fun task =>
        (s.put id { task with noticed := true }).onTaskDone task
  | .interrupted =>
      -- Without a task the caller does not wait.
      if s.outcome = none ∧ s.aborting = false ∧ s.tasks ≠ [] then
        some { s.abort with interrupted := true }
      else none
  | .left =>
      if s.outcome = none ∧ ∀ task ∈ s.tasks, task.noticed = true then
        some { s with outcome := some s.leave }
      else none

/-! ## What holds in every run -/

section Tasks

/-- The result of a work. -/
def Task.value (task : Task E α) : Option α :=
  match task.stage with
  | .returned v => some v
  | .created | .running | .raised _ | .cancelled => none

/-- The error of a work. -/
def Task.error (task : Task E α) : Option E :=
  match task.stage with
  | .raised e => some e
  | .created | .running | .returned _ | .cancelled => none

/-- The error of a work that the group has been told of. -/
def Task.noticedError (task : Task E α) : Option E :=
  if task.noticed = true then task.error else none

/-- What the fields of a task say of each other. -/
structure Consistent (task : Task E α) : Prop where
  created_iff : task.stage = .created → task.called = false
  called_of_value : task.stage = .running ∨ task.value ≠ none ∨ task.error ≠ none →
    task.called = true
  cancelling_of_uncalled : task.stage = .cancelled → task.called = false → task.cancelling = true
  done_of_noticed : task.noticed = true → task.done = true

@[simp] theorem Task.cancel_stage (task : Task E α) :
    task.cancel.stage = task.stage := by
  unfold Task.cancel
  split <;> rfl

@[simp] theorem Task.cancel_called (task : Task E α) :
    task.cancel.called = task.called := by
  unfold Task.cancel
  split <;> rfl

@[simp] theorem Task.cancel_noticed (task : Task E α) :
    task.cancel.noticed = task.noticed := by
  unfold Task.cancel
  split <;> rfl

theorem Task.cancelling_cancel
    {task : Task E α}
    (h : task.done = false) :
    task.cancel.cancelling = true := by
  simp [Task.cancel, h]

theorem Task.cancelling_cancel_of
    {task : Task E α}
    (h : task.cancelling = true) :
    task.cancel.cancelling = true := by
  unfold Task.cancel
  split
  · exact h
  · rfl

theorem Consistent.cancel
    {task : Task E α}
    (h : Consistent task) :
    Consistent task.cancel where
  created_iff := by simpa using h.created_iff
  called_of_value := by simpa [Task.value, Task.error] using h.called_of_value
  cancelling_of_uncalled hstage hcalled := by
    refine Task.cancelling_cancel_of (h.cancelling_of_uncalled ?_ ?_)
    · simpa using hstage
    · simpa using hcalled
  done_of_noticed := by simpa [Task.done] using h.done_of_noticed

theorem filterMap_cancel
    {V : Type}
    {f : Task E α → Option V}
    (hf : ∀ task : Task E α, f task.cancel = f task)
    (tasks : List (Task E α)) :
    (tasks.map Task.cancel).filterMap f = tasks.filterMap f := by
  rw [List.filterMap_map]
  exact congrArg (tasks.filterMap ·) (funext hf)

theorem Task.value_cancel (task : Task E α) :
    task.cancel.value = task.value := by
  simp [Task.value]

theorem Task.noticedError_cancel (task : Task E α) :
    task.cancel.noticedError = task.noticedError := by
  simp [Task.noticedError, Task.error]

end Tasks

/-- What holds of the group of `n` works. -/
structure Sound (n : ℕ) (s : Group E α) : Prop where
  length_eq : s.tasks.length = n
  results_perm : s.results.Perm (s.tasks.filterMap Task.value)
  errors_perm : s.errors.Perm (s.tasks.filterMap Task.noticedError)
  aborting_iff : s.aborting = true ↔ s.errors ≠ [] ∨ s.interrupted = true
  asked : s.aborting = true → ∀ task ∈ s.tasks, task.done = false → task.cancelling = true
  unasked : s.aborting = false → ∀ task ∈ s.tasks, task.cancelling = false
  consistent : ∀ task ∈ s.tasks, Consistent task
  left : ∀ outcome, s.outcome = some outcome →
    outcome = s.leave ∧ ∀ task ∈ s.tasks, task.noticed = true

section Steps

variable {n : ℕ} {s s' : Group E α}

theorem sound_initial (n : ℕ) :
    Sound n (initial n : Group E α) where
  length_eq := List.length_replicate
  results_perm := by simp [initial, List.filterMap_replicate, Task.value, Task.new]
  errors_perm := by simp [initial, Task.noticedError, Task.new]
  aborting_iff := by simp [initial]
  asked h := by cases h
  unasked _ task htask := by
    obtain ⟨-, rfl⟩ := List.mem_replicate.mp htask
    rfl
  consistent task htask := by
    obtain ⟨-, rfl⟩ := List.mem_replicate.mp htask
    exact ⟨fun _ => rfl, by simp [Task.new, Task.value, Task.error], by simp [Task.new],
      by simp [Task.new]⟩
  left outcome h := by cases h

/-- A group that has been left has only tasks that are done. -/
theorem Sound.outcome_eq_none
    (h : Sound n s)
    {task : Task E α}
    (htask : task ∈ s.tasks)
    (hnoticed : task.noticed = false) :
    s.outcome = none := by
  cases houtcome : s.outcome with
  | none => rfl
  | some outcome =>
      rw [(h.left outcome houtcome).2 task htask] at hnoticed
      cases hnoticed

theorem Consistent.noticed_eq_false
    {task : Task E α}
    (h : Consistent task)
    (hdone : task.done = false) :
    task.noticed = false := by
  cases hnoticed : task.noticed with
  | false => rfl
  | true => exact absurd (h.done_of_noticed hnoticed) (by simp [hdone])

/-- What the steps of a task keep, whatever else they do. -/
theorem Sound.put
    (h : Sound n s)
    {id : ℕ} {task task' : Task E α}
    (htask : s.tasks[id]? = some task)
    (hnoticed : task.noticed = false)
    (hcancelling : task'.cancelling = task.cancelling)
    (hdone : task'.done = false → task.done = false)
    (hconsistent : Consistent task')
    (hvalue : task.value = none)
    (herror : task'.noticedError = none) :
    Sound n { s.put id task' with results := s.results ++ task'.value.toList } where
  length_eq := List.length_set.trans h.length_eq
  results_perm :=
    (h.results_perm.append_right _).trans (filterMap_set_perm htask hvalue).symm
  errors_perm := by
    have hold : task.noticedError = none := by simp [Task.noticedError, hnoticed]
    exact h.errors_perm.trans
      (List.Perm.of_eq (filterMap_set_of_eq htask (herror.trans hold.symm)).symm)
  aborting_iff := h.aborting_iff
  asked haborting := forall_mem_set (h.asked haborting) fun hopen =>
    hcancelling.trans (h.asked haborting task (List.mem_of_getElem? htask) (hdone hopen))
  unasked haborting := forall_mem_set (h.unasked haborting)
    (hcancelling.trans (h.unasked haborting task (List.mem_of_getElem? htask)))
  consistent := forall_mem_set h.consistent hconsistent
  left outcome houtcome := by
    have hnone := h.outcome_eq_none (List.mem_of_getElem? htask) hnoticed
    rw [show s.outcome = some outcome from houtcome] at hnone
    cases hnone

theorem sound_started
    (h : Sound n s)
    {id : ℕ}
    (hstep : step s (.started id) = some s') :
    Sound n s' := by
  obtain ⟨task, hfilter, rfl⟩ := Option.map_eq_some_iff.mp hstep
  obtain ⟨htask, hcreated⟩ := Option.filter_eq_some_iff.mp hfilter
  have hstage : task.stage = .created := by
    cases hs : task.stage <;> simp_all
  have hconsistent := h.consistent task (List.mem_of_getElem? htask)
  have hopen : task.done = false := by simp [Task.done, hstage]
  have hnoticed := hconsistent.noticed_eq_false hopen
  have hnew : task.start.value = none ∧ task.start.error = none ∧
      task.start.noticed = false ∧ task.start.cancelling = task.cancelling ∧
      Consistent task.start := by
    unfold Task.start
    split
    · next hcancelling =>
        refine ⟨rfl, rfl, hnoticed, rfl, ?_⟩
        exact ⟨by simp, by simp [Task.value, Task.error], fun _ _ => hcancelling, by simp [Task.done]⟩
    · refine ⟨rfl, rfl, hnoticed, rfl, ?_⟩
      exact ⟨by simp, by simp, by simp, by simp [hnoticed]⟩
  obtain ⟨hvalue, herror, hnoticed', hcancelling, hconsistent'⟩ := hnew
  have hput := h.put htask hnoticed hcancelling (fun _ => hopen) hconsistent'
    (by simp [Task.value, hstage]) (by simp [Task.noticedError, hnoticed'])
  rw [hvalue, Option.toList_none, List.append_nil] at hput
  exact hput

theorem sound_ended
    (h : Sound n s)
    {id : ℕ} {ends : Ends E α}
    (hstep : step s (.ended id ends) = some s') :
    Sound n s' := by
  obtain ⟨task, hfilter, rfl⟩ := Option.map_eq_some_iff.mp hstep
  obtain ⟨htask, hrunning⟩ := Option.filter_eq_some_iff.mp hfilter
  have hstage : task.stage = .running := by
    cases hs : task.stage <;> simp_all
  have hconsistent := h.consistent task (List.mem_of_getElem? htask)
  have hopen : task.done = false := by simp [Task.done, hstage]
  have hnoticed := hconsistent.noticed_eq_false hopen
  have hcalled := hconsistent.called_of_value (.inl hstage)
  have hnew : ends.results = (task.finish ends).value.toList ∧
      (task.finish ends).noticed = false ∧ (task.finish ends).cancelling = task.cancelling ∧
      Consistent (task.finish ends) := by
    cases ends with
    | value v =>
        exact ⟨rfl, hnoticed, rfl,
          ⟨by simp [Task.finish], fun _ => hcalled, by simp [Task.finish], by simp [Task.finish, Task.done]⟩⟩
    | error e =>
        exact ⟨rfl, hnoticed, rfl,
          ⟨by simp [Task.finish], fun _ => hcalled, by simp [Task.finish], by simp [Task.finish, Task.done]⟩⟩
    | cancelled =>
        exact ⟨rfl, hnoticed, rfl,
          ⟨by simp [Task.finish], fun _ => hcalled, by simp [Task.finish, hcalled],
            by simp [Task.finish, Task.done]⟩⟩
  obtain ⟨hresults, hnoticed', hcancelling, hconsistent'⟩ := hnew
  have hput := h.put htask hnoticed hcancelling (fun _ => hopen) hconsistent'
    (by simp [Task.value, hstage]) (by simp [Task.noticedError, hnoticed'])
  rw [← hresults] at hput
  exact hput

/-- The group asks all tasks that are left to end, for a reason. -/
theorem sound_abort
    (hlength : s.tasks.length = n)
    (hresults : s.results.Perm (s.tasks.filterMap Task.value))
    (herrors : s.errors.Perm (s.tasks.filterMap Task.noticedError))
    (hconsistent : ∀ task ∈ s.tasks, Consistent task)
    (hopen : s.outcome = none)
    (hreason : s.errors ≠ [] ∨ s.interrupted = true) :
    Sound n s.abort where
  length_eq := List.length_map _ |>.trans hlength
  results_perm := by
    rw [Group.abort, filterMap_cancel Task.value_cancel]
    exact hresults
  errors_perm := by
    rw [Group.abort, filterMap_cancel Task.noticedError_cancel]
    exact herrors
  aborting_iff := iff_of_true rfl hreason
  asked _ task htask hdone := by
    obtain ⟨old, -, rfl⟩ := List.mem_map.mp htask
    exact Task.cancelling_cancel (by simpa [Task.done] using hdone)
  unasked h := by cases h
  consistent task htask := by
    obtain ⟨old, hold, rfl⟩ := List.mem_map.mp htask
    exact (hconsistent old hold).cancel
  left outcome houtcome := by
    rw [show s.outcome = some outcome from houtcome] at hopen
    cases hopen

/-- What the callback does: it takes an error, and the first one aborts the group. -/
theorem onTaskDone_cases
    (s : Group E α)
    (task : Task E α) :
    (s.onTaskDone task = { s with errors := s.errors ++ task.error.toList } ∧
        (task.error = none ∨ s.aborting = true)) ∨
      (task.error ≠ none ∧ s.aborting = false ∧
        s.onTaskDone task = { s with errors := s.errors ++ task.error.toList }.abort) := by
  unfold Group.onTaskDone Task.error
  cases task.stage with
  | created | running | returned | cancelled =>
      exact .inl ⟨by simp, .inl rfl⟩
  | raised error =>
      by_cases haborting : s.aborting = true
      · exact .inl ⟨by simp [haborting], .inr haborting⟩
      · exact .inr ⟨by simp, by simpa using haborting, by simp [haborting]⟩

theorem sound_noticed
    (h : Sound n s)
    {id : ℕ}
    (hstep : step s (.noticed id) = some s') :
    Sound n s' := by
  obtain ⟨task, hfilter, rfl⟩ := Option.map_eq_some_iff.mp hstep
  obtain ⟨htask, hready⟩ := Option.filter_eq_some_iff.mp hfilter
  obtain ⟨hdone, hunnoticed⟩ := Bool.and_eq_true_iff.mp hready
  have hnoticed : task.noticed = false := by simpa using hunnoticed
  have hmem := List.mem_of_getElem? htask
  have hconsistent := h.consistent task hmem
  have hnone := h.outcome_eq_none hmem hnoticed
  have hlength : (s.tasks.set id { task with noticed := true }).length = n :=
    List.length_set.trans h.length_eq
  have hresults : s.results.Perm
      ((s.tasks.set id { task with noticed := true }).filterMap Task.value) :=
    h.results_perm.trans (List.Perm.of_eq (filterMap_set_of_eq htask (by rfl)).symm)
  have herrors : (s.errors ++ task.error.toList).Perm
      ((s.tasks.set id { task with noticed := true }).filterMap Task.noticedError) := by
    have hnew : ({ task with noticed := true } : Task E α).noticedError = task.error := rfl
    have hold : task.noticedError = none := by simp [Task.noticedError, hnoticed]
    have hset : ((s.tasks.set id { task with noticed := true }).filterMap
        Task.noticedError).Perm (s.tasks.filterMap Task.noticedError ++ task.error.toList) :=
      hnew ▸ filterMap_set_perm htask hold
    exact (h.errors_perm.append_right _).trans hset.symm
  have hconsistent' : ∀ task' ∈ s.tasks.set id { task with noticed := true }, Consistent task' :=
    forall_mem_set h.consistent ⟨hconsistent.created_iff, hconsistent.called_of_value,
      hconsistent.cancelling_of_uncalled, fun _ => hdone⟩
  rcases onTaskDone_cases (s.put id { task with noticed := true }) task with
    ⟨heq, hwhy⟩ | ⟨herror, -, heq⟩
  · rw [heq]
    refine ⟨hlength, hresults, herrors, ?_, fun haborting => ?_, fun haborting => ?_,
      hconsistent', fun outcome houtcome => ?_⟩
    · rcases hwhy with hwhy | hwhy
      · simpa [Group.put, hwhy] using h.aborting_iff
      · refine iff_of_true hwhy ?_
        rcases h.aborting_iff.mp hwhy with hold | hold
        · exact .inl (by simp [Group.put, hold])
        · exact .inr hold
    · refine forall_mem_set (h.asked haborting) fun hopen => ?_
      rw [show task.done = false from hopen] at hdone
      cases hdone
    · exact forall_mem_set (h.unasked haborting) (h.unasked haborting task hmem)
    · rw [show s.outcome = some outcome from houtcome] at hnone
      cases hnone
  · rw [heq]
    refine sound_abort hlength hresults herrors hconsistent' hnone (.inl ?_)
    cases he : task.error with
    | none => exact absurd he herror
    | some e => simp

theorem sound_of_step
    {action : Action E α}
    (h : Sound n s)
    (hstep : step s action = some s') :
    Sound n s' := by
  cases action with
  | started id => exact sound_started h hstep
  | ended id ends => exact sound_ended h hstep
  | noticed id => exact sound_noticed h hstep
  | interrupted =>
      simp only [step] at hstep
      split at hstep
      · next hwaits =>
          cases hstep
          exact sound_abort (s := { s with interrupted := true }) h.length_eq h.results_perm
            h.errors_perm h.consistent hwaits.1 (.inr rfl)
      · cases hstep
  | left =>
      simp only [step] at hstep
      split at hstep
      · next hall =>
          cases hstep
          refine ⟨h.length_eq, h.results_perm, h.errors_perm, h.aborting_iff, h.asked, h.unasked,
            h.consistent, fun outcome houtcome => ⟨?_, hall.2⟩⟩
          cases houtcome
          rfl
      · cases hstep

theorem sound_of_run
    {actions : List (Action E α)}
    (hrun : run step (initial n) actions = some s) :
    Sound n s :=
  run_invariant (fun _ _ _ h hstep => sound_of_step h hstep) (sound_initial n) hrun

end Steps

/-! ## How a group ends -/

section Outcomes

variable {n : ℕ} {s s' : Group E α}

/-- The result that an action appends to the list. -/
def Action.result : Action E α → Option α
  | .ended _ (.value v) => some v
  | .ended _ (.error _) | .ended _ .cancelled | .started _ | .noticed _ | .interrupted
  | .left => none

/-- A list that only grows at its end. -/
def appended (results : List α) (v : α) : Option (List α) :=
  some (results ++ [v])

theorem run_appended
    (results vs : List α) :
    run appended results vs = some (results ++ vs) := by
  induction vs generalizing results with
  | nil => simp
  | cons v vs ih =>
      rw [run_cons]
      simpa [appended] using ih (results ++ [v])

theorem onTaskDone_results
    (s : Group E α)
    (task : Task E α) :
    (s.onTaskDone task).results = s.results := by
  rcases onTaskDone_cases s task with ⟨h, -⟩ | ⟨-, -, h⟩
  · rw [h]
  · rw [h]
    rfl

/-- The results are in the order in which the works have ended. -/
theorem results_of_run
    {actions : List (Action E α)}
    (hrun : run step (initial n) actions = some s) :
    s.results = actions.filterMap Action.result := by
  have hlist : run appended (initial n : Group E α).results (actions.filterMap Action.result) =
      some s.results := by
    refine run_projection (I := fun _ => True) Group.results Action.result
      (fun _ _ _ _ _ => trivial) (fun s action s' _ hstep => ?_) trivial hrun
    rw [run_appended]
    refine congrArg some ?_
    cases action with
    | started id =>
        obtain ⟨task, -, rfl⟩ := Option.map_eq_some_iff.mp hstep
        exact List.append_nil _
    | ended id ends =>
        obtain ⟨task, -, rfl⟩ := Option.map_eq_some_iff.mp hstep
        cases ends <;> rfl
    | noticed id =>
        obtain ⟨task, -, rfl⟩ := Option.map_eq_some_iff.mp hstep
        rw [onTaskDone_results]
        exact List.append_nil _
    | interrupted =>
        simp only [step] at hstep
        split at hstep
        · cases hstep
          exact List.append_nil _
        · cases hstep
    | left =>
        simp only [step] at hstep
        split at hstep
        · cases hstep
          exact List.append_nil _
        · cases hstep
  rw [run_appended] at hlist
  exact (Option.some.inj hlist).symm

/-- What is promised of each way to end. -/
def Delivers (s : Group E α) (actions : List (Action E α)) : Outcome E α → Prop
  | .returned results =>
      results = actions.filterMap Action.result ∧
        results.Perm (s.tasks.filterMap Task.value) ∧
        ∀ task ∈ s.tasks, task.value ≠ none ∨
          (task.stage = .cancelled ∧ task.called = true ∧ task.cancelling = false)
  | .raised errors => errors ≠ [] ∧ errors.Perm (s.tasks.filterMap Task.error)
  | .cancelled => s.interrupted = true ∧ ∀ task ∈ s.tasks, task.error = none

/-- Once the group has been told of all its tasks it knows all errors. -/
theorem filterMap_noticedError
    {tasks : List (Task E α)}
    (h : ∀ task ∈ tasks, task.noticed = true) :
    tasks.filterMap Task.noticedError = tasks.filterMap Task.error :=
  List.filterMap_congr fun task htask => by simp [Task.noticedError, h task htask]

/--
However the tasks are interleaved, when the call ends none of them is left.  It returns the
results in the order in which the works ended, one for each work but those that raised
`CancelledError` by themselves; or it raises the errors of all works that failed; or it has
been cancelled, and no work has failed.
-/
theorem delivers_of_run
    {n : ℕ}
    {actions : List (Action E α)}
    (hrun : run step (initial n) actions = some s)
    {outcome : Outcome E α}
    (houtcome : s.outcome = some outcome) :
    s.tasks.length = n ∧ (∀ task ∈ s.tasks, task.done = true) ∧ Delivers s actions outcome := by
  have hsound := sound_of_run hrun
  obtain ⟨rfl, hnoticed⟩ := hsound.left outcome houtcome
  have hdone : ∀ task ∈ s.tasks, task.done = true := fun task htask =>
    (hsound.consistent task htask).done_of_noticed (hnoticed task htask)
  have herrors := hsound.errors_perm
  rw [filterMap_noticedError hnoticed] at herrors
  refine ⟨hsound.length_eq, hdone, ?_⟩
  unfold Group.leave
  split
  · next hfailed => exact ⟨hfailed, herrors⟩
  · next hnone =>
      have hempty : s.errors = [] := by simpa using hnone
      rw [hempty] at herrors
      have hno : ∀ task ∈ s.tasks, task.error = none :=
        List.filterMap_eq_nil_iff.mp herrors.symm.eq_nil
      split
      · next hinterrupted => exact ⟨hinterrupted, hno⟩
      · next hinterrupted =>
          have haborting : s.aborting = false := by
            rw [← Bool.not_eq_true, hsound.aborting_iff]
            simp [hempty, hinterrupted]
          refine ⟨results_of_run hrun, hsound.results_perm, fun task htask => ?_⟩
          have hcancelling := hsound.unasked haborting task htask
          cases hstage : task.stage with
          | created | running =>
              have := hdone task htask
              simp [Task.done, hstage] at this
          | returned v => exact .inl (by simp [Task.value, hstage])
          | raised e =>
              have := hno task htask
              simp [Task.error, hstage] at this
          | cancelled =>
              refine .inr ⟨rfl, ?_, hcancelling⟩
              by_contra hcalled
              have := (hsound.consistent task htask).cancelling_of_uncalled hstage
                (by simpa using hcalled)
              rw [hcancelling] at this
              cases this

/-! ## After the first failure -/

theorem onTaskDone_called
    (s : Group E α)
    (task : Task E α) :
    (s.onTaskDone task).tasks.map Task.called = s.tasks.map Task.called := by
  rcases onTaskDone_cases s task with ⟨h, -⟩ | ⟨-, -, h⟩
  · rw [h]
  · rw [h]
    simp [Group.abort]

theorem called_of_step
    {action : Action E α}
    (h : Sound n s)
    (haborting : s.aborting = true)
    (hstep : step s action = some s') :
    s'.aborting = true ∧ s'.tasks.map Task.called = s.tasks.map Task.called := by
  cases action with
  | started id =>
      obtain ⟨task, hfilter, rfl⟩ := Option.map_eq_some_iff.mp hstep
      obtain ⟨htask, hcreated⟩ := Option.filter_eq_some_iff.mp hfilter
      have hstage : task.stage = .created := by
        cases hs : task.stage <;> simp_all
      have hasked := h.asked haborting task (List.mem_of_getElem? htask)
        (by simp [Task.done, hstage])
      exact ⟨haborting, map_set_of_eq htask (by simp [Task.start, hasked])⟩
  | ended id ends =>
      obtain ⟨task, hfilter, rfl⟩ := Option.map_eq_some_iff.mp hstep
      obtain ⟨htask, -⟩ := Option.filter_eq_some_iff.mp hfilter
      exact ⟨haborting, map_set_of_eq htask (by cases ends <;> rfl)⟩
  | noticed id =>
      obtain ⟨task, hfilter, rfl⟩ := Option.map_eq_some_iff.mp hstep
      obtain ⟨htask, -⟩ := Option.filter_eq_some_iff.mp hfilter
      rw [onTaskDone_called]
      refine ⟨?_, map_set_of_eq htask (by rfl)⟩
      rcases onTaskDone_cases (s.put id { task with noticed := true }) task with
        ⟨heq, -⟩ | ⟨-, -, heq⟩
      · rw [heq]
        exact haborting
      · rw [heq]
        rfl
  | interrupted =>
      simp only [step] at hstep
      split at hstep
      · next hwaits =>
          rw [hwaits.2.1] at haborting
          cases haborting
      · cases hstep
  | left =>
      simp only [step] at hstep
      split at hstep
      · cases hstep
        exact ⟨haborting, rfl⟩
      · cases hstep

/-- Once the group is aborting, no more work is called. -/
theorem called_of_aborting
    {n : ℕ}
    {before after : List (Action E α)}
    (hbefore : run step (initial n) before = some s)
    (haborting : s.aborting = true)
    (hafter : run step s after = some s') :
    s'.tasks.map Task.called = s.tasks.map Task.called := by
  have hkept := run_invariant
    (I := fun t => Sound n t ∧ t.aborting = true ∧
      t.tasks.map Task.called = s.tasks.map Task.called)
    (fun t _ t' ⟨hsound, hstill, hsame⟩ hstep => by
      obtain ⟨hstill', hsame'⟩ := called_of_step hsound hstill hstep
      exact ⟨sound_of_step hsound hstep, hstill', hsame'.trans hsame⟩)
    ⟨sound_of_run hbefore, haborting, rfl⟩ hafter
  exact hkept.2.2

/-! ## The group comes to an end -/

/-- The actions left to a task. -/
def Task.rank (task : Task E α) : ℕ :=
  if task.noticed = true then 0
  else
    match task.stage with
    | .created => 3
    | .running => 2
    | .returned _ | .raised _ | .cancelled => 1

/-- The actions left to the group. -/
def Group.rank (s : Group E α) : ℕ :=
  (s.tasks.map Task.rank).sum + s.outcome.isNone.toNat + (!s.aborting).toNat

theorem Task.rank_cancel (task : Task E α) :
    task.cancel.rank = task.rank := by
  simp [Task.rank]

theorem rank_abort (s : Group E α) :
    (s.abort.tasks.map Task.rank).sum = (s.tasks.map Task.rank).sum := by
  have hcomp : Task.rank ∘ Task.cancel = (Task.rank : Task E α → ℕ) := funext Task.rank_cancel
  rw [Group.abort, List.map_map, hcomp]

/-- A task that has been taken on leaves less to do. -/
theorem rank_put
    {id : ℕ} {task task' : Task E α}
    (htask : s.tasks[id]? = some task)
    (hless : task'.rank < task.rank) :
    (s.put id task').rank < s.rank := by
  have hsum := sum_map_set Task.rank htask task'
  have htasks : ((s.tasks.set id task').map Task.rank).sum < (s.tasks.map Task.rank).sum := by
    omega
  exact Nat.add_lt_add_right (Nat.add_lt_add_right htasks _) _

theorem rank_onTaskDone_le
    (s : Group E α)
    (task : Task E α) :
    (s.onTaskDone task).rank ≤ s.rank := by
  rcases onTaskDone_cases s task with ⟨h, -⟩ | ⟨-, haborting, h⟩
  · rw [h]
    exact Nat.le_refl _
  · rw [h, Group.rank, rank_abort]
    exact Nat.add_le_add_left (Nat.zero_le _) _

theorem rank_lt_of_step
    {action : Action E α}
    (h : Sound n s)
    (hstep : step s action = some s') :
    s'.rank < s.rank := by
  cases action with
  | started id =>
      obtain ⟨task, hfilter, rfl⟩ := Option.map_eq_some_iff.mp hstep
      obtain ⟨htask, hcreated⟩ := Option.filter_eq_some_iff.mp hfilter
      have hstage : task.stage = .created := by
        cases hs : task.stage <;> simp_all
      have hnoticed := (h.consistent task (List.mem_of_getElem? htask)).noticed_eq_false
        (by simp [Task.done, hstage])
      refine rank_put htask ?_
      unfold Task.start
      split <;> simp [Task.rank, hnoticed, hstage]
  | ended id ends =>
      obtain ⟨task, hfilter, rfl⟩ := Option.map_eq_some_iff.mp hstep
      obtain ⟨htask, hrunning⟩ := Option.filter_eq_some_iff.mp hfilter
      have hstage : task.stage = .running := by
        cases hs : task.stage <;> simp_all
      have hnoticed := (h.consistent task (List.mem_of_getElem? htask)).noticed_eq_false
        (by simp [Task.done, hstage])
      refine rank_put htask ?_
      cases ends <;> simp [Task.rank, Task.finish, hnoticed, hstage]
  | noticed id =>
      obtain ⟨task, hfilter, rfl⟩ := Option.map_eq_some_iff.mp hstep
      obtain ⟨htask, hready⟩ := Option.filter_eq_some_iff.mp hfilter
      obtain ⟨hdone, hunnoticed⟩ := Bool.and_eq_true_iff.mp hready
      refine Nat.lt_of_le_of_lt (rank_onTaskDone_le _ _) (rank_put htask ?_)
      have hnoticed : task.noticed = false := by simpa using hunnoticed
      cases hstage : task.stage with
      | created | running => simp [Task.done, hstage] at hdone
      | returned | raised | cancelled => simp [Task.rank, hnoticed, hstage]
  | interrupted =>
      simp only [step] at hstep
      split at hstep
      · next hwaits =>
          cases hstep
          have hsame := rank_abort s
          simp only [Group.abort] at hsame
          simp only [Group.rank, Group.abort, hsame, hwaits.1, hwaits.2.1]
          exact Nat.lt_succ_self _
      · cases hstep
  | left =>
      simp only [step] at hstep
      split at hstep
      · next hall =>
          cases hstep
          simp [Group.rank, hall.1]
      · cases hstep

/-- The group can go on, by itself or by the end of a work, until the caller has left it. -/
def CanGoOn (s : Group E α) : Prop :=
  (∃ id, (step s (.started id)).isSome = true) ∨
    (∃ id, ∀ ends, (step s (.ended id ends)).isSome = true) ∨
    (∃ id, (step s (.noticed id)).isSome = true) ∨ (step s .left).isSome = true

theorem canGoOn_of_open
    (hopen : s.outcome = none) :
    CanGoOn s := by
  by_cases hall : ∀ task ∈ s.tasks, task.noticed = true
  · exact .inr (.inr (.inr (by simpa [step, hopen] using hall)))
  · obtain ⟨task, htask, hnoticed⟩ : ∃ task ∈ s.tasks, task.noticed = false := by
      simpa using hall
    obtain ⟨id, hid⟩ := List.mem_iff_getElem?.mp htask
    cases hstage : task.stage with
    | created => exact .inl ⟨id, by simp [step, hid, hstage]⟩
    | running => exact .inr (.inl ⟨id, fun ends => by simp [step, hid, hstage]⟩)
    | returned | raised | cancelled =>
        exact .inr (.inr (.inl ⟨id, by simp [step, hid, Task.done, hstage, hnoticed]⟩))

/--
A group comes to its end in three steps a task and two more, whatever their order, and it can
always go on: no task waits for another.
-/
theorem comes_to_an_end
    {n : ℕ}
    {actions : List (Action E α)}
    (hrun : run step (initial n) actions = some s) :
    actions.length ≤ 3 * n + 2 ∧ (s.outcome = none → CanGoOn s) := by
  have hcount := run_countP_le (p := fun _ => true) (q := fun _ => false) (c := 0)
    (I := Sound n) (fun _ _ _ h hstep => sound_of_step h hstep)
    (fun _ _ _ h hstep => rank_lt_of_step h hstep) (sound_initial n) hrun
  have hstart : (initial n : Group E α).rank = 3 * n + 2 := by
    simp [Group.rank, initial, Task.rank, Task.new]
    omega
  have hall : actions.countP (fun _ => true) = actions.length := by simp
  exact ⟨by omega, canGoOn_of_open⟩

end Outcomes

/-! ## A failure among three works -/

/-- The second work fails while the first waits and the third has not started. -/
def siblingFails : List (Action String String) :=
  [.started 1, .started 0, .ended 1 (.error "boom"), .noticed 1, .started 2,
    .ended 0 .cancelled, .noticed 2, .noticed 0, .left]

theorem delivers_of_run_siblingFails :
    ∃ s, run step (initial 3) siblingFails = some s ∧ s.tasks.length = 3 ∧
      (∀ task ∈ s.tasks, task.done = true) ∧ Delivers s siblingFails (.raised ["boom"]) := by
  obtain ⟨s, hs, houtcome⟩ : ∃ s, run step (initial 3) siblingFails = some s ∧
      s.outcome = some (.raised ["boom"]) := ⟨_, rfl, rfl⟩
  exact ⟨s, hs, delivers_of_run hs houtcome⟩

/-- The third work is never called. -/
theorem called_of_aborting_siblingFails :
    ∃ s s', run step (initial 3) (siblingFails.take 4) = some s ∧ s.aborting = true ∧
      run step s (siblingFails.drop 4) = some s' ∧
      s'.tasks.map Task.called = s.tasks.map Task.called := by
  obtain ⟨s, hs, haborting⟩ : ∃ s, run step (initial 3) (siblingFails.take 4) = some s ∧
      s.aborting = true := ⟨_, rfl, rfl⟩
  obtain ⟨s', hs'⟩ : ∃ s', run step s (siblingFails.drop 4) = some s' := by
    cases hs
    exact ⟨_, rfl⟩
  exact ⟨s, s', hs, haborting, hs', called_of_aborting hs haborting hs'⟩

theorem comes_to_an_end_siblingFails :
    ∃ s, run step (initial 3) siblingFails = some s ∧ siblingFails.length ≤ 3 * 3 + 2 := by
  obtain ⟨s, hs⟩ : ∃ s, run step (initial 3) siblingFails = some s := ⟨_, rfl⟩
  exact ⟨s, hs, (comes_to_an_end hs).1⟩

end ParallelStep
end YamlAgno

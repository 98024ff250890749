import YamlAgno.Library.TaskPool
import YamlAgno.Workflow.AwaitedWork

/-!
# Steps that share a step executor

A workflow is built around one `StepExecutor`, so the function steps that run at the same
time (those of a `parallel` step, or of several runs of a workflow) are in `execute_step` of
the same object and ask the same breaker.  A run interleaves them at their `await`s: one that
waits is asleep between two attempts or has not started yet, one that works is in
`await work()`.

* One `execute_step` with nothing in between is `executeStep` (`exists_schedule`).
* Whatever happens in between, it is what the loop makes of the outcomes of its own attempts
  (`view_of_run`): the others reach it through the breaker only.
* The breaker is the books of all of them together (`books_of_run`).
-/

namespace YamlAgno
namespace StepExecutor

open Runs TaskPool CircuitBreaker PyNumber

/-- Where an `execute_step` is. -/
inductive Stage (E α : Type) where
  | waiting
  | working
  | ended (result : Except (PolicyError (StepError E)) (Option α))
  | cancelled
deriving DecidableEq

/-- One call of `execute_step`, how its attempts so far have ended, and what it has done. -/
structure Invocation (E α : Type) where
  stage : Stage E α
  outcomes : List (Except (StepError E) α)
  events : List (RetryEvent PyFloat (StepError E))

/-- An `execute_step` about to start. -/
def Invocation.new {E α : Type} : Invocation E α :=
  ⟨.waiting, [], []⟩

/-- The breaker of an executor, and the calls of `execute_step` in the order of their start. -/
structure Shared (E α : Type) where
  breaker : Breaker
  invocations : List (Invocation E α)

/-- What happens; a step of an invocation names it. -/
inductive Action (E α : Type) where
  /-- `execute_step` is called. -/
  | called
  /-- It is resumed, at its start or after a sleep, and makes its next attempt. -/
  | resumed (id : ℕ) (now : ℚ)
  /-- `await work()` ends. -/
  | workEnded (id : ℕ) (outcome : Except E α) (now : ℚ)
  /-- It gets a `CancelledError`, which nothing of it catches. -/
  | cancelled (id : ℕ)

section Methods

variable {E α C : Type} [DecidableEq C] (executor : StepExecutor E C)

/-- The attempts that an `execute_step` may make. -/
def maxAttempts : ℕ :=
  match executor.retryPolicy with
  | none => 1
  | some policy => (policy.maxRetries + 1).toNat

/-- The error leaves `execute_step`. -/
def reraise (exc : StepError E) : Stage E α × List (RetryEvent PyFloat (StepError E)) :=
  (.ended (.error (.original exc)),
    if executor.circuitBreaker.isSome = true ∧ executor.openError exc = true then
      [.report exc (.circuitBreaker "open")]
    else [])

/-- What the error of attempt `n` does. -/
def afterError (n : ℕ) (exc : StepError E) : Stage E α × List (RetryEvent PyFloat (StepError E)) :=
  match executor.retryPolicy with
  | none => executor.reraise exc
  | some policy =>
      if RetryPolicy.isRetryable executor.errorManager exc = false then executor.reraise exc
      else if (n : ℤ) = policy.maxRetries then executor.reraise exc
      else
        match policy.calculateDelay n with
        | .error overflow =>
            (.ended (.error (.overflow overflow)), [.report exc (.attempt n)])
        | .ok delay => (.waiting, [.report exc (.attempt n), .sleep delay])

/-- An attempt ends. -/
def settle (inv : Invocation E α) : Except (StepError E) α → Invocation E α
  | .ok value =>
      { inv with stage := .ended (.ok (some value)), outcomes := inv.outcomes ++ [.ok value] }
  | .error exc =>
      { stage := (executor.afterError inv.outcomes.length exc).1
        outcomes := inv.outcomes ++ [.error exc]
        events := inv.events ++ (executor.afterError inv.outcomes.length exc : Stage E α × _).2 }

/-- `record_success` or `record_failure`. -/
def recordOutcome (cfg : Settings) (now : ℚ) (b : Breaker) : Except E α → Breaker
  | .ok _ => recordSuccess cfg b
  | .error _ => recordFailure cfg now b

/-- Puts an invocation in its place. -/
def Shared.put (s : Shared E α) (id : ℕ) (inv : Invocation E α) : Shared E α :=
  { s with invocations := s.invocations.set id inv }

/-- The next attempt: the breaker refuses it, or the work is called. -/
def resume (s : Shared E α) (id : ℕ) (inv : Invocation E α) (now : ℚ) : Shared E α :=
  if inv.outcomes.length < executor.maxAttempts then
    match executor.circuitBreaker with
    | none => s.put id { inv with stage := .working }
    | some cfg =>
        let answer := allowRequest cfg now s.breaker
        if answer.1 = true then
          { s.put id { inv with stage := .working } with breaker := answer.2 }
        else
          { s.put id (executor.settle inv (.error .circuitOpen)) with breaker := answer.2 }
  else
    -- A loop over no attempt at all.
    s.put id { inv with stage := .ended (.ok none) }

/-- The work has ended, which the breaker counts. -/
def complete
    (s : Shared E α)
    (id : ℕ)
    (inv : Invocation E α)
    (outcome : Except E α)
    (now : ℚ) :
    Shared E α :=
  { s.put id (executor.settle inv (outcome.mapError .work)) with
    breaker :=
      match executor.circuitBreaker with
      | none => s.breaker
      | some cfg => recordOutcome cfg now s.breaker outcome }

/-- One action; `none` where the invocation it names is not at the `await` it is about. -/
def step (s : Shared E α) : Action E α → Option (Shared E α)
  | .called => some { s with invocations := s.invocations ++ [.new] }
  | .resumed id now =>
      (s.invocations[id]?).bind fun inv =>
        match inv.stage with
        | .waiting => some (executor.resume s id inv now)
        | _ => none
  | .workEnded id outcome now =>
      (s.invocations[id]?).bind fun inv =>
        match inv.stage with
        | .working => some (executor.complete s id inv outcome now)
        | _ => none
  | .cancelled id =>
      (s.invocations[id]?).bind fun inv =>
        match inv.stage with
        | .waiting | .working => some (s.put id { inv with stage := .cancelled })
        | _ => none

end Methods

/-! ## What a step does -/

section Steps

variable {E α C : Type} [DecidableEq C] {executor : StepExecutor E C}

/-- What one action does to the invocation it names. -/
inductive Progress (executor : StepExecutor E C) (inv : Invocation E α) : Invocation E α → Prop
  | started
      (hstage : inv.stage = .waiting) (hlt : inv.outcomes.length < executor.maxAttempts) :
      Progress executor inv { inv with stage := .working }
  | refused
      (hstage : inv.stage = .waiting) (hlt : inv.outcomes.length < executor.maxAttempts) :
      Progress executor inv (executor.settle inv (.error .circuitOpen))
  | noneLeft
      (hstage : inv.stage = .waiting) (hle : executor.maxAttempts ≤ inv.outcomes.length) :
      Progress executor inv { inv with stage := .ended (.ok none) }
  | completed
      (hstage : inv.stage = .working) (outcome : Except E α) :
      Progress executor inv (executor.settle inv (outcome.mapError .work))
  | cancelled
      (hstage : inv.stage = .waiting ∨ inv.stage = .working) :
      Progress executor inv { inv with stage := .cancelled }

/-- The attempt called the work. -/
def isCall : Except (StepError E) α → Bool
  | .error .circuitOpen => false
  | .ok _ | .error (.work _) => true

/-- The calls of the work that have ended. -/
def Invocation.calls (inv : Invocation E α) : ℕ :=
  inv.outcomes.countP isCall

/-- What the breaker makes of the progress of an invocation. -/
structure Books (cfg : Settings) (b b' : Breaker) (inv inv' : Invocation E α) : Prop where
  reached : ∃ ops, run (applyOp cfg) b ops = some b'
  total : b'.totalRequests + inv.calls = b.totalRequests + inv'.calls

@[simp] theorem settle_outcomes
    (inv : Invocation E α)
    (outcome : Except (StepError E) α) :
    (executor.settle inv outcome).outcomes = inv.outcomes ++ [outcome] := by
  cases outcome <;> rfl

theorem settle_calls
    (inv : Invocation E α)
    (outcome : Except (StepError E) α) :
    (executor.settle inv outcome).calls = inv.calls + if isCall outcome then 1 else 0 := by
  rw [Invocation.calls, settle_outcomes, List.countP_append, List.countP_singleton]
  rfl

/-- After an attempt an invocation is over, or it waits for another one. -/
theorem settle_stage
    {inv : Invocation E α}
    (hlt : inv.outcomes.length < executor.maxAttempts)
    (outcome : Except (StepError E) α) :
    (∃ result, (executor.settle inv outcome).stage = .ended result) ∨
      ((executor.settle inv outcome).stage = .waiting ∧
        inv.outcomes.length + 1 < executor.maxAttempts) := by
  cases outcome with
  | ok value => exact .inl ⟨_, rfl⟩
  | error exc =>
      simp only [settle, afterError]
      unfold maxAttempts at hlt ⊢
      cases hpolicy : executor.retryPolicy with
      | none => exact .inl ⟨_, rfl⟩
      | some policy =>
          rw [hpolicy] at hlt
          dsimp only at hlt ⊢
          split
          · exact .inl ⟨_, rfl⟩
          · split
            · exact .inl ⟨_, rfl⟩
            · next hmore =>
                cases policy.calculateDelay inv.outcomes.length with
                | error overflow => exact .inl ⟨_, rfl⟩
                | ok delay => exact .inr ⟨rfl, by omega⟩

variable {s s' : Shared E α}

/-- An action starts an invocation, or takes one on and the breaker with it. -/
theorem step_cases
    {action : Action E α}
    (hstep : executor.step s action = some s') :
    (action = .called ∧ s' = { s with invocations := s.invocations ++ [.new] }) ∨
      ∃ id inv inv', action ≠ .called ∧ s.invocations[id]? = some inv ∧
        Progress executor inv inv' ∧ s'.invocations = s.invocations.set id inv' ∧
        ∀ cfg, executor.circuitBreaker = some cfg → Books cfg s.breaker s'.breaker inv inv' := by
  cases action with
  | called =>
      cases hstep
      exact .inl ⟨rfl, rfl⟩
  | resumed id now =>
      obtain ⟨inv, hinv, hs'⟩ := Option.bind_eq_some_iff.mp hstep
      refine .inr ⟨id, inv, ?_⟩
      split at hs'
      · next hstage =>
          cases hs'
          unfold resume
          split
          · next hlt =>
              split
              · next hnone =>
                  refine ⟨_, by simp, hinv, .started hstage hlt, rfl, fun cfg hcfg => ?_⟩
                  rw [hnone] at hcfg
                  cases hcfg
              · next cfg hcfg =>
                  have hasked := allowRequest_totalRequests cfg now s.breaker
                  have hreached : run (applyOp cfg) s.breaker [.allowRequest now] =
                      some (allowRequest cfg now s.breaker).2 := rfl
                  dsimp only
                  split
                  · refine ⟨_, by simp, hinv, .started hstage hlt, rfl, fun cfg' hcfg' => ?_⟩
                    cases hcfg.symm.trans hcfg'
                    exact ⟨⟨_, hreached⟩, congrArg (· + inv.calls) hasked⟩
                  · refine ⟨_, by simp, hinv, .refused hstage hlt, rfl, fun cfg' hcfg' => ?_⟩
                    cases hcfg.symm.trans hcfg'
                    refine ⟨⟨_, hreached⟩, ?_⟩
                    rw [settle_calls]
                    exact congrArg (· + inv.calls) hasked
          · next hge =>
              refine ⟨_, by simp, hinv, .noneLeft hstage (Nat.le_of_not_lt hge), rfl, fun cfg _ => ?_⟩
              exact ⟨⟨[], rfl⟩, rfl⟩
      · cases hs'
  | workEnded id outcome now =>
      obtain ⟨inv, hinv, hs'⟩ := Option.bind_eq_some_iff.mp hstep
      refine .inr ⟨id, inv, ?_⟩
      split at hs'
      · next hstage =>
          cases hs'
          refine ⟨_, by simp, hinv, .completed hstage outcome, rfl, fun cfg hcfg => ?_⟩
          simp only [complete, hcfg]
          cases outcome with
          | ok value =>
              refine ⟨⟨[.recordSuccess], rfl⟩, ?_⟩
              rw [settle_calls, recordOutcome, recordSuccess_totalRequests]
              simp only [Except.mapError, isCall, if_true]
              omega
          | error error =>
              refine ⟨⟨[.recordFailure now], rfl⟩, ?_⟩
              rw [settle_calls, recordOutcome, recordFailure_totalRequests]
              simp only [Except.mapError, isCall, if_true]
              omega
      · cases hs'
  | cancelled id =>
      obtain ⟨inv, hinv, hs'⟩ := Option.bind_eq_some_iff.mp hstep
      refine .inr ⟨id, inv, ?_⟩
      split at hs'
      · next hstage =>
          cases hs'
          exact ⟨_, by simp, hinv, .cancelled (.inl hstage), rfl, fun cfg _ => ⟨⟨[], rfl⟩, rfl⟩⟩
      · next hstage =>
          cases hs'
          exact ⟨_, by simp, hinv, .cancelled (.inr hstage), rfl, fun cfg _ => ⟨⟨[], rfl⟩, rfl⟩⟩
      · cases hs'

theorem pool_step
    {action : Action E α}
    (hstep : executor.step s action = some s') :
    TaskPool.Step (· = Invocation.new) (Progress executor) s.invocations s'.invocations := by
  rcases step_cases hstep with ⟨-, rfl⟩ | ⟨id, inv, inv', -, hinv, hprogress, hset, -⟩
  · exact .started _ rfl
  · rw [hset]
    exact .moved id inv inv' hinv hprogress

end Steps

/-! ## The books of all invocations -/

section Books

variable {E α C : Type} [DecidableEq C] {executor : StepExecutor E C} {s s' : Shared E α}

/-- The attempts an invocation has made, and whether it may make another. -/
structure Bounded (executor : StepExecutor E C) (inv : Invocation E α) : Prop where
  attempts_le : inv.outcomes.length ≤ executor.maxAttempts
  working_lt : inv.stage = .working → inv.outcomes.length < executor.maxAttempts
  waiting_lt :
    inv.stage = .waiting → inv.outcomes = [] ∨ inv.outcomes.length < executor.maxAttempts

omit [DecidableEq C] in
theorem bounded_of_over
    {inv : Invocation E α}
    (hle : inv.outcomes.length ≤ executor.maxAttempts)
    (hworking : inv.stage ≠ .working)
    (hwaiting : inv.stage ≠ .waiting) :
    Bounded executor inv :=
  ⟨hle, fun h => absurd h hworking, fun h => absurd h hwaiting⟩

omit [DecidableEq C] in
theorem bounded_new
    (executor : StepExecutor E C) :
    Bounded executor (Invocation.new : Invocation E α) where
  attempts_le := Nat.zero_le _
  working_lt h := by cases h
  waiting_lt _ := .inl rfl

theorem bounded_settle
    {inv : Invocation E α}
    (hlt : inv.outcomes.length < executor.maxAttempts)
    (outcome : Except (StepError E) α) :
    Bounded executor (executor.settle inv outcome) := by
  have hlength : (executor.settle inv outcome).outcomes.length = inv.outcomes.length + 1 := by
    simp
  rcases settle_stage hlt outcome with ⟨result, hstage⟩ | ⟨hstage, hmore⟩
  · exact ⟨by omega, fun h => by simp [hstage] at h, fun h => by simp [hstage] at h⟩
  · exact ⟨by omega, fun h => by simp [hstage] at h, fun _ => .inr (by omega)⟩

theorem bounded_of_progress
    {inv inv' : Invocation E α}
    (h : Bounded executor inv)
    (hprogress : Progress executor inv inv') :
    Bounded executor inv' := by
  cases hprogress with
  | started hstage hlt => exact ⟨h.attempts_le, fun _ => hlt, fun hwaiting => by cases hwaiting⟩
  | refused hstage hlt => exact bounded_settle hlt _
  | noneLeft hstage hle => exact bounded_of_over h.attempts_le (by simp) (by simp)
  | completed hstage outcome => exact bounded_settle (h.working_lt hstage) _
  | cancelled hstage => exact bounded_of_over h.attempts_le (by simp) (by simp)

/-- The actions left to an invocation at most. -/
def rank (executor : StepExecutor E C) (inv : Invocation E α) : ℕ :=
  match inv.stage with
  | .waiting => 2 * (executor.maxAttempts - inv.outcomes.length) + 1
  | .working => 2 * (executor.maxAttempts - inv.outcomes.length)
  | .ended _ | .cancelled => 0

theorem rank_settle_le
    {inv : Invocation E α}
    (hlt : inv.outcomes.length < executor.maxAttempts)
    (outcome : Except (StepError E) α) :
    rank executor (executor.settle inv outcome) <
      2 * (executor.maxAttempts - inv.outcomes.length) := by
  unfold rank
  rcases settle_stage hlt outcome with ⟨result, hstage⟩ | ⟨hstage, hmore⟩
  · rw [hstage]
    dsimp only
    omega
  · rw [hstage, settle_outcomes, List.length_append, List.length_singleton]
    dsimp only
    omega

theorem rank_lt_of_progress
    {inv inv' : Invocation E α}
    (h : Bounded executor inv)
    (hprogress : Progress executor inv inv') :
    rank executor inv' < rank executor inv := by
  cases hprogress with
  | started hstage hlt =>
      simp only [rank, hstage]
      omega
  | refused hstage hlt =>
      refine (rank_settle_le hlt _).trans ?_
      simp only [rank, hstage]
      omega
  | noneLeft hstage hle =>
      simp only [rank, hstage]
      omega
  | completed hstage outcome =>
      refine (rank_settle_le (h.working_lt hstage) _).trans_le ?_
      simp only [rank, hstage]
      exact Nat.le_refl _
  | cancelled hstage =>
      rcases hstage with hstage | hstage
      · simp only [rank, hstage]
        omega
      · have hlt := h.working_lt hstage
        simp only [rank, hstage]
        omega

/-- The action starts an invocation. -/
def Action.starts : Action E α → Bool
  | .called => true
  | .resumed _ _ | .workEnded _ _ _ | .cancelled _ => false

/-- The action takes an invocation on. -/
def Action.moves (action : Action E α) : Bool :=
  !action.starts

theorem rank_of_step
    {action : Action E α}
    (h : ∀ inv ∈ s.invocations, Bounded executor inv)
    (hstep : executor.step s action = some s') :
    (s'.invocations.map (rank executor)).sum + (if action.moves then 1 else 0) ≤
      (s.invocations.map (rank executor)).sum +
        (if action.starts then 2 * executor.maxAttempts + 1 else 0) := by
  rcases step_cases hstep with
    ⟨rfl, rfl⟩ | ⟨id, inv, inv', haction, hinv, hprogress, hset, -⟩
  · simp only [sum_map_append_singleton, Action.moves, Action.starts]
    exact Nat.le_refl _
  · have hless := rank_lt_of_progress (h inv (List.mem_of_getElem? hinv)) hprogress
    have hsum := sum_map_set (rank executor) hinv inv'
    have hstarts : action.starts = false := by
      cases action with
      | called => exact absurd rfl haction
      | resumed | workEnded | cancelled => rfl
    simp only [hset, Action.moves, hstarts, Bool.not_false, if_true]
    omega

theorem total_of_step
    {cfg : Settings}
    (hcfg : executor.circuitBreaker = some cfg)
    {b : Breaker}
    {action : Action E α}
    (h : s.breaker.totalRequests = b.totalRequests + (s.invocations.map Invocation.calls).sum)
    (hstep : executor.step s action = some s') :
    s'.breaker.totalRequests = b.totalRequests + (s'.invocations.map Invocation.calls).sum := by
  rcases step_cases hstep with ⟨-, rfl⟩ | ⟨id, inv, inv', -, hinv, -, hset, hbooks⟩
  · rw [sum_map_append_singleton]
    exact h
  · have hsum := sum_map_set Invocation.calls hinv inv'
    have htotal := (hbooks cfg hcfg).total
    rw [hset]
    omega

theorem reached_of_step
    {cfg : Settings}
    (hcfg : executor.circuitBreaker = some cfg)
    {b : Breaker}
    {action : Action E α}
    (h : ∃ ops, run (applyOp cfg) b ops = some s.breaker)
    (hstep : executor.step s action = some s') :
    ∃ ops, run (applyOp cfg) b ops = some s'.breaker := by
  rcases step_cases hstep with ⟨-, rfl⟩ | ⟨id, inv, inv', -, -, -, -, hbooks⟩
  · exact h
  · obtain ⟨ops, hops⟩ := h
    obtain ⟨ops', hops'⟩ := (hbooks cfg hcfg).reached
    exact ⟨ops ++ ops', run_append_eq_some.mpr ⟨_, hops, hops'⟩⟩

/-- No invocation waits for another: one that is not over can go on at once. -/
theorem step_isSome
    {id : ℕ} {inv : Invocation E α}
    (hinv : s.invocations[id]? = some inv) :
    (inv.stage = .waiting → ∀ now, (executor.step s (.resumed id now)).isSome = true) ∧
      (inv.stage = .working →
        ∀ outcome now, (executor.step s (.workEnded id outcome now)).isSome = true) := by
  constructor
  · intro hstage now
    simp [step, hinv, hstage]
  · intro hstage outcome now
    simp [step, hinv, hstage]

/--
In every run of an executor, its breaker is what calls of its methods have made of it, and
has counted exactly the calls of the work that have ended.  Each invocation keeps to its
attempts; it can always go on, and it is over after two actions an attempt and one more.
-/
theorem books_of_run
    (executor : StepExecutor E C)
    (b : Breaker)
    {actions : List (Action E α)}
    (hrun : run executor.step ⟨b, []⟩ actions = some s) :
    (∀ cfg, executor.circuitBreaker = some cfg →
      (∃ ops, run (applyOp cfg) b ops = some s.breaker) ∧
        s.breaker.totalRequests =
          b.totalRequests + (s.invocations.map Invocation.calls).sum) ∧
      (∀ inv ∈ s.invocations, Bounded executor inv) ∧
      actions.countP Action.moves ≤
        (2 * executor.maxAttempts + 1) * actions.countP Action.starts ∧
      ∀ (id : ℕ) inv, s.invocations[id]? = some inv →
        (inv.stage = .waiting → ∀ now, (executor.step s (.resumed id now)).isSome = true) ∧
          (inv.stage = .working →
            ∀ outcome now, (executor.step s (.workEnded id outcome now)).isSome = true) := by
  have hbounded_step : ∀ (s : Shared E α) action s',
      (∀ inv ∈ s.invocations, Bounded executor inv) → executor.step s action = some s' →
        ∀ inv ∈ s'.invocations, Bounded executor inv :=
    fun _ _ _ h hstep => (pool_step hstep).forall_mem
      (fun inv (hnew : inv = .new) => hnew ▸ bounded_new executor)
      (fun _ _ => bounded_of_progress) h
  have hstart : ∀ inv ∈ (⟨b, []⟩ : Shared E α).invocations, Bounded executor inv :=
    fun _ hinv => absurd hinv List.not_mem_nil
  have hcount := run_countP_le (p := Action.moves) (q := Action.starts)
    hbounded_step (fun _ _ _ h hstep => rank_of_step h hstep) hstart hrun
  refine ⟨fun cfg hcfg => ⟨?_, ?_⟩, run_invariant hbounded_step hstart hrun, ?_,
    fun id inv => step_isSome⟩
  · exact run_invariant (I := fun s => ∃ ops, run (applyOp cfg) b ops = some s.breaker)
      (fun _ _ _ h hstep => reached_of_step hcfg h hstep) ⟨[], rfl⟩ hrun
  · exact run_invariant (I := fun s => s.breaker.totalRequests =
        b.totalRequests + (s.invocations.map Invocation.calls).sum)
      (fun _ _ _ h hstep => total_of_step hcfg h hstep) rfl hrun
  · exact (Nat.le_add_right _ _).trans (hcount.trans (Nat.le_of_eq (Nat.zero_add _)))

end Books

/-! ## Each invocation by itself -/

section View

variable {E α C : Type} [DecidableEq C] (executor : StepExecutor E C)

/-- One attempt of `execute_step`: through the breaker, if there is one. -/
def attempt (env : Surroundings E α) : Run E α → Except (StepError E) α × Run E α :=
  match executor.circuitBreaker with
  | some cfg => executeOnce cfg env
  | none => callWork env

/-- What is left of `execute_step` before its attempt `n`, around any kind of attempt. -/
def remaining
    (attempt : Run E α → Except (StepError E) α × Run E α)
    (n : ℕ)
    (run : Run E α) :
    Ended PyFloat (Run E α) (StepError E) (PolicyError (StepError E)) (Option α) :=
  match executor.retryPolicy with
  | none => single (attempt run)
  | some policy =>
      RetryPolicy.executeFrom policy executor.errorManager attempt
        (List.range' n (executor.maxAttempts - n)) run

/-- The handler around it, which only a breaker needs. -/
def closing
    (ended : Ended PyFloat (Run E α) (StepError E) (PolicyError (StepError E)) (Option α)) :
    Ended PyFloat (Run E α) (StepError E) (PolicyError (StepError E)) (Option α) :=
  if executor.circuitBreaker.isSome = true then executor.reportOpen ended else ended

theorem executeStep_eq_closing
    (env : Surroundings E α)
    (run : Run E α) :
    executor.executeStep env run =
      executor.closing (executor.remaining (executor.attempt env) 0 run) := by
  unfold executeStep closing remaining attempt maxAttempts
  cases executor.circuitBreaker <;> cases executor.retryPolicy <;>
    simp [RetryPolicy.executeWithRetry, List.range_eq_range']

/-- What has been done before. -/
def preceded
    (events : List (RetryEvent PyFloat (StepError E)))
    (ended : Ended PyFloat (Run E α) (StepError E) (PolicyError (StepError E)) (Option α)) :
    Ended PyFloat (Run E α) (StepError E) (PolicyError (StepError E)) (Option α) :=
  { ended with events := events ++ ended.events }

omit [DecidableEq C] in
theorem closing_preceded
    (events : List (RetryEvent PyFloat (StepError E)))
    (ended : Ended PyFloat (Run E α) (StepError E) (PolicyError (StepError E)) (Option α)) :
    executor.closing (preceded events ended) = preceded events (executor.closing ended) := by
  unfold closing
  split
  · unfold reportOpen preceded
    dsimp only
    split
    · split
      · simp
      · rfl
    · rfl
  · rfl

omit [DecidableEq C] in
/-- The handler reports what is raised through it. -/
theorem closing_original
    (exc : StepError E)
    (run : Run E α)
    (events : List (RetryEvent PyFloat (StepError E))) :
    executor.closing (⟨.error (.original exc), run, events⟩ : Ended PyFloat _ _ _ (Option α)) =
      ⟨.error (.original exc), run, events ++ (executor.reraise exc : Stage E α × _).2⟩ := by
  unfold closing reraise
  by_cases hbreaker : executor.circuitBreaker.isSome = true
  · by_cases hopen : executor.openError exc = true
    · simp [hbreaker, reportOpen, hopen]
    · simp [hbreaker, reportOpen, hopen]
  · simp [hbreaker]

omit [DecidableEq C] in
/-- It lets everything else through. -/
theorem closing_of_ne
    {ended : Ended PyFloat (Run E α) (StepError E) (PolicyError (StepError E)) (Option α)}
    (h : ∀ exc, ended.result ≠ .error (.original exc)) :
    executor.closing ended = ended := by
  unfold closing
  split
  · unfold reportOpen
    split
    · next exc hexc => exact absurd hexc (h exc)
    · rfl
  · rfl

/-- What is left before an attempt is the attempt and what is left after it. -/
theorem remaining_eq
    {attempt : Run E α → Except (StepError E) α × Run E α}
    {n : ℕ}
    {run run' : Run E α}
    {outcome : Except (StepError E) α}
    (hlt : n < executor.maxAttempts)
    (hattempt : attempt run = (outcome, run')) :
    executor.remaining attempt n run =
      match executor.retryPolicy with
      | none => single (outcome, run')
      | some policy =>
          afterAttempt executor.errorManager policy n (outcome, run')
            (executor.remaining attempt (n + 1) run') := by
  unfold remaining
  cases executor.retryPolicy with
  | none => simp only [hattempt]
  | some policy =>
      have hrest : executor.maxAttempts - n = executor.maxAttempts - (n + 1) + 1 := by omega
      simp only [hrest, List.range'_succ, executeFrom_cons, hattempt]

/-- An attempt and what is left after it, as the stage of an invocation says. -/
theorem closing_remaining
    {attempt : Run E α → Except (StepError E) α × Run E α}
    {inv : Invocation E α}
    {run run' : Run E α}
    {outcome : Except (StepError E) α}
    (hlt : inv.outcomes.length < executor.maxAttempts)
    (hattempt : attempt run = (outcome, run')) :
    (∃ result, (executor.settle inv outcome).stage = .ended result ∧
      preceded inv.events
          (executor.closing (executor.remaining attempt inv.outcomes.length run)) =
        ⟨result, run', (executor.settle inv outcome).events⟩) ∨
    ((executor.settle inv outcome).stage = .waiting ∧
      preceded inv.events
          (executor.closing (executor.remaining attempt inv.outcomes.length run)) =
        preceded (executor.settle inv outcome).events
          (executor.closing (executor.remaining attempt (inv.outcomes.length + 1) run'))) := by
  rw [remaining_eq executor hlt hattempt]
  cases outcome with
  | ok value =>
      refine .inl ⟨_, rfl, ?_⟩
      cases executor.retryPolicy with
      | none =>
          rw [closing_of_ne _ (by simp [single, RetryPolicy.settled])]
          simp [preceded, single, RetryPolicy.settled, settle]
      | some policy =>
          rw [closing_of_ne _ (by simp [afterAttempt])]
          simp [preceded, afterAttempt, settle]
  | error exc =>
      simp only [settle, afterError]
      cases executor.retryPolicy with
      | none =>
          refine .inl ⟨_, rfl, ?_⟩
          simp [single, RetryPolicy.settled, closing_original, preceded]
      | some policy =>
          simp only [afterAttempt]
          by_cases hfinal : RetryPolicy.isRetryable executor.errorManager exc = false
          · refine .inl ⟨.error (.original exc), by rw [if_pos hfinal]; rfl, ?_⟩
            simp [hfinal, closing_original, preceded]
          by_cases hlast : (inv.outcomes.length : ℤ) = policy.maxRetries
          · refine .inl ⟨.error (.original exc), by rw [if_neg hfinal, if_pos hlast]; rfl, ?_⟩
            simp [hfinal, hlast, closing_original, preceded]
          simp only [if_neg hfinal, if_neg hlast]
          cases policy.calculateDelay inv.outcomes.length with
          | error overflow =>
              refine .inl ⟨_, rfl, ?_⟩
              rw [closing_of_ne _ (by simp)]
              rfl
          | ok delay =>
              refine .inr ⟨rfl, ?_⟩
              have hlater := executor.closing_preceded
                [.report exc (.attempt inv.outcomes.length), .sleep delay]
                (executor.remaining attempt (inv.outcomes.length + 1) run')
              refine (congrArg (preceded inv.events) hlater).trans ?_
              simp [preceded]

/-- Where the loop comes to no attempt, it has made none and returns `None`. -/
theorem closing_remaining_over
    {attempt : Run E α → Except (StepError E) α × Run E α}
    {inv : Invocation E α}
    (hbounded : Bounded executor inv)
    (hstage : inv.stage = .waiting)
    (hle : executor.maxAttempts ≤ inv.outcomes.length)
    (run : Run E α) :
    preceded inv.events
        (executor.closing (executor.remaining attempt inv.outcomes.length run)) =
      ⟨.ok none, run, inv.events⟩ := by
  have hnil : inv.outcomes = [] := by
    rcases hbounded.waiting_lt hstage with hnil | hlt
    · exact hnil
    · omega
  cases hpolicy : executor.retryPolicy with
  | none => simp [maxAttempts, hpolicy, hnil] at hle
  | some policy =>
      have hnone : executor.maxAttempts - inv.outcomes.length = 0 := by omega
      have hremaining : executor.remaining attempt inv.outcomes.length run =
          ⟨.ok none, run, []⟩ := by
        simp only [remaining, hpolicy, hnone]
        rfl
      rw [hremaining, closing_of_ne _ (by simp)]
      simp [preceded]

/-- How the attempts of a step end, one after the other, whatever makes them end so. -/
def replaying
    (ends : ℕ → Except (StepError E) α)
    (run : Run E α) :
    Except (StepError E) α × Run E α :=
  (ends run.attempts, { run with attempts := run.attempts + 1 })

/-- A run that has made some attempts. -/
def Run.after (n : ℕ) : Run E α :=
  ⟨fresh, n, []⟩

/-- What `execute_step` is around attempts that end so. -/
def around (ends : ℕ → Except (StepError E) α) :
    Ended PyFloat (Run E α) (StepError E) (PolicyError (StepError E)) (Option α) :=
  executor.closing (executor.remaining (replaying ends) 0 (.after 0))

/-- An invocation has done what `execute_step` does around attempts that end like its own. -/
def View (inv : Invocation E α) : Prop :=
  ∀ ends, (∀ n, n < inv.outcomes.length → inv.outcomes[n]? = some (ends n)) →
    match inv.stage with
    | .ended result => executor.around ends = ⟨result, .after inv.outcomes.length, inv.events⟩
    | .waiting | .working | .cancelled =>
        executor.around ends =
          preceded inv.events (executor.closing
            (executor.remaining (replaying ends) inv.outcomes.length
              (.after inv.outcomes.length)))

variable {executor}

theorem view_new :
    executor.View (Invocation.new : Invocation E α) :=
  fun _ _ => rfl

theorem view_settle
    {inv : Invocation E α}
    (hlt : inv.outcomes.length < executor.maxAttempts)
    (hstage : inv.stage = .waiting ∨ inv.stage = .working)
    (h : executor.View inv)
    (outcome : Except (StepError E) α) :
    executor.View (executor.settle inv outcome) := by
  intro ends hends
  have hlast : ends inv.outcomes.length = outcome := by
    have := hends inv.outcomes.length (by simp)
    simpa using this.symm
  have hbefore : ∀ n, n < inv.outcomes.length → inv.outcomes[n]? = some (ends n) := by
    intro n hn
    have := hends n (by simp; omega)
    rwa [settle_outcomes, List.getElem?_append_left hn] at this
  have hview : executor.around ends = preceded inv.events (executor.closing
      (executor.remaining (replaying ends) inv.outcomes.length
        (.after inv.outcomes.length))) := by
    have := h ends hbefore
    rcases hstage with hstage | hstage
    · rwa [hstage] at this
    · rwa [hstage] at this
  have hattempt : replaying ends (Run.after inv.outcomes.length) =
      (outcome, Run.after (inv.outcomes.length + 1)) := by
    simp [replaying, Run.after, hlast]
  have hlength : (executor.settle inv outcome).outcomes.length = inv.outcomes.length + 1 := by
    simp
  rw [hview, hlength]
  rcases executor.closing_remaining hlt hattempt with ⟨result, hended, heq⟩ | ⟨hwaiting, heq⟩
  · rw [hended]
    exact heq
  · rw [hwaiting]
    exact heq

theorem view_of_progress
    {inv inv' : Invocation E α}
    (hbounded : Bounded executor inv)
    (h : executor.View inv)
    (hprogress : Progress executor inv inv') :
    executor.View inv' := by
  cases hprogress with
  | started hstage hlt =>
      intro ends hends
      have := h ends hends
      rwa [hstage] at this
  | refused hstage hlt => exact view_settle hlt (.inl hstage) h _
  | noneLeft hstage hle =>
      intro ends hends
      have hview := h ends hends
      rw [hstage] at hview
      exact hview.trans (executor.closing_remaining_over hbounded hstage hle _)
  | completed hstage outcome => exact view_settle (hbounded.working_lt hstage) (.inr hstage) h _
  | cancelled hstage =>
      intro ends hends
      have := h ends hends
      rcases hstage with hstage | hstage
      · rwa [hstage] at this
      · rwa [hstage] at this

/-- An invocation that is over has made the attempts that `execute_step` makes. -/
theorem View.ended
    {inv : Invocation E α}
    (h : executor.View inv)
    {result : Except (PolicyError (StepError E)) (Option α)}
    (hstage : inv.stage = .ended result)
    {ends : ℕ → Except (StepError E) α}
    (hends : ∀ n, n < inv.outcomes.length → inv.outcomes[n]? = some (ends n)) :
    executor.around ends = ⟨result, .after inv.outcomes.length, inv.events⟩ := by
  have hview := h ends hends
  rwa [hstage] at hview

/-! ### A step with nothing in between -/

theorem settle_stage_irrel
    (inv : Invocation E α)
    (stage : Stage E α)
    (outcome : Except (StepError E) α) :
    executor.settle { inv with stage := stage } outcome = executor.settle inv outcome := by
  cases outcome <;> rfl

/-- The work is called and ends, with nothing in between. -/
theorem run_work
    (others : List (Invocation E α))
    {inv : Invocation E α}
    {b b' : Breaker}
    {now : ℚ}
    (hresumed : executor.step ⟨b, others ++ [inv]⟩ (.resumed others.length now) =
      some ⟨b', others ++ [{ inv with stage := .working }]⟩)
    (outcome : Except E α)
    (now' : ℚ) :
    run executor.step ⟨b, others ++ [inv]⟩
        [.resumed others.length now, .workEnded others.length outcome now'] =
      some ⟨(match executor.circuitBreaker with
          | none => b'
          | some cfg => recordOutcome cfg now' b' outcome),
        others ++ [executor.settle inv (outcome.mapError .work)]⟩ := by
  rw [run_cons, hresumed, Option.bind_some, run_cons]
  simp [step, complete, Shared.put, settle_stage_irrel]

/-- The actions of one attempt with nothing in between. -/
theorem run_attempt
    (env : Surroundings E α)
    (others : List (Invocation E α))
    {inv : Invocation E α}
    (hstage : inv.stage = .waiting)
    (hlt : inv.outcomes.length < executor.maxAttempts)
    (start : Run E α) :
    ∃ actions, run executor.step ⟨start.breaker, others ++ [inv]⟩ actions =
      some ⟨(executor.attempt env start).2.breaker,
        others ++ [executor.settle inv (executor.attempt env start).1]⟩ := by
  have hresume : ∀ now, executor.step ⟨start.breaker, others ++ [inv]⟩
      (.resumed others.length now) =
        some (executor.resume ⟨start.breaker, others ++ [inv]⟩ others.length inv now) := by
    intro now
    simp [step, hstage]
  unfold attempt
  cases hbreaker : executor.circuitBreaker with
  | none =>
      have hresumed : executor.step ⟨start.breaker, others ++ [inv]⟩
          (.resumed others.length 0) =
            some ⟨start.breaker, others ++ [{ inv with stage := .working }]⟩ := by
        rw [hresume]
        simp [resume, hlt, hbreaker, Shared.put]
      refine ⟨_, (run_work others hresumed (env.work start.calls.length) 0).trans ?_⟩
      rw [hbreaker]
      rfl
  | some cfg =>
      have hasked : executor.resume ⟨start.breaker, others ++ [inv]⟩ others.length inv
          (env.admittedAt start.attempts) =
            if (allowRequest cfg (env.admittedAt start.attempts) start.breaker).1 = true then
              ⟨(allowRequest cfg (env.admittedAt start.attempts) start.breaker).2,
                others ++ [{ inv with stage := .working }]⟩
            else
              ⟨(allowRequest cfg (env.admittedAt start.attempts) start.breaker).2,
                others ++ [executor.settle inv (.error .circuitOpen)]⟩ := by
        simp [resume, hlt, hbreaker, Shared.put]
      by_cases hadmitted :
          (allowRequest cfg (env.admittedAt start.attempts) start.breaker).1 = true
      · rw [if_pos hadmitted] at hasked
        have hresumed := (hresume _).trans (congrArg some hasked)
        refine ⟨_, (run_work others hresumed (env.work start.calls.length)
          (env.recordedAt start.attempts)).trans ?_⟩
        rw [hbreaker]
        cases hwork : env.work start.calls.length with
        | ok value => simp [executeOnce, execute, hadmitted, hwork, recordOutcome, Except.mapError]
        | error error =>
            simp [executeOnce, execute, hadmitted, hwork, recordOutcome, Except.mapError]
      · rw [if_neg hadmitted] at hasked
        refine ⟨[.resumed others.length (env.admittedAt start.attempts)], ?_⟩
        rw [run_cons, hresume, hasked]
        simp [executeOnce, execute, hadmitted]

/-- What is left of `execute_step` is what its invocation does with nothing in between. -/
theorem exists_run_remaining
    (env : Surroundings E α)
    (others : List (Invocation E α))
    {left : ℕ}
    {inv : Invocation E α}
    (hleft : executor.maxAttempts - inv.outcomes.length = left)
    (hbounded : Bounded executor inv)
    (hstage : inv.stage = .waiting)
    (start : Run E α)
    {ended : Ended PyFloat (Run E α) (StepError E) (PolicyError (StepError E)) (Option α)}
    (hended : preceded inv.events (executor.closing
      (executor.remaining (executor.attempt env) inv.outcomes.length start)) = ended) :
    ∃ actions inv', run executor.step ⟨start.breaker, others ++ [inv]⟩ actions =
        some ⟨ended.state.breaker, others ++ [inv']⟩ ∧
      inv'.stage = .ended ended.result ∧ inv'.events = ended.events := by
  induction left generalizing inv start with
  | zero =>
      have hle : executor.maxAttempts ≤ inv.outcomes.length := by omega
      rw [executor.closing_remaining_over hbounded hstage hle] at hended
      subst hended
      refine ⟨[.resumed others.length 0], { inv with stage := .ended (.ok none) }, ?_, rfl, rfl⟩
      rw [run_cons]
      simp [step, hstage, resume, Nat.not_lt.mpr hle, Shared.put]
  | succ left ih =>
      have hlt : inv.outcomes.length < executor.maxAttempts := by omega
      obtain ⟨actions, hactions⟩ := run_attempt env others hstage hlt start
      have hsettled := bounded_settle hlt (executor.attempt env start).1
      have hlength : (executor.settle inv (executor.attempt env start).1).outcomes.length =
          inv.outcomes.length + 1 := by
        simp
      rcases executor.closing_remaining hlt (Prod.mk.eta (p := executor.attempt env start)).symm with
        ⟨result, hover, heq⟩ | ⟨hwaiting, heq⟩
      · rw [heq] at hended
        subst hended
        exact ⟨actions, _, hactions, hover, rfl⟩
      · rw [heq, ← hlength] at hended
        obtain ⟨later, inv', hlater, hresult⟩ :=
          ih (by omega) hsettled hwaiting (executor.attempt env start).2 hended
        exact ⟨actions ++ later, inv', run_append_eq_some.mpr ⟨_, hactions, hlater⟩, hresult⟩

/--
In every run, an invocation that is over has the result of `execute_step` around attempts
that end like its own, after as many of them, and has reported and slept as it does: the
others reach it through the breaker only.
-/
theorem view_of_run
    (executor : StepExecutor E C)
    (b : Breaker)
    {actions : List (Action E α)}
    {s : Shared E α}
    (hrun : run executor.step ⟨b, []⟩ actions = some s)
    {inv : Invocation E α}
    (hinv : inv ∈ s.invocations)
    {result : Except (PolicyError (StepError E)) (Option α)}
    (hstage : inv.stage = .ended result)
    {ends : ℕ → Except (StepError E) α}
    (hends : ∀ n, n < inv.outcomes.length → inv.outcomes[n]? = some (ends n)) :
    executor.around ends = ⟨result, .after inv.outcomes.length, inv.events⟩ := by
  have hviews : ∀ inv ∈ s.invocations, Bounded executor inv ∧ executor.View inv := by
    refine run_invariant
      (I := fun s => ∀ inv ∈ s.invocations, Bounded executor inv ∧ executor.View inv)
      (fun _ _ _ h hstep => (pool_step hstep).forall_mem ?_ ?_ h)
      (fun _ hinv => absurd hinv List.not_mem_nil) hrun
    · rintro inv rfl
      exact ⟨bounded_new executor, view_new⟩
    · rintro inv inv' ⟨hbounded, hview⟩ hprogress
      exact ⟨bounded_of_progress hbounded hprogress, view_of_progress hbounded hview hprogress⟩
  exact (hviews inv hinv).2.ended hstage hends

/--
A call of `execute_step` with nothing in between does to the breaker what `executeStep` says,
has its result, and reports and sleeps like it.
-/
theorem exists_schedule
    (executor : StepExecutor E C)
    (env : Surroundings E α)
    (b : Breaker)
    (others : List (Invocation E α)) :
    ∃ actions inv, run executor.step ⟨b, others⟩ (.called :: actions) =
        some ⟨(executor.executeStep env (.start b)).state.breaker, others ++ [inv]⟩ ∧
      inv.stage = .ended (executor.executeStep env (.start b)).result ∧
      inv.events = (executor.executeStep env (.start b)).events := by
  have hstart : preceded (Invocation.new : Invocation E α).events (executor.closing
      (executor.remaining (executor.attempt env) 0 (.start b))) =
        executor.executeStep env (.start b) := by
    rw [executeStep_eq_closing]
    rfl
  exact exists_run_remaining env others rfl (bounded_new executor) rfl (.start b) hstart

end View

/-! ## Two steps at the same time -/

/-- Two calls are admitted; the failure of the second opens the circuit, which refuses its retry. -/
def sharedOutage : List (Action String String) :=
  [.called, .called, .resumed 0 0, .resumed 1 0, .workEnded 1 (.error "TimeoutError") 0,
    .workEnded 0 (.ok "answer") 1, .resumed 1 2]

theorem books_of_run_sharedOutage :
    ∃ s, run guarding.step ⟨fresh, []⟩ sharedOutage = some s ∧
      s.breaker.totalRequests = 0 + (s.invocations.map Invocation.calls).sum ∧
      ∀ inv ∈ s.invocations, Bounded guarding inv := by
  obtain ⟨s, hs⟩ : ∃ s, run guarding.step ⟨fresh, []⟩ sharedOutage = some s :=
    Option.isSome_iff_exists.mp (by decide +kernel)
  obtain ⟨hbooks, hbounded, -⟩ := books_of_run guarding fresh hs
  exact ⟨s, hs, (hbooks { minRequests := 1 } rfl).2, hbounded⟩

/-- How the attempts of the second call end. -/
def refusedRetry : ℕ → Except (StepError String) String
  | 0 => .error (.work "TimeoutError")
  | _ => .error .circuitOpen

theorem view_of_run_sharedOutage :
    ∃ s inv, run guarding.step ⟨fresh, []⟩ sharedOutage = some s ∧ inv ∈ s.invocations ∧
      guarding.around refusedRetry =
        ⟨.error (.original .circuitOpen), .after 2, inv.events⟩ := by
  have hsecond : ((run guarding.step ⟨fresh, []⟩ sharedOutage).bind
      fun s => s.invocations[1]?).map (fun inv => (inv.outcomes, inv.stage)) =
        some ([.error (.work "TimeoutError"), .error .circuitOpen],
          .ended (.error (.original .circuitOpen))) := by
    decide +kernel
  obtain ⟨inv, hfound, hinv⟩ := Option.map_eq_some_iff.mp hsecond
  obtain ⟨s, hs, hid⟩ := Option.bind_eq_some_iff.mp hfound
  obtain ⟨houtcomes, hstage⟩ := Prod.mk.inj hinv
  have hmem := List.mem_of_getElem? hid
  have hends : ∀ n, n < inv.outcomes.length → inv.outcomes[n]? = some (refusedRetry n) := by
    intro n hn
    rw [houtcomes] at hn ⊢
    match n, hn with
    | 0, _ => rfl
    | 1, _ => rfl
  have hview := view_of_run guarding fresh hs hmem hstage hends
  rw [houtcomes] at hview
  exact ⟨s, inv, hs, hmem, hview⟩

end StepExecutor
end YamlAgno

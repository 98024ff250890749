import YamlAgno.Resilience.CircuitBreaker
import YamlAgno.Workflow.RetryPolicy

/-!
# The composed step executor

`StepExecutor.execute_step` of `workflows/step_executor.py`: the circuit breaker of
`Resilience.CircuitBreaker` inside the loop of `Workflow.RetryPolicy`, around a piece
of work whose calls are counted.  The outcomes of the work, the clock and the random
draws are arbitrary sequences, so a breaker may trip between two attempts, or go
half-open because the clock has moved during a backoff.

`Accounts` is the bookkeeping of such a run.  An attempt changes the requests and the
calls together (`executeOnce_cases`), and so does any number of them
(`inStep_stateBefore`).  A run keeps the books unless it comes to a delay that overflows
(`executeStep_accounts_iff`).
-/

namespace YamlAgno

open CircuitBreaker PyNumber

/-- What the breaker's caller catches: an error of the work, or `CircuitBreakerOpenError`. -/
inductive StepError (E : Type) where
  | work (error : E)
  | circuitOpen
deriving DecidableEq

/-- The constructor arguments of a step executor; `isOpenError` tells which errors of
the work are themselves a `CircuitBreakerOpenError`. -/
structure StepExecutor (E C : Type) where
  errorManager : ErrorHandlingManager (StepError E) C
  circuitBreaker : Option CircuitBreaker.Settings
  retryPolicy : Option (RetryPolicy PyFloat)
  isOpenError : E → Bool

namespace StepExecutor

/-- The world around a run: the outcome of each call of the work, and the clock as the
breaker reads it when it admits and when it records the n-th attempt. -/
structure Surroundings (E α : Type) where
  work : ℕ → Except E α
  admittedAt : ℕ → ℚ
  recordedAt : ℕ → ℚ

/-- The state of a run: the breaker, the attempts made, and the outcomes of the calls of
the work, which nothing reads. -/
structure Run (E α : Type) where
  breaker : Breaker
  attempts : ℕ
  calls : List (Except E α)

/-- A run about to start. -/
def Run.start {E α : Type} (breaker : Breaker) : Run E α :=
  ⟨breaker, 0, []⟩

section Methods

variable {E α C : Type}

/-- `work()`. -/
def callWork
    (env : Surroundings E α)
    (run : Run E α) :
    Except (StepError E) α × Run E α :=
  let outcome := env.work run.calls.length
  (outcome.mapError .work,
    { run with attempts := run.attempts + 1, calls := run.calls ++ [outcome] })

/-- `cb.execute(work)`. -/
def executeOnce
    (cfg : CircuitBreaker.Settings)
    (env : Surroundings E α)
    (run : Run E α) :
    Except (StepError E) α × Run E α :=
  let outcome := env.work run.calls.length
  let ended := execute cfg (env.admittedAt run.attempts) (env.recordedAt run.attempts)
    outcome run.breaker
  match ended.1 with
  | .returned value => (.ok value, ⟨ended.2, run.attempts + 1, run.calls ++ [outcome]⟩)
  | .raised error =>
      (.error (.work error), ⟨ended.2, run.attempts + 1, run.calls ++ [outcome]⟩)
  | .circuitOpen => (.error .circuitOpen, ⟨ended.2, run.attempts + 1, run.calls⟩)

/-- An instance of `CircuitBreakerOpenError`. -/
def openError
    (executor : StepExecutor E C) :
    StepError E → Bool
  | .work error => executor.isOpenError error
  | .circuitOpen => true

/-- A call that is not retried. -/
def single
    (ended : Except (StepError E) α × Run E α) :
    Ended PyFloat (Run E α) (StepError E) (PolicyError (StepError E)) (Option α) :=
  ⟨RetryPolicy.settled ended.1, ended.2, []⟩

/-- The handler that reports an open circuit before it raises again. -/
def reportOpen
    (executor : StepExecutor E C)
    (ended : Ended PyFloat (Run E α) (StepError E) (PolicyError (StepError E)) (Option α)) :
    Ended PyFloat (Run E α) (StepError E) (PolicyError (StepError E)) (Option α) :=
  match ended.result with
  | .error (.original exc) =>
      if executor.openError exc = true then
        { ended with events := ended.events ++ [.report exc (.circuitBreaker "open")] }
      else ended
  | _ => ended

/-- `execute_step`. -/
def executeStep
    [DecidableEq C]
    (executor : StepExecutor E C)
    (env : Surroundings E α)
    (run : Run E α) :
    Ended PyFloat (Run E α) (StepError E) (PolicyError (StepError E)) (Option α) :=
  match executor.circuitBreaker, executor.retryPolicy with
  | some cfg, some policy =>
      executor.reportOpen
        (policy.executeWithRetry executor.errorManager (executeOnce cfg env) run)
  | some cfg, none => executor.reportOpen (single (executeOnce cfg env run))
  | none, some policy =>
      policy.executeWithRetry executor.errorManager (callWork env) run
  | none, none => single (callWork env run)

/-- Reporting changes neither the result nor the state. -/
theorem reportOpen_cases
    (executor : StepExecutor E C)
    (ended : Ended PyFloat (Run E α) (StepError E) (PolicyError (StepError E)) (Option α)) :
    ∃ events, executor.reportOpen ended = { ended with events := events } := by
  unfold reportOpen
  split
  · split
    · exact ⟨_, rfl⟩
    · exact ⟨_, rfl⟩
  · exact ⟨_, rfl⟩

@[simp] theorem reportOpen_state
    (executor : StepExecutor E C)
    (ended : Ended PyFloat (Run E α) (StepError E) (PolicyError (StepError E)) (Option α)) :
    (executor.reportOpen ended).state = ended.state := by
  obtain ⟨events, h⟩ := executor.reportOpen_cases ended
  rw [h]

@[simp] theorem reportOpen_result
    (executor : StepExecutor E C)
    (ended : Ended PyFloat (Run E α) (StepError E) (PolicyError (StepError E)) (Option α)) :
    (executor.reportOpen ended).result = ended.result := by
  obtain ⟨events, h⟩ := executor.reportOpen_cases ended
  rw [h]

end Methods

/-! ## The books of a run -/

section Books

variable {E α : Type} (cfg : CircuitBreaker.Settings) (env : Surroundings E α)

/-- What one attempt does: it is rejected, or it calls the work and is recorded. -/
theorem executeOnce_cases (run : Run E α) :
    executeOnce cfg env run =
        (.error .circuitOpen, { run with attempts := run.attempts + 1 }) ∨
      ∃ breaker, breaker.totalRequests = run.breaker.totalRequests + 1 ∧
        executeOnce cfg env run =
          ((env.work run.calls.length).mapError .work,
            ⟨breaker, run.attempts + 1, run.calls ++ [env.work run.calls.length]⟩) := by
  unfold executeOnce execute
  dsimp only
  by_cases hadmitted : (allowRequest cfg (env.admittedAt run.attempts) run.breaker).1 = true
  · rw [if_pos hadmitted]
    refine Or.inr ?_
    cases env.work run.calls.length with
    | ok value =>
        refine ⟨_, ?_, rfl⟩
        rw [recordSuccess_totalRequests, allowRequest_totalRequests]
    | error error =>
        refine ⟨_, ?_, rfl⟩
        rw [recordFailure_totalRequests, allowRequest_totalRequests]
  · rw [if_neg hadmitted, allowRequest_of_rejected cfg hadmitted]
    exact Or.inl rfl

/-- The requests counted since the start are the calls of the work, one an attempt at most. -/
structure InStep (b : Breaker) (attempts : ℕ) (run : Run E α) : Prop where
  attempts_eq : run.attempts = attempts
  calls_le : run.calls.length ≤ attempts
  requests_eq : run.breaker.totalRequests = b.totalRequests + run.calls.length

theorem InStep.executeOnce
    {b : Breaker}
    {attempts : ℕ}
    {run : Run E α}
    (h : InStep b attempts run) :
    InStep b (attempts + 1) (executeOnce cfg env run).2 := by
  rcases executeOnce_cases cfg env run with hrejected | ⟨breaker, htotal, hcalled⟩
  · rw [hrejected]
    exact ⟨congrArg (· + 1) h.attempts_eq, Nat.le_succ_of_le h.calls_le, h.requests_eq⟩
  · rw [hcalled]
    refine ⟨congrArg (· + 1) h.attempts_eq, ?_, ?_⟩
    · simpa using h.calls_le
    · rw [List.length_append, htotal, h.requests_eq]
      rfl

/-- The books after any number of attempts. -/
theorem inStep_stateBefore
    (b : Breaker)
    (n : ℕ) :
    InStep b n (RetryPolicy.stateBefore (executeOnce cfg env) (Run.start b) n) := by
  induction n with
  | zero =>
      exact ⟨rfl, le_rfl, rfl⟩
  | succ n ih =>
      rw [RetryPolicy.stateBefore_succ]
      exact ih.executeOnce cfg env

/-- How one attempt ends: with the outcome of the call it has made, or rejected. -/
theorem executeOnce_result (run : Run E α) :
    (∃ value, (executeOnce cfg env run).1 = .ok value ∧
      (executeOnce cfg env run).2.calls.getLast? = some (.ok value)) ∨
    (∃ error, (executeOnce cfg env run).1 = .error (.work error) ∧
      (executeOnce cfg env run).2.calls.getLast? = some (.error error)) ∨
    (executeOnce cfg env run).1 = .error .circuitOpen := by
  rcases executeOnce_cases cfg env run with hrejected | ⟨breaker, -, hcalled⟩
  · rw [hrejected]
    exact Or.inr (Or.inr rfl)
  · rw [hcalled]
    cases env.work run.calls.length with
    | ok value =>
        exact Or.inl ⟨value, rfl, List.getLast?_concat⟩
    | error error =>
        exact Or.inr (Or.inl ⟨error, rfl, List.getLast?_concat⟩)

/-- A rejected attempt leaves the breaker and the calls as they were. -/
theorem executeOnce_of_rejected
    {run : Run E α}
    (h : (executeOnce cfg env run).1 = .error .circuitOpen) :
    (executeOnce cfg env run).2 = { run with attempts := run.attempts + 1 } := by
  rcases executeOnce_cases cfg env run with hrejected | ⟨breaker, -, hcalled⟩
  · rw [hrejected]
  · rw [hcalled] at h
    cases hwork : env.work run.calls.length with
    | ok value =>
        rw [hwork] at h
        cases h
    | error error =>
        rw [hwork] at h
        cases h

/--
The accounting of a run with `max_retries` that starts at breaker `b`: the calls are
bounded and are the requests recorded, a rejected attempt changes nothing, and the
run ends as its last call has, or with `CircuitBreakerOpenError`.
-/
structure Accounts
    (maxRetries : ℤ)
    (b : Breaker)
    (ended : Ended PyFloat (Run E α) (StepError E) (PolicyError (StepError E)) (Option α)) :
    Prop where
  calls_le : (ended.state.calls.length : ℤ) ≤ maxRetries + 1
  requests_eq :
    ended.state.breaker.totalRequests = b.totalRequests + ended.state.calls.length
  rejected : ∀ n,
    RetryPolicy.attemptResult (executeOnce cfg env) (Run.start b) n = .error .circuitOpen →
      RetryPolicy.stateBefore (executeOnce cfg env) (Run.start b) (n + 1) =
        { RetryPolicy.stateBefore (executeOnce cfg env) (Run.start b) n with
          attempts := n + 1 }
  result :
    (∃ value, ended.result = .ok (some value) ∧
      ended.state.calls.getLast? = some (.ok value)) ∨
    (∃ error, ended.result = .error (.original (.work error)) ∧
      ended.state.calls.getLast? = some (.error error)) ∨
    ended.result = .error (.original .circuitOpen)

variable {cfg env} {b : Breaker} {maxRetries : ℤ}

/-- The books are kept if the run ends as its last attempt has. -/
theorem Accounts.of_last_attempt
    {ended : Ended PyFloat (Run E α) (StepError E) (PolicyError (StepError E)) (Option α)}
    {n : ℕ}
    (hn : (n : ℤ) ≤ maxRetries)
    (hresult : ended.result =
      RetryPolicy.settled (RetryPolicy.attemptResult (executeOnce cfg env) (Run.start b) n))
    (hstate : ended.state =
      RetryPolicy.stateBefore (executeOnce cfg env) (Run.start b) (n + 1)) :
    Accounts cfg env maxRetries b ended where
  calls_le := by
    have hcalls := (inStep_stateBefore cfg env b (n + 1)).calls_le
    rw [hstate]
    omega
  requests_eq := by
    rw [hstate]
    exact (inStep_stateBefore cfg env b (n + 1)).requests_eq
  rejected m hrejected := by
    rw [RetryPolicy.stateBefore_succ, executeOnce_of_rejected cfg env hrejected,
      (inStep_stateBefore cfg env b m).attempts_eq]
  result := by
    rw [hresult, hstate, RetryPolicy.stateBefore_succ]
    unfold RetryPolicy.attemptResult
    rcases executeOnce_result cfg env
        (RetryPolicy.stateBefore (executeOnce cfg env) (Run.start b) n) with
      ⟨value, hvalue, hlast⟩ | ⟨error, herror, hlast⟩ | hrejected
    · rw [hvalue]
      exact Or.inl ⟨value, rfl, hlast⟩
    · rw [herror]
      exact Or.inr (Or.inl ⟨error, rfl, hlast⟩)
    · rw [hrejected]
      exact Or.inr (Or.inr rfl)

/-- The books say nothing about the reports and the sleeps. -/
theorem accounts_events_iff
    (ended : Ended PyFloat (Run E α) (StepError E) (PolicyError (StepError E)) (Option α))
    (events : List (RetryEvent PyFloat (StepError E))) :
    Accounts cfg env maxRetries b { ended with events := events } ↔
      Accounts cfg env maxRetries b ended :=
  ⟨fun h => ⟨h.calls_le, h.requests_eq, h.rejected, h.result⟩,
    fun h => ⟨h.calls_le, h.requests_eq, h.rejected, h.result⟩⟩

section Composed

variable {C : Type} [DecidableEq C] (manager : ErrorHandlingManager (StepError E) C)
  (isOpenError : E → Bool) (policy : RetryPolicy PyFloat)

/-- The books of the composed executor are those of the loop around the breaker. -/
theorem accounts_executeStep_iff :
    Accounts cfg env maxRetries b
        (executeStep ⟨manager, some cfg, some policy, isOpenError⟩ env (Run.start b)) ↔
      Accounts cfg env maxRetries b
        (policy.executeWithRetry manager (executeOnce cfg env) (Run.start b)) := by
  obtain ⟨events, hreport⟩ := reportOpen_cases
    ⟨manager, some cfg, some policy, isOpenError⟩
    (policy.executeWithRetry manager (executeOnce cfg env) (Run.start b))
  have hstep : executeStep ⟨manager, some cfg, some policy, isOpenError⟩ env (Run.start b) = _ :=
    hreport
  rw [hstep, accounts_events_iff]

/-- An overflow is neither the outcome of a call nor an open circuit. -/
theorem not_accounts_of_overflow
    {n : ℕ}
    (hmore : (n : ℤ) < policy.maxRetries)
    (hover : RetryPolicy.DelayOverflows policy n)
    (hall : ∀ i ≤ n, RetryPolicy.RetryableFailure manager
      (RetryPolicy.attemptResult (executeOnce cfg env) (Run.start b) i)) :
    ¬ Accounts cfg env maxRetries b
      (executeStep ⟨manager, some cfg, some policy, isOpenError⟩ env (Run.start b)) := by
  obtain ⟨overflow, hraised⟩ :=
    (RetryPolicy.executeWithRetry_overflows_iff policy manager (executeOnce cfg env)
      (Run.start b) (by omega)).mpr ⟨n, hmore, hover, hall⟩
  rw [accounts_executeStep_iff]
  intro h
  rcases h.result with ⟨value, hvalue, -⟩ | ⟨error, herror, -⟩ | hrejected
  · rw [hraised] at hvalue
    cases hvalue
  · rw [hraised] at herror
    cases herror
  · rw [hraised] at hrejected
    cases hrejected

/--
A run with a breaker and a policy keeps the books exactly if it comes to no delay that
overflows: each attempt below `max_retries` with such a delay has an attempt at or before it
that is no retryable failure.
-/
theorem executeStep_accounts_iff
    (hmax : 0 ≤ policy.maxRetries) :
    Accounts cfg env policy.maxRetries b
        (executeStep ⟨manager, some cfg, some policy, isOpenError⟩ env (Run.start b)) ↔
      ∀ n : ℕ, (n : ℤ) < policy.maxRetries → RetryPolicy.DelayOverflows policy n →
        ∃ i ≤ n, ¬ RetryPolicy.RetryableFailure manager
          (RetryPolicy.attemptResult (executeOnce cfg env) (Run.start b) i) := by
  constructor
  · intro h n hmore hover
    by_contra hcond
    push Not at hcond
    exact not_accounts_of_overflow manager isOpenError policy hmore hover hcond h
  · intro hcond
    have hoverflow := RetryPolicy.executeWithRetry_overflows_iff
      policy manager (executeOnce cfg env) (Run.start b) hmax
    obtain ⟨n, hn, hends⟩ := RetryPolicy.executeWithRetry_cases
      policy manager (executeOnce cfg env) (Run.start b) hmax
    rw [accounts_executeStep_iff]
    generalize policy.executeWithRetry manager (executeOnce cfg env) (Run.start b) = ended
      at hoverflow hends
    cases hends with
    | final before last =>
        exact Accounts.of_last_attempt hn rfl rfl
    | @overflows overflow events before below above more =>
        obtain ⟨m, hmore, hover, hall⟩ := hoverflow.mp ⟨overflow, rfl⟩
        obtain ⟨i, hi, hfinal⟩ := hcond m hmore hover
        exact absurd (hall i hi) hfinal

end Composed

end Books

/-- The run of a piece of work that fails twice under the default policy. -/
def flaky : Surroundings String String where
  work n := if n < 2 then .error "TimeoutError" else .ok "recovered"
  admittedAt n := n
  recordedAt n := n

/-- Errors of the work are transient, an open circuit is permanent. -/
def transientWork : ErrorHandlingManager (StepError String) String where
  transient := "transient"
  rateLimit := "rate_limit"
  classify
    | .work _ => "transient"
    | .circuitOpen => "permanent"

/-- Three retries, and the lowest draw each time. -/
def threeRetries : RetryPolicy PyFloat where
  randomFn _ low _ := .float low

theorem executeStep_accounts_flaky :
    Accounts {} flaky 3 fresh
      (executeStep ⟨transientWork, some {}, some threeRetries, fun _ => false⟩
        flaky (Run.start fresh)) := by
  refine (executeStep_accounts_iff transientWork (fun _ => false) threeRetries
    (by decide)).mpr fun n hmore hover => ?_
  have hlate : 1024 ≤ n :=
    (RetryPolicy.delayOverflows_iff_of_float rfl rfl rfl).mp hover
  have hfew : threeRetries.maxRetries = 3 := rfl
  omega

/-! ## A run that overflows -/

section Failing

variable {E α : Type} (cfg : CircuitBreaker.Settings) (env : Surroundings E α)

/-- A closed breaker with too few requests to trip passes a failure on and stays closed. -/
theorem executeOnce_of_closed
    {run : Run E α}
    {error : E}
    (hclosed : run.breaker.state = .closed)
    (hfew : (run.breaker.totalRequests : ℤ) + 1 < cfg.minRequests)
    (hwork : env.work run.calls.length = .error error) :
    (executeOnce cfg env run).1 = .error (.work error) ∧
      (executeOnce cfg env run).2.breaker.state = .closed := by
  have hadmitted (now : ℚ) : allowRequest cfg now run.breaker = (true, run.breaker) := by
    simp only [allowRequest, hclosed]
  have hstate (now : ℚ) : (recordFailure cfg now run.breaker).state = .closed := by
    simp [recordFailure, shouldTrip, hclosed, hfew]
  unfold executeOnce execute
  simp only [hadmitted, hwork, if_true, hstate, and_self]

/-- Work that always fails, under a breaker that has too few requests to trip. -/
theorem attemptResult_of_failing
    {errors : ℕ → E}
    (hwork : ∀ n, env.work n = .error (errors n))
    {b : Breaker}
    (hclosed : b.state = .closed)
    (n : ℕ)
    (hfew : (b.totalRequests : ℤ) + n + 1 < cfg.minRequests) :
    ∃ error,
      RetryPolicy.attemptResult (executeOnce cfg env) (Run.start b) n = .error (.work error) := by
  have hstate : ∀ m ≤ n,
      (RetryPolicy.stateBefore (executeOnce cfg env) (Run.start b) m).breaker.state = .closed := by
    intro m hm
    induction m with
    | zero =>
        exact hclosed
    | succ m ih =>
        have hbooks := inStep_stateBefore cfg env b m
        rw [RetryPolicy.stateBefore_succ]
        refine (executeOnce_of_closed cfg env (ih (by omega)) ?_ (hwork _)).2
        have hcalls := hbooks.calls_le
        have htotal := hbooks.requests_eq
        omega
  have hbooks := inStep_stateBefore cfg env b n
  have hcalls := hbooks.calls_le
  have htotal := hbooks.requests_eq
  exact ⟨_, (executeOnce_of_closed cfg env (hstate n le_rfl) (by omega) (hwork _)).1⟩

end Failing

/-- Work that always fails. -/
def broken : Surroundings String String where
  work _ := .error "TimeoutError"
  admittedAt n := n
  recordedAt n := n

theorem accounts_fails_at_attempt_1024 :
    ¬ Accounts { minRequests := 2000 } broken 1025 fresh
      (executeStep
        ⟨transientWork, some { minRequests := 2000 },
          some { threeRetries with maxRetries := 1025 }, fun _ => false⟩
        broken (Run.start fresh)) := by
  have hover : RetryPolicy.DelayOverflows { threeRetries with maxRetries := 1025 } 1024 :=
    (RetryPolicy.delayOverflows_iff_of_float rfl rfl rfl).mpr le_rfl
  refine not_accounts_of_overflow transientWork (fun _ => false) _
    (show ((1024 : ℕ) : ℤ) < 1025 by decide) hover (fun n hn => ?_)
  have hfails : ∀ n, broken.work n = .error "TimeoutError" := fun _ => rfl
  have hclosed : fresh.state = .closed := rfl
  obtain ⟨error, herror⟩ := attemptResult_of_failing { minRequests := 2000 } broken hfails hclosed n
    (show ((0 : ℕ) : ℤ) + n + 1 < 2000 by omega)
  rw [herror]
  rfl

end StepExecutor
end YamlAgno

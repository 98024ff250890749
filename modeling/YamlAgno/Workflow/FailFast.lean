import YamlAgno.Workflow.StepExecutor
import YamlAgno.Workflow.RetryRuns

/-!
# An open circuit inside the retry loop

`execute_step` leaves it to the error manager whether an attempt that the breaker has
rejected is retried: its `CircuitBreakerOpenError` is classified like any other error.  The
handler around the loop sees only the error that ends the run.

So a rejected attempt ends the step, with one report, exactly when that error is not
classified as retryable or when no attempt was left anyway (`executeStep_failsFast_iff`).
-/

namespace YamlAgno
namespace StepExecutor

open CircuitBreaker PyNumber
open RetryPolicy

/-- The error that the breaker itself has raised. -/
def isRejection {E : Type} : StepError E → Bool
  | .work _ => false
  | .circuitOpen => true

section FailFast

variable {E α C : Type} [DecidableEq C]
variable (cfg : CircuitBreaker.Settings) (env : Surroundings E α) (b : Breaker)

/-- Attempt `n` is rejected by the breaker. -/
def Rejected (n : ℕ) : Prop :=
  attemptResult (executeOnce cfg env) (Run.start b) n = .error .circuitOpen

variable (manager : ErrorHandlingManager (StepError E) C) (policy : RetryPolicy PyFloat)
  (isOpenError : E → Bool)

/-- All attempts before `n` are retried if the policy allows it. -/
def Reached (n : ℕ) : Prop :=
  ∀ i < n, ¬ DelayOverflows policy i ∧
    RetryableFailure manager (attemptResult (executeOnce cfg env) (Run.start b) i)

/-- The step ends with attempt `n`: none follows, only the earlier ones are followed by a
sleep, the open circuit is raised, and one report carries it. -/
structure EndsAtRejection
    (ended : Ended PyFloat (Run E α) (StepError E) (PolicyError (StepError E)) (Option α))
    (n : ℕ) : Prop where
  no_further_attempt : ended.state.attempts = n + 1
  no_further_sleep : (sleepsOf ended.events).length = n
  raised : ended.result = .error (.original .circuitOpen)
  reported_once : (reportsOf ended.events).countP (fun report => isRejection report.1) = 1

/-- A run with a breaker and a policy. -/
def composed : Ended PyFloat (Run E α) (StepError E) (PolicyError (StepError E)) (Option α) :=
  executeStep ⟨manager, some cfg, some policy, isOpenError⟩ env (Run.start b)

/-- The first attempt that is rejected ends the step. -/
def FailsFast : Prop :=
  ∀ n < (composed cfg env b manager policy isOpenError).state.attempts, Rejected cfg env b n →
    EndsAtRejection (composed cfg env b manager policy isOpenError) n

variable {cfg env b manager policy isOpenError}

/-- The policy reports the error of the attempt, if it is one to retry. -/
theorem mem_reportsOf_attemptAlone
    {S X : Type}
    {manager : ErrorHandlingManager X C}
    {func : S → Except X α × S}
    {s : S}
    {n : ℕ}
    {report : X × ReportContext}
    (h : report ∈ reportsOf (attemptAlone policy manager func s n).events) :
    attemptResult func s n = .error report.1 ∧ isRetryable manager report.1 = true := by
  by_cases hfinal : (n : ℤ) = policy.maxRetries ∨
      ¬ RetryableFailure manager (attemptResult func s n)
  · rw [attemptAlone_of_final hfinal] at h
    cases h
  · push Not at hfinal
    obtain ⟨hmore, hfailure⟩ := hfinal
    by_cases hover : DelayOverflows policy n
    · obtain ⟨exc, overflow, hresult, hretry, hloop⟩ :=
        executeFrom_of_overflow hfailure hmore hover
      rw [attemptAlone, hloop []] at h
      obtain rfl : report = (exc, .attempt n) := by simpa [reportsOf] using h
      exact ⟨hresult, hretry⟩
    · obtain ⟨exc, delay, hresult, hretry, -, halone⟩ :=
        attemptAlone_of_retried ⟨hfailure, hmore, hover⟩
      rw [halone] at h
      obtain rfl : report = (exc, .attempt n) := by simpa [reportsOf] using h
      exact ⟨hresult, hretry⟩

/-- A rejected attempt fails retryably as the manager says. -/
theorem retryableFailure_of_rejected
    {n : ℕ}
    (h : Rejected cfg env b n) :
    RetryableFailure manager (attemptResult (executeOnce cfg env) (Run.start b) n) ↔
      isRetryable manager .circuitOpen = true := by
  rw [h]
  rfl

/-- An attempt that is reached is made. -/
theorem le_lastMade_of_reached
    {n : ℕ}
    (hmore : (n : ℤ) ≤ policy.maxRetries)
    (h : Reached cfg env b manager policy n) :
    n ≤ lastMade policy manager (executeOnce cfg env) (Run.start b) := by
  by_contra hlt
  rcases lastMade_cases policy manager (executeOnce cfg env) (Run.start b) (by omega) with
    (hlast | hnot) | ⟨-, -, hover⟩
  · omega
  · exact hnot (h _ (by omega)).2
  · exact (h _ (by omega)).1 hover

variable (cfg env b manager policy isOpenError)

/-- The attempts of a step are those of its loop. -/
theorem composed_attempts
    (hmax : 0 ≤ policy.maxRetries) :
    (composed cfg env b manager policy isOpenError).state.attempts =
      lastMade policy manager (executeOnce cfg env) (Run.start b) + 1 := by
  have hstate : (composed cfg env b manager policy isOpenError).state =
      (policy.executeWithRetry manager (executeOnce cfg env) (Run.start b)).state :=
    reportOpen_state _ _
  rw [hstate, executeWithRetry_eq _ _ _ _ hmax, attemptAlone_state]
  exact (inStep_stateBefore cfg env b _).attempts_eq

variable {cfg env b manager policy}

/-- The handler reports the open circuit that has ended the loop. -/
theorem composed_of_raised
    (hraised : (policy.executeWithRetry manager (executeOnce cfg env) (Run.start b)).result =
      .error (.original .circuitOpen)) :
    composed cfg env b manager policy isOpenError =
      { policy.executeWithRetry manager (executeOnce cfg env) (Run.start b) with
        events :=
          (policy.executeWithRetry manager (executeOnce cfg env) (Run.start b)).events ++
            [.report .circuitOpen (.circuitBreaker "open")] } := by
  change reportOpen _ (policy.executeWithRetry manager (executeOnce cfg env) (Run.start b)) = _
  generalize policy.executeWithRetry manager (executeOnce cfg env) (Run.start b) = ended
    at hraised ⊢
  obtain ⟨result, state, events⟩ := ended
  cases hraised
  rfl

/-- The loop does not report a rejection that it does not retry. -/
theorem countP_rejections_eq_zero
    (hmax : 0 ≤ policy.maxRetries)
    (h : ∀ n ≤ lastMade policy manager (executeOnce cfg env) (Run.start b),
      Rejected cfg env b n → (n : ℤ) = policy.maxRetries ∨
        isRetryable manager .circuitOpen = false) :
    (reportsOf (policy.executeWithRetry manager (executeOnce cfg env)
      (Run.start b)).events).countP (fun report => isRejection report.1) = 0 := by
  rw [List.countP_eq_zero]
  intro report hmem hrejection
  rw [executeWithRetry_eq policy manager _ _ hmax, reportsOf_flatMap, List.mem_flatMap] at hmem
  obtain ⟨n, hn, hmem⟩ := hmem
  obtain ⟨hresult, hretry⟩ := mem_reportsOf_attemptAlone hmem
  have hopen : report.1 = .circuitOpen := by
    cases herror : report.1 with
    | work error =>
        rw [herror] at hrejection
        cases hrejection
    | circuitOpen => rfl
  rw [hopen] at hresult hretry
  rcases h n (by simpa [Nat.lt_succ_iff] using hn) hresult with hlast | hpermanent
  · rw [attemptAlone_of_final (Or.inl hlast)] at hmem
    cases hmem
  · rw [hpermanent] at hretry
    cases hretry

/-- A rejected attempt that is the last ends the step as it should. -/
theorem endsAtRejection_of_last
    (hmax : 0 ≤ policy.maxRetries)
    (hrejected : Rejected cfg env b
      (lastMade policy manager (executeOnce cfg env) (Run.start b)))
    (h : ∀ n ≤ lastMade policy manager (executeOnce cfg env) (Run.start b),
      Rejected cfg env b n → (n : ℤ) = policy.maxRetries ∨
        isRetryable manager .circuitOpen = false) :
    EndsAtRejection (composed cfg env b manager policy isOpenError)
      (lastMade policy manager (executeOnce cfg env) (Run.start b)) := by
  have hattempts := composed_attempts cfg env b manager policy isOpenError hmax
  have hsleeps := congrArg List.length
    (sleepsOf_executeWithRetry policy manager (executeOnce cfg env) (Run.start b) hmax)
  have hcount := countP_rejections_eq_zero hmax h
  have hraised : (policy.executeWithRetry manager (executeOnce cfg env) (Run.start b)).result =
      .error (.original .circuitOpen) := by
    rw [executeWithRetry_eq policy manager _ _ hmax, attemptAlone_of_final]
    · exact congrArg settled hrejected
    · refine (h _ le_rfl hrejected).imp_right fun hpermanent hfailure => ?_
      have hretry := (retryableFailure_of_rejected hrejected).mp hfailure
      rw [hpermanent] at hretry
      cases hretry
  rw [List.length_map, List.length_map, List.length_range] at hsleeps
  rw [composed_of_raised isOpenError hraised] at hattempts ⊢
  refine
    { no_further_attempt := hattempts
      no_further_sleep := ?_
      raised := hraised
      reported_once := ?_ }
  · simpa [sleepsOf] using hsleeps
  · rw [reportsOf, List.filterMap_append, List.countP_append]
    unfold reportsOf at hcount
    rw [hcount]
    rfl

/-- A rejected attempt that is retried does not end the step. -/
theorem not_endsAtRejection_of_retried
    (hretry : isRetryable manager .circuitOpen = true)
    {n : ℕ}
    (hmore : (n : ℤ) < policy.maxRetries)
    (hrejected : Rejected cfg env b n) :
    ¬ EndsAtRejection (composed cfg env b manager policy isOpenError) n := by
  intro hends
  have hmax : 0 ≤ policy.maxRetries := by omega
  have hattempts := composed_attempts cfg env b manager policy isOpenError hmax
  rw [hends.no_further_attempt] at hattempts
  have hlast : n = lastMade policy manager (executeOnce cfg env) (Run.start b) := by omega
  have hfailure := (retryableFailure_of_rejected hrejected).mpr hretry
  rcases lastMade_cases policy manager (executeOnce cfg env) (Run.start b) hmax with
    hfinal | ⟨-, -, hover⟩
  · rw [← hlast] at hfinal
    rcases hfinal with hexhausted | hnot
    · omega
    · exact hnot hfailure
  · -- The delay after the rejection overflows, and that error is raised instead.
    rw [← hlast] at hover
    obtain ⟨exc, overflow, -, -, hloop⟩ :=
      executeFrom_of_overflow hfailure (show (n : ℤ) ≠ policy.maxRetries by omega) hover
    have hresult : (composed cfg env b manager policy isOpenError).result =
        (policy.executeWithRetry manager (executeOnce cfg env) (Run.start b)).result :=
      reportOpen_result _ _
    have hraised := hends.raised
    rw [hresult, executeWithRetry_eq _ _ _ _ hmax, ← hlast, attemptAlone, hloop []] at hraised
    cases hraised

/--
A rejected attempt ends every step at once if and only if `CircuitBreakerOpenError` is not
classified as retryable, or no attempt that a run reaches before `max_retries` is rejected.
-/
theorem executeStep_failsFast_iff :
    FailsFast cfg env b manager policy isOpenError ↔
      isRetryable manager .circuitOpen = false ∨
        ∀ n : ℕ, (n : ℤ) < policy.maxRetries → Reached cfg env b manager policy n →
          ¬ Rejected cfg env b n := by
  constructor
  · intro hfast
    by_contra hcond
    push Not at hcond
    obtain ⟨hretry, n, hmore, hreached, hrejected⟩ := hcond
    have hretry' : isRetryable manager .circuitOpen = true := by simpa using hretry
    have hmade := le_lastMade_of_reached (show (n : ℤ) ≤ policy.maxRetries by omega) hreached
    have hattempts := composed_attempts cfg env b manager policy isOpenError (by omega)
    exact not_endsAtRejection_of_retried isOpenError hretry' hmore hrejected
      (hfast n (by omega) hrejected)
  · intro hcond n hmade hrejected
    by_cases hmax : 0 ≤ policy.maxRetries
    · rw [composed_attempts cfg env b manager policy isOpenError hmax] at hmade
      have hlast : ∀ m ≤ lastMade policy manager (executeOnce cfg env) (Run.start b),
          Rejected cfg env b m → (m : ℤ) = policy.maxRetries ∨
            isRetryable manager .circuitOpen = false := by
        intro m hm hrejected
        rcases hcond with hpermanent | hnone
        · exact Or.inr hpermanent
        · refine Or.inl ?_
          have hle := lastMade_le policy manager (executeOnce cfg env) (Run.start b)
          by_contra hne
          refine hnone m (by omega) (fun i hi => ?_) hrejected
          have hretried := retried_of_lt_lastMade policy manager (executeOnce cfg env)
            (Run.start b) (show i < _ by omega)
          exact ⟨hretried.delay, hretried.failure⟩
      have hsame : n = lastMade policy manager (executeOnce cfg env) (Run.start b) := by
        by_contra hne
        have hretried := retried_of_lt_lastMade policy manager (executeOnce cfg env)
          (Run.start b) (show n < _ by omega)
        rcases hlast n (by omega) hrejected with hexhausted | hpermanent
        · exact hretried.more hexhausted
        · have hretry := (retryableFailure_of_rejected hrejected).mp hretried.failure
          rw [hpermanent] at hretry
          cases hretry
      subst hsame
      exact endsAtRejection_of_last isOpenError hmax hrejected hlast
    · have hnone : (policy.maxRetries + 1).toNat = 0 := by omega
      have hcomposed : (composed cfg env b manager policy isOpenError).state.attempts = 0 := by
        change (reportOpen _ (executeFrom policy manager (executeOnce cfg env)
          (List.range (policy.maxRetries + 1).toNat) (Run.start b))).state.attempts = 0
        rw [hnone]
        rfl
      omega

end FailFast

/-- Every error is transient, an open circuit too. -/
def allTransient : ErrorHandlingManager (StepError String) String where
  transient := "transient"
  rateLimit := "rate_limit"
  classify _ := "transient"

/-- The first failure trips the breaker, and both retries are rejected and reported. -/
theorem open_circuit_retried :
    Rejected { minRequests := 1 } broken fresh 1 ∧
    (composed { minRequests := 1 } broken fresh allTransient
        { lowestDraw PyFloat with maxRetries := 2 } fun _ => false).state.attempts = 3 ∧
    (reportsOf (composed { minRequests := 1 } broken fresh allTransient
        { lowestDraw PyFloat with maxRetries := 2 } fun _ => false).events).countP
      (fun report => isRejection report.1) = 2 ∧
    ¬ FailsFast { minRequests := 1 } broken fresh allTransient
        { lowestDraw PyFloat with maxRetries := 2 } fun _ => false := by
  have hrejected : Rejected { minRequests := 1 } broken fresh 1 := by
    unfold Rejected
    decide +kernel
  have hattempts : (composed { minRequests := 1 } broken fresh allTransient
      { lowestDraw PyFloat with maxRetries := 2 } fun _ => false).state.attempts = 3 := by
    decide +kernel
  refine ⟨hrejected, hattempts, by decide +kernel, fun hfast => ?_⟩
  have hends := hfast 1 (by omega) hrejected
  exact absurd (hattempts.symm.trans hends.no_further_attempt) (by decide)

end StepExecutor
end YamlAgno

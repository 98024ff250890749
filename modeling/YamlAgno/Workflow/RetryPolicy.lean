import YamlAgno.Library.PyFloat
import Mathlib.Logic.Function.Iterate

/-!
# Retries with exponential backoff

`workflows/retry_policy.py`.  A policy calls a function again after a retryable
failure, up to `max_retries` times, and sleeps between two attempts.  The function
is any computation over a state; what the policy itself does to the world, the
reports to the error manager and the sleeps, is listed in order.

A delay is an integer or a float, as its parts are: `2**attempt` is an integer of any size,
and next to a float `base_delay` its conversion raises `OverflowError` from attempt 1024 on,
before the cap `max_delay` is looked at; an integer `base_delay` is multiplied exactly, and
what is left of it after the cap may still be too large for a drawn factor
(`calculateDelay_eq_error_iff`).  `executeWithRetry_cases` says how a run can end, this one
included.
-/

namespace YamlAgno

open PyNumber

/-- The error manager: two of its classifications, and how it classifies an error. -/
structure ErrorHandlingManager (X C : Type) where
  transient : C
  rateLimit : C
  classify : X → C

/-- The constructor arguments of a policy; `randomFn n` is the draw of attempt `n`. -/
structure RetryPolicy (F : Type) [FloatArithmetic F] where
  maxRetries : ℤ := 3
  baseDelay : Number F := .float (FloatArithmetic.ofRat 2)
  maxDelay : Number F := .float (FloatArithmetic.ofRat 60)
  jitter : Bool := true
  randomFn : ℕ → F → F → Number F

/-- The context of a report. -/
inductive ReportContext where
  | attempt (attempt : ℕ)
  | circuitBreaker (state : String)
deriving DecidableEq

/-- A call of `error_manager.report` or of `sleep_fn`. -/
inductive RetryEvent (F X : Type) where
  | report (error : X) (context : ReportContext)
  | sleep (delay : Number F)

/-- How a call ended, the state it left, and what it did to the world. -/
structure Ended (F S X Y α : Type) where
  result : Except Y α
  state : S
  events : List (RetryEvent F X)

/-- What a policy raises: an error of the function, or one of its own. -/
inductive PolicyError (X : Type) where
  | original (error : X)
  | overflow (error : OverflowError)
deriving DecidableEq

namespace RetryPolicy

section Methods

variable {F S X C α : Type} [FloatArithmetic F] [DecidableEq C]

/-- `is_retryable`. -/
def isRetryable
    (manager : ErrorHandlingManager X C)
    (error : X) :
    Bool :=
  manager.classify error == manager.transient || manager.classify error == manager.rateLimit

/-- `random_fn(0.5, 1.5)`. -/
def drawnFactor
    (policy : RetryPolicy F)
    (attempt : ℕ) :
    Number F :=
  policy.randomFn attempt (FloatArithmetic.ofRat (1 / 2)) (FloatArithmetic.ofRat (3 / 2))

/-- The first line of `calculate_delay`. -/
def cappedDelay
    (policy : RetryPolicy F)
    (attempt : ℕ) :
    Except OverflowError (Number F) := do
  let product ← policy.baseDelay.mul (.int (2 ^ attempt))
  return product.min policy.maxDelay

/-- `calculate_delay`. -/
def calculateDelay
    (policy : RetryPolicy F)
    (attempt : ℕ) :
    Except OverflowError (Number F) := do
  let delay ← policy.cappedDelay attempt
  if policy.jitter = true then delay.mul (policy.drawnFactor attempt) else return delay

/-- The loop of `execute_with_retry` over the attempts that are left. -/
def executeFrom
    (policy : RetryPolicy F)
    (manager : ErrorHandlingManager X C)
    (func : S → Except X α × S) :
    List ℕ → S → Ended F S X (PolicyError X) (Option α)
  | [], s => ⟨.ok none, s, []⟩
  | attempt :: rest, s =>
      let s' := (func s).2
      match (func s).1 with
      | .ok value => ⟨.ok (some value), s', []⟩
      | .error exc =>
          if isRetryable manager exc = false then ⟨.error (.original exc), s', []⟩
          else if (attempt : ℤ) = policy.maxRetries then ⟨.error (.original exc), s', []⟩
          else
            match policy.calculateDelay attempt with
            | .error overflow =>
                ⟨.error (.overflow overflow), s', [.report exc (.attempt attempt)]⟩
            | .ok delay =>
                let ended := executeFrom policy manager func rest s'
                { ended with
                  events := .report exc (.attempt attempt) :: .sleep delay :: ended.events }

/--
`execute_with_retry`.  A loop over no attempt at all, which a negative `max_retries`
gives, returns `None`.
-/
def executeWithRetry
    (policy : RetryPolicy F)
    (manager : ErrorHandlingManager X C)
    (func : S → Except X α × S)
    (s : S) :
    Ended F S X (PolicyError X) (Option α) :=
  executeFrom policy manager func (List.range (policy.maxRetries + 1).toNat) s

end Methods

/-! ## The delays -/

section Delays

variable {F : Type} [FloatArithmetic F]

/--
The delay of an attempt overflows: `base_delay` is a float and the power of two too large for
one, or what is left after the cap and the factor drawn for it are a float and an integer that
is too large.
-/
def DelayOverflows
    (policy : RetryPolicy F)
    (attempt : ℕ) : Prop :=
  (∃ base, policy.baseDelay = .float base ∧ 1024 ≤ attempt) ∨
    policy.jitter = true ∧ ∃ delay, policy.cappedDelay attempt = .ok delay ∧
      delay.Overflows (policy.drawnFactor attempt)

theorem cappedDelay_eq_error_iff
    (policy : RetryPolicy F)
    (attempt : ℕ) :
    (∃ overflow, policy.cappedDelay attempt = .error overflow) ↔
      ∃ base, policy.baseDelay = .float base ∧ 1024 ≤ attempt := by
  have hmul := Number.mul_eq_error_iff (a := policy.baseDelay) (b := .int (2 ^ attempt))
  have hcapped : (∃ overflow, policy.cappedDelay attempt = .error overflow) ↔
      ∃ overflow, policy.baseDelay.mul (.int (2 ^ attempt)) = .error overflow := by
    unfold cappedDelay
    cases policy.baseDelay.mul (.int (2 ^ attempt)) <;> simp [bind, Except.bind, pure, Except.pure]
  rw [hcapped, hmul]
  cases policy.baseDelay with
  | int n => simp [Number.Overflows]
  | float base => simp [Number.overflows_float_two_pow_iff]

/-- Exactly then `calculate_delay` raises. -/
theorem calculateDelay_eq_error_iff
    (policy : RetryPolicy F)
    (attempt : ℕ) :
    (∃ overflow, policy.calculateDelay attempt = .error overflow) ↔
      DelayOverflows policy attempt := by
  rw [DelayOverflows, ← cappedDelay_eq_error_iff]
  unfold calculateDelay
  cases policy.cappedDelay attempt with
  | error overflow => simp [bind, Except.bind]
  | ok delay =>
      have hmul := Number.mul_eq_error_iff (a := delay) (b := policy.drawnFactor attempt)
      by_cases hjitter : policy.jitter = true
      · simp [bind, Except.bind, hjitter, hmul]
      · simp [bind, Except.bind, pure, Except.pure, hjitter]

/-- An integer is capped before it meets a float. -/
example :
    calculateDelay
        { baseDelay := .int 60, jitter := false, randomFn := fun _ low _ => .float low } 1024 =
      .ok (.float (.finite 60) : Number PyFloat) := by
  decide +kernel

theorem calculateDelay_eq_ok_iff
    (policy : RetryPolicy F)
    (attempt : ℕ) :
    (∃ delay, policy.calculateDelay attempt = .ok delay) ↔ ¬ DelayOverflows policy attempt := by
  rw [← calculateDelay_eq_error_iff]
  cases policy.calculateDelay attempt <;> simp

instance decidableDelayOverflows
    (policy : RetryPolicy F)
    (attempt : ℕ) :
    Decidable (DelayOverflows policy attempt) :=
  decidable_of_iff ((policy.calculateDelay attempt).toOption.isNone = true) (by
    rw [← calculateDelay_eq_error_iff]
    cases policy.calculateDelay attempt <;> simp [Except.toOption])

/-- Delays that are all floats overflow from attempt 1024 on. -/
theorem delayOverflows_iff_of_float
    {policy : RetryPolicy F}
    {base cap : F}
    (hbase : policy.baseDelay = .float base)
    (hcap : policy.maxDelay = .float cap)
    {attempt : ℕ}
    {factor : F}
    (hfactor : policy.drawnFactor attempt = .float factor) :
    DelayOverflows policy attempt ↔ 1024 ≤ attempt := by
  refine ⟨?_, fun hle => Or.inl ⟨base, hbase, hle⟩⟩
  rintro (⟨_, -, hle⟩ | ⟨-, delay, hdelay, hover⟩)
  · exact hle
  · obtain ⟨x, rfl⟩ : ∃ x, delay = .float x := by
      unfold cappedDelay at hdelay
      rw [hbase, hcap, Number.mul] at hdelay
      cases hpower : intToFloat (FloatArithmetic.ofRat (F := F)) (2 ^ attempt) with
      | error overflow =>
          rw [hpower] at hdelay
          cases hdelay
      | ok power =>
          rw [hpower] at hdelay
          cases hdelay
          unfold Number.min
          split_ifs
          · exact ⟨_, rfl⟩
          · exact ⟨_, rfl⟩
    rw [hfactor] at hover
    exact hover.elim

end Delays

/-! ## How a run can end -/

section Runs

variable {F S X C α : Type} [FloatArithmetic F]

/-- The state before attempt `n`, counted from zero. -/
def stateBefore
    (func : S → Except X α × S)
    (s : S)
    (n : ℕ) :
    S :=
  (fun s => (func s).2)^[n] s

/-- How attempt `n` ends. -/
def attemptResult
    (func : S → Except X α × S)
    (s : S)
    (n : ℕ) :
    Except X α :=
  (func (stateBefore func s n)).1

theorem stateBefore_succ
    (func : S → Except X α × S)
    (s : S)
    (n : ℕ) :
    stateBefore func s (n + 1) = (func (stateBefore func s n)).2 := by
  exact Function.iterate_succ_apply' _ n s

/-- The result of an attempt that is not followed by another. -/
def settled : Except X α → Except (PolicyError X) (Option α)
  | .ok value => .ok (some value)
  | .error error => .error (.original error)

variable [DecidableEq C]

/-- An attempt after which the policy tries again if it may. -/
def RetryableFailure
    (manager : ErrorHandlingManager X C) :
    Except X α → Prop
  | .ok _ => False
  | .error exc => isRetryable manager exc = true

variable (policy : RetryPolicy F) (manager : ErrorHandlingManager X C)
  (func : S → Except X α × S) (s : S)

/--
The ways a run can end: all its attempts but the last have failed retryably, and
the last one is final, or it has failed retryably too and its delay overflows.
-/
inductive EndsAfter (first : ℕ) (n : ℕ) : Ended F S X (PolicyError X) (Option α) → Prop where
  | final
      {events : List (RetryEvent F X)}
      (before : ∀ i, first ≤ i → i < n →
        ¬ DelayOverflows policy i ∧ RetryableFailure manager (attemptResult func s i))
      (last : n = policy.maxRetries ∨ ¬ RetryableFailure manager (attemptResult func s n)) :
      EndsAfter first n
        ⟨settled (attemptResult func s n), stateBefore func s (n + 1), events⟩
  | overflows
      {overflow : OverflowError}
      {events : List (RetryEvent F X)}
      (before : ∀ i, first ≤ i → i ≤ n → RetryableFailure manager (attemptResult func s i))
      (below : ∀ i, first ≤ i → i < n → ¬ DelayOverflows policy i)
      (above : DelayOverflows policy n)
      (more : n < policy.maxRetries) :
      EndsAfter first n ⟨.error (.overflow overflow), stateBefore func s (n + 1), events⟩

variable {policy manager func s}

/-- The loop ends with an attempt that succeeds, is the last or has failed for good. -/
theorem executeFrom_of_final
    {n : ℕ}
    (hlast : n = policy.maxRetries ∨ ¬ RetryableFailure manager (attemptResult func s n))
    (rest : List ℕ) :
    executeFrom policy manager func (n :: rest) (stateBefore func s n) =
      ⟨settled (attemptResult func s n), stateBefore func s (n + 1), []⟩ := by
  rw [stateBefore_succ]
  unfold attemptResult at hlast ⊢
  rw [executeFrom]
  cases hcall : (func (stateBefore func s n)).1 with
  | ok value =>
    rfl
  | error exc =>
    rw [hcall] at hlast
    by_cases hretry : isRetryable manager exc = false
    · simp only [hretry, if_true, settled]
    · have hmax : n = policy.maxRetries := by
        rcases hlast with hmax | hfinal
        · exact hmax
        · exact absurd (Bool.eq_true_of_not_eq_false hretry) hfinal
      simp only [if_neg hretry, if_pos hmax, settled]

/-- After a retryable failure the loop reports and computes the delay. -/
theorem executeFrom_of_retry
    {n : ℕ}
    (hmax : n ≠ policy.maxRetries)
    (hretry : RetryableFailure manager (attemptResult func s n))
    (rest : List ℕ) :
    (¬ DelayOverflows policy n ∧ ∃ events,
      executeFrom policy manager func (n :: rest) (stateBefore func s n) =
        { executeFrom policy manager func rest (stateBefore func s (n + 1)) with
          events := events }) ∨
    (DelayOverflows policy n ∧ ∃ overflow events,
      executeFrom policy manager func (n :: rest) (stateBefore func s n) =
        ⟨.error (.overflow overflow), stateBefore func s (n + 1), events⟩) := by
  rw [stateBefore_succ]
  unfold attemptResult at hretry
  rw [executeFrom]
  cases hcall : (func (stateBefore func s n)).1 with
  | ok value =>
    rw [hcall] at hretry
    exact hretry.elim
  | error exc =>
    rw [hcall] at hretry
    have hretry' : isRetryable manager exc = true := hretry
    simp only [hretry', Bool.true_eq_false, if_false, hmax]
    cases hd : policy.calculateDelay n with
    | ok delay =>
        exact Or.inl ⟨(calculateDelay_eq_ok_iff policy n).mp ⟨delay, hd⟩, _, rfl⟩
    | error overflow =>
        exact Or.inr ⟨(calculateDelay_eq_error_iff policy n).mp ⟨overflow, hd⟩, overflow, _, rfl⟩

/-- An attempt that is retried comes before the run of the others. -/
theorem EndsAfter.retried
    {first n : ℕ}
    {ended : Ended F S X (PolicyError X) (Option α)}
    (hretry : RetryableFailure manager (attemptResult func s first))
    (hdelay : ¬ DelayOverflows policy first)
    (h : EndsAfter policy manager func s (first + 1) n ended)
    (events : List (RetryEvent F X)) :
    EndsAfter policy manager func s first n { ended with events := events } := by
  cases h with
  | final before last =>
      refine .final (fun i hi hlt => ?_) last
      rcases Nat.eq_or_lt_of_le hi with rfl | hi
      · exact ⟨hdelay, hretry⟩
      · exact before i hi hlt
  | overflows before below above more =>
      refine .overflows (fun i hi hlt => ?_) (fun i hi hlt => ?_) above more
      · rcases Nat.eq_or_lt_of_le hi with rfl | hi
        · exact hretry
        · exact before i hi hlt
      · rcases Nat.eq_or_lt_of_le hi with rfl | hi
        · exact hdelay
        · exact below i hi hlt

variable (policy manager func s)

/-- The loop over the attempts from `first` to `max_retries`. -/
theorem executeFrom_endsAfter
    (first : ℕ)
    {more : ℕ}
    (hmax : ((first + more : ℕ) : ℤ) = policy.maxRetries) :
    ∃ n, first ≤ n ∧ n ≤ first + more ∧
      EndsAfter policy manager func s first n
        (executeFrom policy manager func (List.range' first (more + 1))
          (stateBefore func s first)) := by
  induction more generalizing first with
  | zero =>
      refine ⟨first, le_rfl, le_rfl, ?_⟩
      rw [Nat.add_zero] at hmax
      rw [List.range'_succ, executeFrom_of_final (Or.inl hmax)]
      exact .final (fun i hi hlt => absurd hi (by omega)) (Or.inl hmax)
  | succ more ih =>
      rw [List.range'_succ]
      by_cases hretry : RetryableFailure manager (attemptResult func s first)
      · have hne : (first : ℤ) ≠ policy.maxRetries := by omega
        rcases executeFrom_of_retry hne hretry (List.range' (first + 1) (more + 1)) with
          ⟨hdelay, events, hended⟩ | ⟨hdelay, overflow, events, hended⟩
        · obtain ⟨n, hfirst, hn, hends⟩ := ih (first + 1) (by omega)
          refine ⟨n, by omega, by omega, ?_⟩
          rw [hended]
          exact hends.retried hretry hdelay events
        · refine ⟨first, le_rfl, by omega, ?_⟩
          rw [hended]
          refine .overflows (fun i hi hle => ?_) (fun i hi hlt => ?_) hdelay (by omega)
          · obtain rfl : i = first := by omega
            exact hretry
          · omega
      · refine ⟨first, le_rfl, by omega, ?_⟩
        rw [executeFrom_of_final (Or.inr hretry)]
        exact .final (fun i hi hlt => absurd hi (by omega)) (Or.inr hretry)

/-- The ways a call of `execute_with_retry` can end. -/
theorem executeWithRetry_cases
    (hmax : 0 ≤ policy.maxRetries) :
    ∃ n : ℕ, (n : ℤ) ≤ policy.maxRetries ∧
      EndsAfter policy manager func s 0 n (executeWithRetry policy manager func s) := by
  obtain ⟨retries, hretries⟩ := Int.eq_ofNat_of_zero_le hmax
  obtain ⟨n, -, hn, hends⟩ :=
    executeFrom_endsAfter policy manager func s 0 (show ((0 + retries : ℕ) : ℤ) = _ by omega)
  refine ⟨n, by omega, ?_⟩
  have hcount : (policy.maxRetries + 1).toNat = retries + 1 := by omega
  rw [executeWithRetry, hcount, List.range_eq_range']
  exact hends

/-- A run ends in an overflow exactly if it comes to a delay that overflows. -/
theorem executeWithRetry_overflows_iff
    (hmax : 0 ≤ policy.maxRetries) :
    (∃ overflow, (executeWithRetry policy manager func s).result =
        .error (.overflow overflow)) ↔
      ∃ n : ℕ, (n : ℤ) < policy.maxRetries ∧ DelayOverflows policy n ∧
        ∀ i ≤ n, RetryableFailure manager (attemptResult func s i) := by
  obtain ⟨n, hn, hends⟩ := executeWithRetry_cases policy manager func s hmax
  generalize executeWithRetry policy manager func s = ended at hends
  cases hends with
  | final before last =>
      constructor
      · rintro ⟨overflow, h⟩
        simp only at h
        unfold settled at h
        split at h <;> cases h
      · rintro ⟨m, hmore, hover, hall⟩
        have hle : n ≤ m := by
          by_contra hlt
          exact (before m (Nat.zero_le m) (by omega)).1 hover
        rcases last with hlast | hlast
        · omega
        · exact absurd (hall n hle) hlast
  | overflows before below above more =>
      exact ⟨fun _ => ⟨n, more, above, fun i hi => before i (Nat.zero_le i) hi⟩, fun _ => ⟨_, rfl⟩⟩

end Runs

end RetryPolicy
end YamlAgno

import YamlAgno.Resilience.ConcurrentBreaker
import Mathlib.Order.WellFounded
import Mathlib.Algebra.Order.Group.Unbundled.Basic
import Mathlib.Algebra.Order.Ring.Rat

/-!
# The breaker never wedges

A breaker that refuses every later request would never recover.  The probes of
a `HALF_OPEN` episode are counted when they succeed, so `half_open_calls` is
bounded by `success_count`, and an episode that reaches the bound has closed the
circuit before the next request is looked at.  This account survives late
results of older requests and results that never come.

The invariant is stated for arbitrary sequences of method calls.  Runs of
concurrent `execute` calls are such sequences (`run_breaker`), and there
the refused requests of a run end: the calls in flight are used up, and from
then on the breaker stands still until its timeout has passed.
-/

namespace YamlAgno
namespace CircuitBreaker

section Account

variable {cfg : Settings}

/-- The probes counted in `HALF_OPEN` are successes, and there is room for one more. -/
structure ProbeAccount (cfg : Settings) (b : Breaker) : Prop where
  calls_le_successes :
    b.state = .halfOpen → b.halfOpenCalls ≤ b.successCount
  calls_lt_max :
    b.state = .halfOpen → (b.halfOpenCalls : Int) < cfg.halfOpenMaxCalls

/-- Outside `HALF_OPEN` there is nothing to account for. -/
theorem probeAccount_of_ne
    {b : Breaker}
    (h : b.state ≠ .halfOpen) :
    ProbeAccount cfg b where
  calls_le_successes h' := absurd h' h
  calls_lt_max h' := absurd h' h

theorem probeAccount_fresh :
    ProbeAccount cfg fresh :=
  probeAccount_of_ne (by decide)

/-- A new episode starts with no probe counted. -/
theorem probeAccount_allowRequest
    {b : Breaker}
    (hmax : 1 ≤ cfg.halfOpenMaxCalls)
    (now : ℚ)
    (hb : ProbeAccount cfg b) :
    ProbeAccount cfg (allowRequest cfg now b).2 := by
  rcases allowRequest_cases cfg now b with
    ⟨-, h⟩ | ⟨-, -, h⟩ | ⟨-, -, h⟩ | ⟨-, h⟩
  · rw [h]
    exact hb
  · rw [h]
    exact
      { calls_le_successes := fun _ => Nat.zero_le _
        calls_lt_max := fun _ => by
          have hzero : (0 : Int) < cfg.halfOpenMaxCalls := by omega
          exact hzero }
  · rw [h]
    exact hb
  · rw [h]
    exact hb

/-- A success that leaves the episode open is below the bound, and so are its probes. -/
theorem probeAccount_recordSuccess
    {b : Breaker}
    (hb : ProbeAccount cfg b) :
    ProbeAccount cfg (recordSuccess cfg b) := by
  rcases recordSuccess_cases cfg b with
    ⟨hne, h⟩ | ⟨hstate, hlt, h⟩ | ⟨-, -, h⟩
  · rw [h]
    exact probeAccount_of_ne hne
  · have hle := hb.calls_le_successes hstate
    rw [h]
    refine ⟨fun _ => ?_, fun _ => ?_⟩
    · dsimp only
      omega
    · dsimp only
      omega
  · rw [h]
    exact probeAccount_of_ne (by simp)

/-- A failure never leaves the breaker in `HALF_OPEN`. -/
theorem probeAccount_recordFailure
    (now : ℚ)
    (b : Breaker) :
    ProbeAccount cfg (recordFailure cfg now b) := by
  rcases recordFailure_cases cfg now b with h | ⟨hne, h⟩
  · rw [h]
    exact probeAccount_of_ne (by simp)
  · rw [h]
    exact probeAccount_of_ne hne

theorem probeAccount_applyOp
    {b b' : Breaker} {op : Op}
    (hmax : 1 ≤ cfg.halfOpenMaxCalls)
    (hb : ProbeAccount cfg b)
    (hstep : applyOp cfg b op = some b') :
    ProbeAccount cfg b' := by
  cases op with
  | allowRequest now =>
      cases hstep
      exact probeAccount_allowRequest hmax now hb
  | recordSuccess =>
      cases hstep
      exact probeAccount_recordSuccess hb
  | recordFailure now =>
      cases hstep
      exact probeAccount_recordFailure now b

/-- The account is in order in every reachable state. -/
theorem probeAccount_of_run
    {ops : List Op} {b : Breaker}
    (hmax : 1 ≤ cfg.halfOpenMaxCalls)
    (hrun : Runs.run (applyOp cfg) fresh ops = some b) :
    ProbeAccount cfg b :=
  Runs.run_invariant (fun _ _ _ => probeAccount_applyOp hmax)
    probeAccount_fresh hrun

/-! ## Admission -/

/-- In `HALF_OPEN` with room the answer is `True`, whatever the clock says. -/
theorem allowRequest_of_halfOpen
    {b : Breaker}
    (hstate : b.state = .halfOpen)
    (hcalls : (b.halfOpenCalls : Int) < cfg.halfOpenMaxCalls)
    (now : ℚ) :
    (allowRequest cfg now b).1 = true := by
  simp [allowRequest, hstate, hcalls]

/-- In `OPEN` the answer is `True` once the timeout has passed. -/
theorem allowRequest_of_opened
    {b : Breaker}
    (hstate : b.state = .opened)
    {now : ℚ}
    (htime : cfg.recoveryTimeout ≤ now - b.lastFailureTime) :
    (allowRequest cfg now b).1 = true := by
  simp [allowRequest, hstate, htime]

/-- Whatever the state, requests are admitted from some time on. -/
theorem exists_admission_time
    {b : Breaker}
    (hb : ProbeAccount cfg b) :
    ∃ T : ℚ, ∀ now, T ≤ now → (allowRequest cfg now b).1 = true := by
  cases hstate : b.state with
  | closed =>
      exact ⟨0, fun now _ => by simp [allowRequest, hstate]⟩
  | opened =>
      refine ⟨cfg.recoveryTimeout + b.lastFailureTime, fun now hnow => ?_⟩
      exact allowRequest_of_opened hstate (le_sub_iff_add_le.mpr hnow)
  | halfOpen =>
      exact ⟨0, fun now _ =>
        allowRequest_of_halfOpen hstate (hb.calls_lt_max hstate) now⟩

end Account

end CircuitBreaker

namespace ConcurrentBreaker

open CircuitBreaker

section Projection

variable {cfg : Settings}

/-- The breaker's part of an atomic step is one call of a public method. -/
def methodOf : Action → Op
  | .enter now => .allowRequest now
  | .success _ => .recordSuccess
  | .failure _ now => .recordFailure now

theorem applyOp_methodOf
    {s s' : State} {a : Action}
    (h : step cfg s a = some s') :
    applyOp cfg s.breaker (methodOf a) = some s'.breaker := by
  cases a with
  | enter now =>
      simp only [step] at h
      split_ifs at h with hallow
      · cases h
        simp only [methodOf, applyOp, admission]
        split <;> rfl
      · cases h
        simp [methodOf, applyOp]
  | success call =>
      obtain ⟨-, rfl⟩ := success_cases h
      rfl
  | failure call now =>
      obtain ⟨-, rfl⟩ := failure_cases h
      rfl

/-- The breaker of a concurrent run is reached by the methods the run calls. -/
theorem run_breaker
    {as : List Action} {s s' : State}
    (hrun : Runs.run (step cfg) s as = some s') :
    Runs.run (applyOp cfg) s.breaker (as.map methodOf) = some s'.breaker := by
  induction as generalizing s with
  | nil =>
      cases hrun
      rfl
  | cons a as ih =>
      obtain ⟨t, ht, hrest⟩ := (Runs.run_cons_eq_some _).mp hrun
      rw [List.map_cons, Runs.run_cons, applyOp_methodOf ht]
      exact ih hrest

/-! ## Refused requests end -/

/-- An action that admits nothing changes nothing or takes a call out of flight. -/
theorem step_of_not_admitted
    {s s' : State} {a : Action}
    (hrefuse : ∀ now, a = .enter now → (allowRequest cfg now s.breaker).1 ≠ true)
    (h : step cfg s a = some s') :
    s' = s ∨ s'.inFlight.length < s.inFlight.length := by
  cases a with
  | enter now =>
      have hno := hrefuse now rfl
      simp only [step, if_neg hno, Option.some.injEq] at h
      subst h
      left
      rw [allowRequest_of_rejected _ hno]
  | success call =>
      obtain ⟨hmem, rfl⟩ := success_cases h
      right
      have hpos := List.length_pos_of_mem hmem
      have := List.length_erase_of_mem hmem
      dsimp only
      omega
  | failure call now =>
      obtain ⟨hmem, rfl⟩ := failure_cases h
      right
      have hpos := List.length_pos_of_mem hmem
      have := List.length_erase_of_mem hmem
      dsimp only
      omega

/--
In an endless schedule whose requests come at later and later times some request
is admitted, whatever the calls in flight do.
-/
theorem exists_admitted
    (hmax : 1 ≤ cfg.halfOpenMaxCalls)
    (actions : List Action)
    (schedule : Nat → Action)
    (states : Nat → State)
    (hrun : Runs.run (step cfg) initial actions = some (states 0))
    (hstep : ∀ n, step cfg (states n) (schedule n) = some (states (n + 1)))
    (hrequests : ∀ (T : ℚ) (N : Nat), ∃ n, N ≤ n ∧ ∃ now, T ≤ now ∧ schedule n = .enter now) :
    ∃ n now, schedule n = .enter now ∧
      (allowRequest cfg now (states n).breaker).1 = true := by
  by_contra hnone
  push Not at hnone
  have haccount : ∀ n, ProbeAccount cfg (states n).breaker := by
    intro n
    induction n with
    | zero =>
        exact probeAccount_of_run hmax (run_breaker hrun)
    | succ n ih =>
        exact probeAccount_applyOp hmax ih (applyOp_methodOf (hstep n))
  have hnext := fun n => step_of_not_admitted (hnone n) (hstep n)
  -- from the state with the fewest calls in flight on, nothing is recorded any more
  let N := Function.argmin (fun n => (states n).inFlight.length)
  have hfewest : ∀ n, (states N).inFlight.length ≤ (states n).inFlight.length :=
    fun n => Function.argmin_le (fun n => (states n).inFlight.length) n
  have hstill : ∀ k, states (N + k) = states N := by
    intro k
    induction k with
    | zero =>
        rfl
    | succ k ih =>
        rcases hnext (N + k) with hsame | hless
        · exact hsame.trans ih
        · have := hfewest (N + k + 1)
          rw [ih] at hless
          omega
  obtain ⟨T, hT⟩ := exists_admission_time (haccount N)
  obtain ⟨n, hn, now, hnow, hact⟩ := hrequests T N
  obtain ⟨k, rfl⟩ := Nat.exists_eq_add_of_le hn
  refine hnone (N + k) now hact ?_
  rw [hstill k]
  exact hT now hnow

end Projection
end ConcurrentBreaker
end YamlAgno

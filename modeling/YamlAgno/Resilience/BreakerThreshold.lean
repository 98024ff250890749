import YamlAgno.Resilience.CircuitBreaker
import Mathlib.Tactic.GCongr
import Mathlib.Tactic.Positivity

/-!
# The failure rate of a closed breaker

`record_failure` evaluates the threshold, `record_success` does not.  A success can only
lower the rate of a breaker whose floor `min_requests` is reached already, since rounding
keeps the order, so the omission shows in one place: the request that reaches the floor.  If
it is a failure the rate is evaluated, if it is a success the breaker stays `CLOSED` at
whatever rate it has.  A threshold that is NaN never trips the breaker, and no rate is below
it.
-/

namespace YamlAgno
namespace CircuitBreaker

open PyNumber

/-- One recorded request, with the clock value that recording a failure reads. -/
inductive Recorded where
  | success
  | failure (now : ℚ)

section Threshold

variable (cfg : Settings)

/-- The record of one request; every record is enabled. -/
def applyRecord (b : Breaker) : Recorded → Option Breaker
  | .success => some (recordSuccess cfg b)
  | .failure now => some (recordFailure cfg now b)

/-- A closed breaker with enough requests is below its threshold. -/
def BelowThreshold (b : Breaker) : Prop :=
  b.state = .closed → cfg.minRequests ≤ (b.totalRequests : Int) →
    Number.lt (.float (failureRate b)) cfg.failureThreshold = true

/--
A success that is the request which reaches the floor of a closed breaker finds few enough
failures among the requests counted so far, itself included.  A failure is sound unless the
threshold is NaN.
-/
def FloorSound (b : Breaker) (op : Recorded) : Prop :=
  b.state = .closed → (b.totalRequests : Int) + 1 = cfg.minRequests →
    match op with
    | .failure _ => cfg.failureThreshold.place ≠ none
    | .success =>
        Number.lt (.float (percentage b.failureCount (b.totalRequests + 1)))
          cfg.failureThreshold = true

variable {cfg}

theorem exists_applyRecord
    (b : Breaker)
    (op : Recorded) :
    ∃ b', applyRecord cfg b op = some b' := by
  cases op with
  | success => exact ⟨_, rfl⟩
  | failure now => exact ⟨_, rfl⟩

/-- A success outside `HALF_OPEN` is counted, and nothing else happens. -/
theorem recordSuccess_of_ne_halfOpen
    {b : Breaker}
    (hb : b.state ≠ .halfOpen) :
    recordSuccess cfg b = { b with
      totalRequests := b.totalRequests + 1
      successCount := b.successCount + 1 } := by
  rcases recordSuccess_cases cfg b with ⟨-, h⟩ | ⟨hstate, -⟩ | ⟨hstate, -⟩
  · exact h
  · exact absurd hstate hb
  · exact absurd hstate hb

/-- Such a success adds one request and no failure. -/
theorem failureRate_recordSuccess
    {b : Breaker}
    (hb : b.state ≠ .halfOpen) :
    failureRate (recordSuccess cfg b) = percentage b.failureCount (b.totalRequests + 1) := by
  rw [recordSuccess_of_ne_halfOpen hb]
  rfl

/-- It leaves the state as it is. -/
theorem state_recordSuccess
    {b : Breaker}
    (hb : b.state ≠ .halfOpen) :
    (recordSuccess cfg b).state = b.state := by
  rw [recordSuccess_of_ne_halfOpen hb]

/-- The records alone never start a `HALF_OPEN` episode. -/
theorem applyRecord_state_ne_halfOpen
    {b b' : Breaker} {op : Recorded}
    (hb : b.state ≠ .halfOpen)
    (hstep : applyRecord cfg b op = some b') :
    b'.state ≠ .halfOpen := by
  cases op with
  | success =>
      cases hstep
      rw [state_recordSuccess hb]
      exact hb
  | failure now =>
      cases hstep
      rcases recordFailure_cases cfg now b with h | ⟨-, h⟩
      · rw [h]
        exact CircuitState.noConfusion
      · rw [h]
        exact hb

/-- More requests with as many failures do not raise the rate. -/
theorem percentage_antitone
    {total total' : ℕ}
    (failures : ℕ)
    (hpos : 0 < total)
    (h : total ≤ total') :
    Number.le (.float (percentage failures total')) (.float (percentage failures total)) =
      true := by
  have hle : (total : ℚ) ≤ (total' : ℚ) := by exact_mod_cast h
  have htotal : (0 : ℚ) < (total : ℚ) := by exact_mod_cast hpos
  refine PyFloat.ofRat_mul_le_ofRat_mul ?_ ?_ ?_
  · positivity
  · gcongr
  · norm_num

/-- A rate is never NaN. -/
theorem place_percentage_ne_none
    (failures : ℕ)
    {total : ℕ}
    (hpos : 0 < total) :
    (Number.float (percentage failures total)).place ≠ none := by
  intro hnone
  have hle := percentage_antitone failures hpos le_rfl
  rw [Number.le, hnone] at hle
  cases hle

/-- A failure that leaves the breaker closed was evaluated and found below the threshold. -/
theorem belowThreshold_recordFailure
    (hmin : 1 ≤ cfg.minRequests)
    (hnumber : cfg.failureThreshold.place ≠ none)
    (now : ℚ)
    (b : Breaker) :
    BelowThreshold cfg (recordFailure cfg now b) := by
  intro hclosed hfloor
  unfold recordFailure at hclosed hfloor ⊢
  dsimp only at hclosed hfloor ⊢
  split_ifs at hclosed hfloor ⊢ with htrip
  · have hnot := fun h => htrip (Or.inr h)
    unfold shouldTrip at hnot
    rw [if_neg (by omega), if_neg (by omega)] at hnot
    exact (Number.le_eq_false_iff hnumber (place_percentage_ne_none _ (Nat.succ_pos _))).mp
      (Bool.eq_false_of_not_eq_true hnot)

/-- A success keeps a closed breaker below its threshold unless it reaches the floor above it. -/
theorem belowThreshold_recordSuccess
    (hmin : 1 ≤ cfg.minRequests)
    {b : Breaker}
    (hb : b.state ≠ .halfOpen)
    (hbelow : BelowThreshold cfg b)
    (hfloor : FloorSound cfg b .success) :
    BelowThreshold cfg (recordSuccess cfg b) := by
  intro hclosed hreached
  rw [state_recordSuccess hb] at hclosed
  rw [recordSuccess_totalRequests] at hreached
  rw [failureRate_recordSuccess hb]
  by_cases hat : (b.totalRequests : Int) + 1 = cfg.minRequests
  · exact hfloor hclosed hat
  · have hbefore : cfg.minRequests ≤ (b.totalRequests : Int) := by
      push_cast at hreached
      omega
    exact Number.lt_of_le_of_lt
      (percentage_antitone b.failureCount (by omega) (Nat.le_succ b.totalRequests))
      (hbelow hclosed hbefore)

/-- A failure leaves the breaker open, or keeps it below its threshold unless that is NaN. -/
theorem belowThreshold_applyFailure
    (hmin : 1 ≤ cfg.minRequests)
    (now : ℚ)
    {b : Breaker}
    (hbelow : BelowThreshold cfg b)
    (hfloor : FloorSound cfg b (.failure now)) :
    BelowThreshold cfg (recordFailure cfg now b) := by
  by_cases hnumber : cfg.failureThreshold.place = none
  · intro hclosed hreached
    rw [recordFailure_totalRequests] at hreached
    have hstate : b.state = .closed := by
      rcases recordFailure_cases cfg now b with h | ⟨-, h⟩
      · rw [h] at hclosed
        cases hclosed
      · rw [h] at hclosed
        exact hclosed
    by_cases hat : (b.totalRequests : Int) + 1 = cfg.minRequests
    · exact absurd hnumber (hfloor hstate hat)
    · have hrate := hbelow hstate (by push_cast at hreached; omega)
      rw [Number.lt_eq_false_of_place_eq_none hnumber] at hrate
      cases hrate
  · exact belowThreshold_recordFailure hmin hnumber now b

/-- The request that reaches the floor at a rate that is not below leaves the breaker there. -/
theorem not_belowThreshold_of_not_floorSound
    {b b' : Breaker} {op : Recorded}
    (hb : b.state ≠ .halfOpen)
    (hfloor : ¬ FloorSound cfg b op)
    (hstep : applyRecord cfg b op = some b') :
    ¬ BelowThreshold cfg b' := by
  unfold FloorSound at hfloor
  push Not at hfloor
  obtain ⟨hclosed, hat, hrate⟩ := hfloor
  intro hbelow
  cases op with
  | failure now =>
      cases hstep
      have hnumber : cfg.failureThreshold.place = none := by simpa using hrate
      have hnever : shouldTrip cfg
          { b with
            totalRequests := b.totalRequests + 1
            failureCount := b.failureCount + 1
            lastFailureTime := now } = false := by
        unfold shouldTrip Number.le
        rw [hnumber]
        split_ifs <;> rfl
      have hstate : (recordFailure cfg now b).state = .closed := by
        unfold recordFailure
        dsimp only
        rw [hnever, if_neg (by simp [hclosed])]
        exact hclosed
      have hlt := hbelow hstate (by rw [recordFailure_totalRequests]; push_cast; omega)
      rw [Number.lt_eq_false_of_place_eq_none hnumber] at hlt
      cases hlt
  | success =>
      cases hstep
      refine hrate ?_
      rw [← failureRate_recordSuccess hb]
      refine hbelow ?_ ?_
      · rw [state_recordSuccess hb]
        exact hclosed
      · rw [recordSuccess_totalRequests]
        push_cast
        omega

/--
The states that a sequence of records goes through from a fresh breaker are all below the
threshold exactly when no success reaches the floor of a closed breaker at a rate that is
not, and no request reaches it with a threshold that is NaN.
-/
theorem throughout_belowThreshold_iff
    (cfg : Settings)
    (hmin : 1 ≤ cfg.minRequests)
    (ops : List Recorded) :
    Runs.Throughout (applyRecord cfg) (BelowThreshold cfg) fresh ops ↔
      Runs.Along (applyRecord cfg) (FloorSound cfg) fresh ops := by
  obtain ⟨b, hrun⟩ := Runs.exists_run exists_applyRecord fresh ops
  refine Runs.throughout_iff_along
    (J := fun b => b.state ≠ .halfOpen ∧ BelowThreshold cfg b)
    (fun _ h => h.2) ?_ ?_ ⟨by decide, ?_⟩ hrun
  · rintro b op b' ⟨hstate, hbelow⟩ hfloor hstep
    refine ⟨applyRecord_state_ne_halfOpen hstate hstep, ?_⟩
    cases op with
    | success =>
        cases hstep
        exact belowThreshold_recordSuccess hmin hstate hbelow hfloor
    | failure now =>
        cases hstep
        exact belowThreshold_applyFailure hmin now hbelow hfloor
  · rintro b op b' ⟨hstate, -⟩ hfloor hstep
    exact not_belowThreshold_of_not_floorSound hstate hfloor hstep
  · intro _ hfloor
    have hzero : cfg.minRequests ≤ 0 := by simpa [fresh] using hfloor
    omega

/-- Four successes before six failures: the last failure reaches the floor and is evaluated. -/
theorem throughout_belowThreshold_iff_successes_first :
    1 ≤ ({} : Settings).minRequests ∧
    (Runs.Throughout (applyRecord {}) (BelowThreshold {}) fresh
        (List.replicate 4 .success ++ List.replicate 6 (.failure 0)) ↔
      Runs.Along (applyRecord {}) (FloorSound {}) fresh
        (List.replicate 4 .success ++ List.replicate 6 (.failure 0))) :=
  ⟨by decide, throughout_belowThreshold_iff {} (by decide) _⟩

/-- Twenty-nine failures of fifty are just below fifty-eight percent, as floats compute it. -/
example :
    Runs.run (applyRecord { failureThreshold := .float (.finite 58), minRequests := 50 }) fresh
        (List.replicate 21 .success ++ List.replicate 29 (.failure 0)) =
      some ⟨.closed, 29, 21, 50, 0, 0⟩ := by
  decide +kernel

/--
The same outcomes with the failures first leave the breaker closed at sixty percent, where
the other order has opened it.
-/
theorem closed_above_threshold_of_failures_first :
    Runs.run (applyRecord {}) fresh
        (List.replicate 6 (.failure 0) ++ List.replicate 4 .success) =
      some ⟨.closed, 6, 4, 10, 0, 0⟩ ∧
    ¬ Runs.Throughout (applyRecord {}) (BelowThreshold {}) fresh
        (List.replicate 6 (.failure 0) ++ List.replicate 4 .success) ∧
    Runs.run (applyRecord {}) fresh
        (List.replicate 4 .success ++ List.replicate 6 (.failure 0)) =
      some ⟨.opened, 6, 4, 10, 0, 0⟩ := by
  have hclosed : Runs.run (applyRecord {}) fresh
      (List.replicate 6 (.failure 0) ++ List.replicate 4 .success) =
        some ⟨.closed, 6, 4, 10, 0, 0⟩ := by
    decide +kernel
  refine ⟨hclosed, fun h => ?_, by decide +kernel⟩
  have hbelow := h _ List.prefix_rfl _ hclosed rfl (by decide)
  exact absurd hbelow (by decide +kernel)

end Threshold

end CircuitBreaker
end YamlAgno

import YamlAgno.Library.Fallible
import YamlAgno.Workflow.RetryRuns
import Mathlib.Tactic.Linarith
import Mathlib.Tactic.Positivity
import Mathlib.Tactic.NormNum
import Mathlib.Algebra.Order.Field.Rat

/-!
# The length of the sleeps

`calculate_delay` caps the backoff and then multiplies it by the drawn factor.  So
`max_delay` bounds the backoff, and a sleep up to the factor: half as long again at most.
A sleep is longer than `max_delay` exactly when the factor exceeds one and lifts a backoff
that is long enough over the cap (`backoff_mul_draw_le_iff`).  The arithmetic is exact here:
numbers are integers or rationals, and have a value.
-/

namespace YamlAgno
namespace RetryPolicy

open PyNumber

section Delays

variable (policy : RetryPolicy ℚ)

/-- The delay of an attempt that has one. -/
def backoff (n : ℕ) : ℚ :=
  min (policy.baseDelay.value * 2 ^ n) policy.maxDelay.value

/-- The factor that the backoff of an attempt is multiplied by. -/
def draw (n : ℕ) : ℚ :=
  if policy.jitter = true then (policy.drawnFactor n).value else 1

/-- `random_fn(lo, hi)` returns a value in `[lo, hi]`. -/
def DrawsWithin : Prop :=
  ∀ n lo hi, lo ≤ hi →
    lo ≤ (policy.randomFn n lo hi).value ∧ (policy.randomFn n lo hi).value ≤ hi

variable {policy}

/-- The cap comes first and the factor second. -/
theorem calculateDelay_eq
    {n : ℕ}
    {delay : Number ℚ}
    (h : policy.calculateDelay n = .ok delay) :
    delay.value = policy.backoff n * policy.draw n := by
  obtain ⟨capped, hcapped, h⟩ := Fallible.bind_eq_ok_iff.mp h
  obtain ⟨product, hproduct, hmin⟩ := Fallible.bind_eq_ok_iff.mp hcapped
  cases hmin
  have hpower : (Number.int (2 ^ n) : Number ℚ).value = 2 ^ n := by
    simp [Number.value]
  have hbackoff : (product.min policy.maxDelay).value = policy.backoff n := by
    rw [Number.value_min, Number.value_mul hproduct, hpower, backoff]
  unfold draw
  split_ifs at h ⊢
  · rw [Number.value_mul h, hbackoff]
  · cases h
    rw [hbackoff, mul_one]

theorem draw_pos
    (hdraws : DrawsWithin policy)
    (n : ℕ) :
    0 < policy.draw n ∧ policy.draw n ≤ 3 / 2 := by
  have hdraw := hdraws n (1 / 2) (3 / 2) (by norm_num)
  have hfactor : policy.drawnFactor n = policy.randomFn n (1 / 2) (3 / 2) := rfl
  unfold draw
  rw [hfactor]
  split_ifs
  · exact ⟨by linarith [hdraw.1], hdraw.2⟩
  · norm_num

theorem backoff_nonneg
    (hbase : 0 ≤ policy.baseDelay.value)
    (hmax : 0 ≤ policy.maxDelay.value)
    (n : ℕ) :
    0 ≤ policy.backoff n :=
  le_min (mul_nonneg hbase (by positivity)) hmax

theorem backoff_mono
    (hbase : 0 ≤ policy.baseDelay.value)
    {m n : ℕ}
    (h : m ≤ n) :
    policy.backoff m ≤ policy.backoff n := by
  have hpow : (2 : ℚ) ^ m ≤ 2 ^ n := pow_le_pow_right₀ (by norm_num) h
  exact min_le_min_right _ (mul_le_mul_of_nonneg_left hpow hbase)

/-- The factor lifts a delay over the cap only if it exceeds one and the backoff is long. -/
theorem backoff_mul_draw_le_iff
    (hbase : 0 ≤ policy.baseDelay.value)
    (hmax : 0 ≤ policy.maxDelay.value)
    (hdraws : DrawsWithin policy)
    (n : ℕ) :
    policy.backoff n * policy.draw n ≤ policy.maxDelay.value ↔
      policy.maxDelay.value = 0 ∨ policy.draw n ≤ 1 ∨
        policy.baseDelay.value * 2 ^ n * policy.draw n ≤ policy.maxDelay.value := by
  have hpos := (draw_pos hdraws n).1
  have hnonneg := backoff_nonneg hbase hmax n
  constructor
  · intro hle
    by_contra hcond
    push Not at hcond
    obtain ⟨hne, hfactor, hlong⟩ := hcond
    have hmaxpos : 0 < policy.maxDelay.value := lt_of_le_of_ne hmax (Ne.symm hne)
    rcases min_choice (policy.baseDelay.value * 2 ^ n) policy.maxDelay.value with hmin | hmin
    · rw [backoff, hmin] at hle
      exact absurd hle (not_le.mpr hlong)
    · rw [backoff, hmin] at hle
      nlinarith
  · have hcap : policy.backoff n ≤ policy.maxDelay.value := min_le_right _ _
    have hshort : policy.backoff n ≤ policy.baseDelay.value * 2 ^ n := min_le_left _ _
    rintro (hzero | hfactor | hlong)
    · have : policy.backoff n = 0 := le_antisymm (hzero ▸ hcap) hnonneg
      rw [this, zero_mul]
      exact hmax
    · calc
        policy.backoff n * policy.draw n ≤ policy.backoff n * 1 :=
          mul_le_mul_of_nonneg_left hfactor hnonneg
        _ ≤ policy.maxDelay.value := by rw [mul_one]; exact hcap
    · calc
        policy.backoff n * policy.draw n ≤ policy.baseDelay.value * 2 ^ n * policy.draw n :=
          mul_le_mul_of_nonneg_right hshort hpos.le
        _ ≤ policy.maxDelay.value := hlong

/-- What holds of the delays slept in one run. -/
structure SleepsWithinDraw
    (policy : RetryPolicy ℚ)
    (delays : List ℚ) : Prop where
  nonneg : ∀ delay ∈ delays, 0 ≤ delay
  le_draw : ∀ n delay, delays[n]? = some delay → delay ≤ policy.maxDelay.value * policy.draw n
  le_half_again : ∀ delay ∈ delays, delay ≤ policy.maxDelay.value * (3 / 2)
  capped_iff : ∀ n delay, delays[n]? = some delay →
    (delay ≤ policy.maxDelay.value ↔
      policy.maxDelay.value = 0 ∨ policy.draw n ≤ 1 ∨
        policy.baseDelay.value * 2 ^ n * policy.draw n ≤ policy.maxDelay.value)
  capped_of_no_jitter : policy.jitter = false → ∀ delay ∈ delays, delay ≤ policy.maxDelay.value
  ascending : policy.jitter = false → delays.Pairwise (· ≤ ·)

/-- The lengths of the sleeps, in order. -/
def lengthsOf {X : Type} (events : List (RetryEvent ℚ X)) : List ℚ :=
  (sleepsOf events).map Number.value

section Sleeps

variable {S X C α : Type} [DecidableEq C]
variable (policy : RetryPolicy ℚ) (manager : ErrorHandlingManager X C)
  (func : S → Except X α × S) (s : S)

/-- The n-th sleep of a run is the delay of attempt `n`. -/
theorem calculateDelay_of_slept
    {n : ℕ}
    {delay : Number ℚ}
    (h : (sleepsOf (executeWithRetry policy manager func s).events)[n]? = some delay) :
    policy.calculateDelay n = .ok delay := by
  by_cases hmax : 0 ≤ policy.maxRetries
  · have hsleeps := sleepsOf_executeWithRetry policy manager func s hmax
    have hnth := congrArg (fun delays => delays[n]?) hsleeps
    simp only [List.getElem?_map, h, Option.map_some] at hnth
    obtain ⟨attempt, hattempt, hdelay⟩ := Option.map_eq_some_iff.mp hnth.symm
    obtain ⟨hlt, hsame⟩ := List.getElem?_eq_some_iff.mp hattempt
    rw [List.getElem_range] at hsame
    rw [hsame, hdelay]
  · have hnone : (policy.maxRetries + 1).toNat = 0 := by omega
    rw [executeWithRetry, hnone] at h
    cases h

/--
Every sleep of every run is at least zero and at most `max_delay` times its factor, and at
most `max_delay` exactly if the factor does not lift it over the cap; without jitter the
sleeps are capped and never get shorter.
-/
theorem sleeps_within_draw
    (hbase : 0 ≤ policy.baseDelay.value)
    (hmax : 0 ≤ policy.maxDelay.value)
    (hdraws : DrawsWithin policy) :
    SleepsWithinDraw policy (lengthsOf (executeWithRetry policy manager func s).events) := by
  have hdelay : ∀ n length,
      (lengthsOf (executeWithRetry policy manager func s).events)[n]? = some length →
        length = policy.backoff n * policy.draw n := by
    intro n length h
    rw [lengthsOf, List.getElem?_map, Option.map_eq_some_iff] at h
    obtain ⟨delay, hslept, rfl⟩ := h
    exact calculateDelay_eq (calculateDelay_of_slept policy manager func s hslept)
  generalize lengthsOf (executeWithRetry policy manager func s).events = delays at hdelay
  have hcap : ∀ n, policy.backoff n ≤ policy.maxDelay.value := fun n => min_le_right _ _
  have hnojitter : policy.jitter = false → ∀ n, policy.draw n = 1 := by
    intro hjitter n
    rw [draw, if_neg (by rw [hjitter]; exact Bool.false_ne_true)]
  have hdraw : ∀ n delay, delays[n]? = some delay →
      delay ≤ policy.maxDelay.value * policy.draw n := by
    intro n delay h
    rw [hdelay n delay h]
    exact mul_le_mul_of_nonneg_right (hcap n) (draw_pos hdraws n).1.le
  refine
    { nonneg := fun delay hmem => ?_
      le_draw := hdraw
      le_half_again := fun delay hmem => ?_
      capped_iff := fun n delay h => ?_
      capped_of_no_jitter := fun hjitter delay hmem => ?_
      ascending := fun hjitter => ?_ }
  · obtain ⟨n, h⟩ := List.mem_iff_getElem?.mp hmem
    rw [hdelay n delay h]
    exact mul_nonneg (backoff_nonneg hbase hmax n) (draw_pos hdraws n).1.le
  · obtain ⟨n, h⟩ := List.mem_iff_getElem?.mp hmem
    exact (hdraw n delay h).trans (mul_le_mul_of_nonneg_left (draw_pos hdraws n).2 hmax)
  · rw [hdelay n delay h]
    exact backoff_mul_draw_le_iff hbase hmax hdraws n
  · obtain ⟨n, h⟩ := List.mem_iff_getElem?.mp hmem
    have hle := hdraw n delay h
    rwa [hnojitter hjitter n, mul_one] at hle
  · refine List.pairwise_iff_getElem.mpr fun m n hm hn hlt => ?_
    rw [hdelay m _ (List.getElem?_eq_getElem hm), hdelay n _ (List.getElem?_eq_getElem hn),
      hnojitter hjitter m, hnojitter hjitter n, mul_one, mul_one]
    exact backoff_mono hbase hlt.le

end Sleeps

end Delays

theorem drawsWithin_lowestDraw : DrawsWithin (lowestDraw ℚ) :=
  fun _ _ _ h => ⟨le_rfl, h⟩

theorem sleeps_within_lowestDraw :
    SleepsWithinDraw (lowestDraw ℚ)
      (lengthsOf (executeWithRetry (lowestDraw ℚ) timeouts (callNth recovers) 0).events) :=
  sleeps_within_draw (lowestDraw ℚ) timeouts (callNth recovers) 0 (by decide +kernel)
    (by decide +kernel) drawsWithin_lowestDraw

/-- A first backoff as long as the cap, and the highest draw each time. -/
def highestDraw : RetryPolicy ℚ where
  maxRetries := 1
  baseDelay := .int 60
  randomFn _ _ hi := .float hi

/-- A cap of sixty seconds and a sleep of ninety. -/
theorem sleep_exceeds_max_delay :
    DrawsWithin highestDraw ∧ 0 ≤ highestDraw.baseDelay.value ∧
    highestDraw.maxDelay.value = 60 ∧
    lengthsOf (executeWithRetry highestDraw timeouts (callNth recovers) 0).events = [90] ∧
    ¬ ∀ delay ∈ lengthsOf (executeWithRetry highestDraw timeouts (callNth recovers) 0).events,
      delay ≤ highestDraw.maxDelay.value := by
  have hslept : lengthsOf
      (executeWithRetry highestDraw timeouts (callNth recovers) 0).events = [90] := by
    decide +kernel
  refine ⟨fun _ _ _ h => ⟨h, le_rfl⟩, by decide +kernel, rfl, hslept, fun hall => ?_⟩
  rw [hslept] at hall
  exact absurd (hall 90 (by simp)) (by decide +kernel)

end RetryPolicy
end YamlAgno

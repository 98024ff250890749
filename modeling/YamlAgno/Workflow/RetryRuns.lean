import YamlAgno.Workflow.RetryPolicy
import Mathlib.Data.List.Basic

/-!
# Runs of the retry loop, attempt by attempt

`RetryPolicy.executeWithRetry_cases` says how a run ends.  Here a run is taken apart: the
loop does after one attempt what it does when that attempt is its only one
(`attemptAlone`), so a run is the sequence of its attempts (`executeWithRetry_eq`), and
what happens between two calls of the function can be read off a single attempt.

Two results are read off that sequence, for every sequence of outcomes: how often the
function is called and what is slept in between (`executeWithRetry_exact_iff`), and which
failures are reported (`everyFailureReported_iff`).
-/

namespace YamlAgno
namespace RetryPolicy

open PyNumber

/-! ## One attempt -/

section Single

variable {F S X C α : Type} [FloatArithmetic F] [DecidableEq C]
variable (policy : RetryPolicy F) (manager : ErrorHandlingManager X C)
  (func : S → Except X α × S) (s : S)

/-- The loop over attempt `n` alone, in the state in which a run gets to it. -/
def attemptAlone (n : ℕ) : Ended F S X (PolicyError X) (Option α) :=
  executeFrom policy manager func [n] (stateBefore func s n)

/-- Attempt `n` fails retryably, another one is allowed, and the delay is computed. -/
structure Retried (n : ℕ) : Prop where
  failure : RetryableFailure manager (attemptResult func s n)
  more : (n : ℤ) ≠ policy.maxRetries
  delay : ¬ DelayOverflows policy n

variable {policy manager func s}

/-- A failure that is retried is reported, then the policy sleeps and goes on. -/
theorem executeFrom_of_retried
    {n : ℕ}
    (h : Retried policy manager func s n) :
    ∃ exc delay, attemptResult func s n = .error exc ∧ isRetryable manager exc = true ∧
      policy.calculateDelay n = .ok delay ∧
      ∀ rest, executeFrom policy manager func (n :: rest) (stateBefore func s n) =
        { executeFrom policy manager func rest (stateBefore func s (n + 1)) with
          events := .report exc (.attempt n) :: .sleep delay ::
            (executeFrom policy manager func rest (stateBefore func s (n + 1))).events } := by
  obtain ⟨hfailure, hmore, hnot⟩ := h
  obtain ⟨delay, hdelay⟩ := (calculateDelay_eq_ok_iff policy n).mpr hnot
  rw [stateBefore_succ]
  unfold attemptResult at hfailure ⊢
  cases hcall : (func (stateBefore func s n)).1 with
  | ok value =>
      rw [hcall] at hfailure
      exact hfailure.elim
  | error exc =>
      rw [hcall] at hfailure
      have hretry : isRetryable manager exc = true := hfailure
      refine ⟨exc, delay, rfl, hretry, hdelay, fun rest => ?_⟩
      rw [executeFrom, hcall]
      simp only [hretry, Bool.true_eq_false, if_false, hmore, hdelay]

theorem attemptAlone_of_retried
    {n : ℕ}
    (h : Retried policy manager func s n) :
    ∃ exc delay, attemptResult func s n = .error exc ∧ isRetryable manager exc = true ∧
      policy.calculateDelay n = .ok delay ∧
      attemptAlone policy manager func s n =
        ⟨.ok none, stateBefore func s (n + 1), [.report exc (.attempt n), .sleep delay]⟩ := by
  obtain ⟨exc, delay, hresult, hretry, hdelay, hloop⟩ := executeFrom_of_retried h
  exact ⟨exc, delay, hresult, hretry, hdelay, hloop []⟩

/-- Whatever becomes of it, the attempt calls the function once. -/
theorem attemptAlone_state
    (n : ℕ) :
    (attemptAlone policy manager func s n).state = stateBefore func s (n + 1) := by
  rw [stateBefore_succ]
  unfold attemptAlone
  rw [executeFrom]
  split
  · rfl
  · split_ifs
    · rfl
    · rfl
    · split
      · rfl
      · rfl

/-- An attempt that is retried comes before the loop over the others. -/
theorem executeFrom_cons_of_retried
    {n : ℕ}
    (h : Retried policy manager func s n)
    (rest : List ℕ) :
    executeFrom policy manager func (n :: rest) (stateBefore func s n) =
      { executeFrom policy manager func rest (stateBefore func s (n + 1)) with
        events := (attemptAlone policy manager func s n).events ++
          (executeFrom policy manager func rest (stateBefore func s (n + 1))).events } := by
  obtain ⟨exc, delay, -, -, -, hloop⟩ := executeFrom_of_retried h
  unfold attemptAlone
  rw [hloop rest, hloop []]
  rfl

/-- A failure that would be retried is reported before its delay overflows. -/
theorem executeFrom_of_overflow
    {n : ℕ}
    (hfailure : RetryableFailure manager (attemptResult func s n))
    (hmore : (n : ℤ) ≠ policy.maxRetries)
    (hover : DelayOverflows policy n) :
    ∃ exc overflow, attemptResult func s n = .error exc ∧ isRetryable manager exc = true ∧
      ∀ rest, executeFrom policy manager func (n :: rest) (stateBefore func s n) =
        ⟨.error (.overflow overflow), stateBefore func s (n + 1),
          [.report exc (.attempt n)]⟩ := by
  rw [stateBefore_succ]
  unfold attemptResult at hfailure ⊢
  cases hcall : (func (stateBefore func s n)).1 with
  | ok value =>
      rw [hcall] at hfailure
      exact hfailure.elim
  | error exc =>
      rw [hcall] at hfailure
      have hretry : isRetryable manager exc = true := hfailure
      obtain ⟨overflow, hdelay⟩ := (calculateDelay_eq_error_iff policy n).mpr hover
      refine ⟨exc, overflow, rfl, hretry, fun rest => ?_⟩
      rw [executeFrom, hcall]
      simp only [hretry, Bool.true_eq_false, if_false, hmore, hdelay]

/-- An attempt that is not retried ends the run as it has ended itself. -/
theorem attemptAlone_of_final
    {n : ℕ}
    (hlast : (n : ℤ) = policy.maxRetries ∨
      ¬ RetryableFailure manager (attemptResult func s n)) :
    attemptAlone policy manager func s n =
      ⟨settled (attemptResult func s n), stateBefore func s (n + 1), []⟩ :=
  executeFrom_of_final hlast []

variable (policy manager func s)

/-- The attempts that are retried come one after the other before the rest of the loop. -/
theorem executeFrom_of_all_retried
    (first count : ℕ)
    (rest : ℕ)
    (h : ∀ n, first ≤ n → n < first + count → Retried policy manager func s n) :
    executeFrom policy manager func (List.range' first (count + rest))
        (stateBefore func s first) =
      { executeFrom policy manager func (List.range' (first + count) rest)
          (stateBefore func s (first + count)) with
        events :=
          ((List.range' first count).flatMap fun n =>
            (attemptAlone policy manager func s n).events) ++
          (executeFrom policy manager func (List.range' (first + count) rest)
            (stateBefore func s (first + count))).events } := by
  induction count generalizing first with
  | zero =>
      simp
  | succ count ih =>
      have hfirst := h first le_rfl (by omega)
      have hrest := ih (first + 1) fun n hle hlt => h n (by omega) (by omega)
      have hlength : count + 1 + rest = (count + rest) + 1 := by omega
      have hnext : first + (count + 1) = first + 1 + count := by omega
      rw [hlength, List.range'_succ, executeFrom_cons_of_retried hfirst, hrest, hnext,
        List.range'_succ, List.flatMap_cons, List.append_assoc]

end Single

/-! ## The sequence of the attempts -/

section Runs

variable {F S X C α : Type} [FloatArithmetic F] [DecidableEq C]
variable (policy : RetryPolicy F) (manager : ErrorHandlingManager X C)

instance decidableRetryableFailure :
    (outcome : Except X α) → Decidable (RetryableFailure manager outcome)
  | .ok _ => isFalse id
  | .error exc => inferInstanceAs (Decidable (isRetryable manager exc = true))

/-- The first attempt below `max_retries` that ends a run, else the attempt `max_retries`. -/
def firstOf (ends : ℕ → Bool) : ℕ :=
  ((List.range policy.maxRetries.toNat).find? ends).getD policy.maxRetries.toNat

section FirstOf

variable (ends : ℕ → Bool)

theorem firstOf_le :
    firstOf policy ends ≤ policy.maxRetries.toNat := by
  unfold firstOf
  cases hfind : (List.range policy.maxRetries.toNat).find? ends with
  | none => exact le_rfl
  | some n =>
      have hmem := List.mem_of_find?_eq_some hfind
      exact (List.mem_range.mp hmem).le

theorem not_ends_of_lt_firstOf
    {n : ℕ}
    (h : n < firstOf policy ends) :
    ends n = false := by
  unfold firstOf at h
  cases hfind : (List.range policy.maxRetries.toNat).find? ends with
  | none =>
      rw [hfind] at h
      simpa using List.find?_range_eq_none.mp hfind n h
  | some last =>
      rw [hfind] at h
      simpa using (List.find?_range_eq_some.mp hfind).2.2 n h

theorem ends_firstOf :
    firstOf policy ends = policy.maxRetries.toNat ∨ ends (firstOf policy ends) = true := by
  unfold firstOf
  cases hfind : (List.range policy.maxRetries.toNat).find? ends with
  | none => exact Or.inl rfl
  | some last => exact Or.inr (List.find?_some hfind)

end FirstOf

/-- The first attempt that succeeds or fails for good, else the attempt `max_retries`. -/
def lastAttempt (outcomes : ℕ → Except X α) : ℕ :=
  firstOf policy fun n => !decide (RetryableFailure manager (outcomes n))

section LastAttempt

variable (outcomes : ℕ → Except X α)

theorem lastAttempt_le :
    lastAttempt policy manager outcomes ≤ policy.maxRetries.toNat :=
  firstOf_le policy _

/-- All attempts before the last have failed retryably. -/
theorem retryableFailure_of_lt_lastAttempt
    {n : ℕ}
    (h : n < lastAttempt policy manager outcomes) :
    RetryableFailure manager (outcomes n) := by
  simpa using not_ends_of_lt_firstOf policy _ h

/-- The last attempt has not, unless no more is allowed. -/
theorem lastAttempt_final :
    lastAttempt policy manager outcomes = policy.maxRetries.toNat ∨
      ¬ RetryableFailure manager (outcomes (lastAttempt policy manager outcomes)) :=
  (ends_firstOf policy _).imp_right fun h => by simpa [lastAttempt] using h

end LastAttempt

variable (func : S → Except X α × S) (s : S)

/-- The last attempt that a run makes; a delay that overflows ends it too. -/
def lastMade : ℕ :=
  firstOf policy fun n =>
    !decide (RetryableFailure manager (attemptResult func s n)) ||
      decide (DelayOverflows policy n)

theorem lastMade_le :
    lastMade policy manager func s ≤ policy.maxRetries.toNat :=
  firstOf_le policy _

theorem retried_of_lt_lastMade
    {n : ℕ}
    (h : n < lastMade policy manager func s) :
    Retried policy manager func s n := by
  have hle := lastMade_le policy manager func s
  have hgoes : RetryableFailure manager (attemptResult func s n) ∧ ¬ DelayOverflows policy n := by
    simpa using not_ends_of_lt_firstOf policy _ h
  exact ⟨hgoes.1, by omega, hgoes.2⟩

/-- The last attempt made is final, or its delay overflows. -/
theorem lastMade_cases
    (hmax : 0 ≤ policy.maxRetries) :
    (((lastMade policy manager func s : ℕ) : ℤ) = policy.maxRetries ∨
      ¬ RetryableFailure manager (attemptResult func s (lastMade policy manager func s))) ∨
    (RetryableFailure manager (attemptResult func s (lastMade policy manager func s)) ∧
      ((lastMade policy manager func s : ℕ) : ℤ) ≠ policy.maxRetries ∧
      DelayOverflows policy (lastMade policy manager func s)) := by
  have hends : lastMade policy manager func s = policy.maxRetries.toNat ∨
      (¬ RetryableFailure manager (attemptResult func s (lastMade policy manager func s)) ∨
        DelayOverflows policy (lastMade policy manager func s)) :=
    (ends_firstOf policy _).imp_right fun h => by simpa [lastMade] using h
  by_cases hfinal : ((lastMade policy manager func s : ℕ) : ℤ) = policy.maxRetries ∨
      ¬ RetryableFailure manager (attemptResult func s (lastMade policy manager func s))
  · exact Or.inl hfinal
  · push Not at hfinal
    obtain ⟨hmore, hfailure⟩ := hfinal
    rcases hends with hlast | hnot | hover
    · omega
    · exact absurd hfailure hnot
    · exact Or.inr ⟨hfailure, hmore, hover⟩

/-- Without an overflow on the way, the last attempt made is the last attempt. -/
theorem lastMade_eq_lastAttempt
    (h : ∀ n : ℕ, (n : ℤ) < policy.maxRetries → DelayOverflows policy n →
      ∃ i ≤ n, ¬ RetryableFailure manager (attemptResult func s i)) :
    lastMade policy manager func s = lastAttempt policy manager (attemptResult func s) := by
  have hmade := lastMade_le policy manager func s
  have hlast := lastAttempt_le policy manager (attemptResult func s)
  refine le_antisymm ?_ ?_
  · by_contra hlt
    rcases lastAttempt_final policy manager (attemptResult func s) with hmax | hfinal
    · omega
    · exact hfinal (retried_of_lt_lastMade policy manager func s (by omega)).failure
  · by_contra hlt
    have hgoes := fun {i} (hi : i < lastAttempt policy manager (attemptResult func s)) =>
      retryableFailure_of_lt_lastAttempt policy manager (attemptResult func s) hi
    rcases lastMade_cases policy manager func s (by omega) with
      (hmax | hfinal) | ⟨-, hmore, hover⟩
    · omega
    · exact hfinal (hgoes (by omega))
    · obtain ⟨i, hi, hfinal⟩ := h _ (by omega) hover
      exact hfinal (hgoes (by omega))

/-- The loop ends with the last attempt made. -/
theorem executeFrom_lastMade
    (hmax : 0 ≤ policy.maxRetries)
    (rest : List ℕ) :
    executeFrom policy manager func (lastMade policy manager func s :: rest)
        (stateBefore func s (lastMade policy manager func s)) =
      attemptAlone policy manager func s (lastMade policy manager func s) := by
  rcases lastMade_cases policy manager func s hmax with hfinal | ⟨hfailure, hmore, hover⟩
  · rw [executeFrom_of_final hfinal, attemptAlone_of_final hfinal]
  · obtain ⟨exc, overflow, -, -, hloop⟩ := executeFrom_of_overflow hfailure hmore hover
    unfold attemptAlone
    rw [hloop rest, hloop []]

/-- A run is the sequence of its attempts, and ends as the last of them. -/
theorem executeWithRetry_eq
    (hmax : 0 ≤ policy.maxRetries) :
    executeWithRetry policy manager func s =
      { attemptAlone policy manager func s (lastMade policy manager func s) with
        events := (List.range (lastMade policy manager func s + 1)).flatMap fun n =>
          (attemptAlone policy manager func s n).events } := by
  obtain ⟨rest, hrest⟩ : ∃ rest, (policy.maxRetries + 1).toNat =
      lastMade policy manager func s + (rest + 1) := by
    have hmade := lastMade_le policy manager func s
    exact ⟨policy.maxRetries.toNat - lastMade policy manager func s, by omega⟩
  have hloop := executeFrom_of_all_retried policy manager func s 0
    (lastMade policy manager func s) (rest + 1)
    fun n _ hn => retried_of_lt_lastMade policy manager func s (by omega)
  rw [executeWithRetry, hrest, List.range_eq_range']
  rw [Nat.zero_add, List.range'_succ, executeFrom_lastMade policy manager func s hmax] at hloop
  refine hloop.trans ?_
  rw [List.range_succ, List.flatMap_append, List.flatMap_singleton, List.range_eq_range']

end Runs

/-! ## Sleeps and reports -/

section Traces

variable {F X : Type}

/-- The delays slept, in order. -/
def sleepsOf (events : List (RetryEvent F X)) : List (Number F) :=
  events.filterMap fun
    | .sleep delay => some delay
    | .report _ _ => none

/-- The reports made, in order. -/
def reportsOf (events : List (RetryEvent F X)) : List (X × ReportContext) :=
  events.filterMap fun
    | .sleep _ => none
    | .report error context => some (error, context)

theorem sleepsOf_flatMap
    (ns : List ℕ)
    (events : ℕ → List (RetryEvent F X)) :
    sleepsOf (ns.flatMap events) = ns.flatMap fun n => sleepsOf (events n) :=
  List.filterMap_flatMap

theorem reportsOf_flatMap
    (ns : List ℕ)
    (events : ℕ → List (RetryEvent F X)) :
    reportsOf (ns.flatMap events) = ns.flatMap fun n => reportsOf (events n) :=
  List.filterMap_flatMap

end Traces

section Sleeps

variable {F S X C α : Type} [FloatArithmetic F] [DecidableEq C]
variable {policy : RetryPolicy F} {manager : ErrorHandlingManager X C}
  {func : S → Except X α × S} {s : S}

/-- After a retried attempt the policy sleeps once, as long as it has calculated. -/
theorem sleepsOf_attemptAlone_of_retried
    {n : ℕ}
    (h : Retried policy manager func s n) :
    ∃ delay, policy.calculateDelay n = .ok delay ∧
      sleepsOf (attemptAlone policy manager func s n).events = [delay] := by
  obtain ⟨exc, delay, -, -, hdelay, halone⟩ := attemptAlone_of_retried h
  refine ⟨delay, hdelay, ?_⟩
  rw [halone]
  rfl

variable (policy manager func s) in
/-- After the last attempt it does not sleep. -/
theorem sleepsOf_attemptAlone_lastMade
    (hmax : 0 ≤ policy.maxRetries) :
    sleepsOf
      (attemptAlone policy manager func s (lastMade policy manager func s)).events = [] := by
  rcases lastMade_cases policy manager func s hmax with hfinal | ⟨hfailure, hmore, hover⟩
  · rw [attemptAlone_of_final hfinal]
    rfl
  · obtain ⟨exc, overflow, -, -, hloop⟩ := executeFrom_of_overflow hfailure hmore hover
    rw [attemptAlone, hloop []]
    rfl

/-- The sleeps of retried attempts are their delays. -/
theorem sleepsOf_retried
    (count : ℕ)
    (h : ∀ n < count, Retried policy manager func s n) :
    (sleepsOf ((List.range count).flatMap fun n =>
        (attemptAlone policy manager func s n).events)).map .ok =
      (List.range count).map policy.calculateDelay := by
  rw [sleepsOf_flatMap]
  induction count with
  | zero =>
      rfl
  | succ count ih =>
      obtain ⟨delay, hdelay, hsleeps⟩ := sleepsOf_attemptAlone_of_retried (h count (by omega))
      rw [List.range_succ, List.flatMap_append, List.map_append, List.map_append,
        ih fun n hn => h n (by omega), List.flatMap_singleton, hsleeps]
      simp [hdelay]

variable (policy manager func s)

/-- A run sleeps once after each attempt but the last. -/
theorem sleepsOf_executeWithRetry
    (hmax : 0 ≤ policy.maxRetries) :
    (sleepsOf (executeWithRetry policy manager func s).events).map .ok =
      (List.range (lastMade policy manager func s)).map policy.calculateDelay := by
  rw [executeWithRetry_eq policy manager func s hmax, List.range_succ, List.flatMap_append,
    List.flatMap_singleton, ← sleepsOf_retried _ fun n hn => retried_of_lt_lastMade policy manager func s hn]
  unfold sleepsOf
  rw [List.filterMap_append]
  have hlast := sleepsOf_attemptAlone_lastMade policy manager func s hmax
  unfold sleepsOf at hlast
  rw [hlast, List.append_nil]

end Sleeps

/-! ## A sequence of outcomes -/

section Outcomes

variable {F X C α : Type} [FloatArithmetic F] [DecidableEq C]
variable (policy : RetryPolicy F) (manager : ErrorHandlingManager X C)

/-- A function whose n-th call has the n-th outcome of a sequence; its state counts the calls. -/
def callNth
    (outcomes : ℕ → Except X α)
    (calls : ℕ) :
    Except X α × ℕ :=
  (outcomes calls, calls + 1)

@[simp] theorem stateBefore_callNth
    (outcomes : ℕ → Except X α)
    (n : ℕ) :
    stateBefore (callNth outcomes) 0 n = n := by
  induction n with
  | zero =>
      rfl
  | succ n ih =>
      rw [stateBefore_succ, ih]
      rfl

@[simp] theorem attemptResult_callNth
    (outcomes : ℕ → Except X α) :
    attemptResult (callNth outcomes) 0 = outcomes := by
  funext n
  rw [attemptResult, stateBefore_callNth]
  rfl

variable (outcomes : ℕ → Except X α)

/-- A whole call of `execute_with_retry`. -/
def runOf : Ended F ℕ X (PolicyError X) (Option α) :=
  executeWithRetry policy manager (callNth outcomes) 0

/-- What the policy does between call `n` of the function and the next. -/
def afterCall (n : ℕ) : List (RetryEvent F X) :=
  (attemptAlone policy manager (callNth outcomes) 0 n).events

/-- The calls, the result and the sleeps of a run whose last attempt is `lastAttempt`. -/
structure ExactRun : Prop where
  calls :
    (runOf policy manager outcomes).state = lastAttempt policy manager outcomes + 1
  result :
    (runOf policy manager outcomes).result =
      settled (outcomes (lastAttempt policy manager outcomes))
  sleeps :
    (sleepsOf (runOf policy manager outcomes).events).map .ok =
      (List.range (lastAttempt policy manager outcomes)).map policy.calculateDelay
  in_sequence :
    (runOf policy manager outcomes).events =
      (List.range (lastAttempt policy manager outcomes + 1)).flatMap
        (afterCall policy manager outcomes)
  slept_once : ∀ n < lastAttempt policy manager outcomes,
    (sleepsOf (afterCall policy manager outcomes n)).length = 1
  last_silent :
    sleepsOf (afterCall policy manager outcomes (lastAttempt policy manager outcomes)) = []

/-- A run over a sequence of outcomes, attempt by attempt. -/
theorem runOf_eq
    (hmax : 0 ≤ policy.maxRetries) :
    runOf policy manager outcomes =
      { attemptAlone policy manager (callNth outcomes) 0
          (lastMade policy manager (callNth outcomes) 0) with
        events := (List.range (lastMade policy manager (callNth outcomes) 0 + 1)).flatMap
          (afterCall policy manager outcomes) } :=
  executeWithRetry_eq policy manager (callNth outcomes) 0 hmax

/-- A run that comes to a delay that overflows ends with it. -/
theorem not_exactRun_of_overflow
    {n : ℕ}
    (hmore : (n : ℤ) < policy.maxRetries)
    (hover : DelayOverflows policy n)
    (hall : ∀ i ≤ n, RetryableFailure manager (outcomes i)) :
    ¬ ExactRun policy manager outcomes := by
  obtain ⟨overflow, hraised⟩ :=
    (executeWithRetry_overflows_iff policy manager (callNth outcomes) 0 (by omega)).mpr
      ⟨n, hmore, hover, by simpa using hall⟩
  intro hexact
  have hresult : settled (outcomes (lastAttempt policy manager outcomes)) =
      .error (.overflow overflow) := hexact.result.symm.trans hraised
  unfold settled at hresult
  split at hresult <;> cases hresult

/--
The function is called up to its first success or final failure, or until `max_retries` is
reached, the run ends as that call has, and there is one sleep before each further call,
exactly if no run comes to a delay that overflows: each attempt below `max_retries` with such
a delay has an outcome at or before it that is no retryable failure.
-/
theorem executeWithRetry_exact_iff
    (hmax : 0 ≤ policy.maxRetries) :
    ExactRun policy manager outcomes ↔
      ∀ n : ℕ, (n : ℤ) < policy.maxRetries → DelayOverflows policy n →
        ∃ i ≤ n, ¬ RetryableFailure manager (outcomes i) := by
  constructor
  · intro hexact n hmore hover
    by_contra hcond
    push Not at hcond
    exact not_exactRun_of_overflow policy manager outcomes hmore hover hcond hexact
  · intro hcond
    have hlast : lastMade policy manager (callNth outcomes) 0 =
        lastAttempt policy manager outcomes := by
      rw [lastMade_eq_lastAttempt, attemptResult_callNth]
      rwa [attemptResult_callNth]
    have hresult : (attemptAlone policy manager (callNth outcomes) 0
        (lastAttempt policy manager outcomes)).result =
          settled (outcomes (lastAttempt policy manager outcomes)) := by
      have hle := lastAttempt_le policy manager outcomes
      have hfinal := lastAttempt_final policy manager outcomes
      rw [attemptAlone_of_final]
      · rw [attemptResult_callNth]
      · rw [attemptResult_callNth]
        exact hfinal.imp_left fun h => by omega
    have hrun := runOf_eq policy manager outcomes hmax
    have hsleeps := sleepsOf_executeWithRetry policy manager (callNth outcomes) 0 hmax
    have hsilent := sleepsOf_attemptAlone_lastMade policy manager (callNth outcomes) 0 hmax
    rw [hlast] at hrun hsleeps hsilent
    refine
      { calls := by rw [hrun, attemptAlone_state, stateBefore_callNth]
        result := by rw [hrun, hresult]
        sleeps := hsleeps
        in_sequence := by rw [hrun]
        slept_once := fun n hn => ?_
        last_silent := hsilent }
    obtain ⟨delay, -, hslept⟩ := sleepsOf_attemptAlone_of_retried
      (retried_of_lt_lastMade policy manager (callNth outcomes) 0 (by omega : n < _))
    rw [afterCall, hslept]
    rfl

/-- Time-outs are transient, all else is permanent. -/
def timeouts : ErrorHandlingManager String String where
  transient := "transient"
  rateLimit := "rate_limit"
  classify error := if error = "TimeoutError" then "transient" else "permanent"

/-- Two time-outs, and then a value. -/
def recovers (n : ℕ) : Except String String :=
  if n < 2 then .error "TimeoutError" else .ok "recovered"

/-- The default policy, with the lowest draw each time. -/
def lowestDraw (F : Type) [FloatArithmetic F] : RetryPolicy F where
  randomFn _ lo _ := .float lo

/-- Its delays overflow from attempt 1024 on. -/
theorem delayOverflows_lowestDraw_iff
    (maxRetries : ℤ)
    {n : ℕ} :
    DelayOverflows { lowestDraw F with maxRetries := maxRetries } n ↔ 1024 ≤ n :=
  delayOverflows_iff_of_float rfl rfl rfl

theorem executeWithRetry_exact_recovers :
    0 ≤ (lowestDraw PyFloat).maxRetries ∧
    (ExactRun (lowestDraw PyFloat) timeouts recovers ↔
      ∀ n : ℕ, (n : ℤ) < (lowestDraw PyFloat).maxRetries →
        DelayOverflows (lowestDraw PyFloat) n →
          ∃ i ≤ n, ¬ RetryableFailure timeouts (recovers i)) :=
  ⟨by decide, executeWithRetry_exact_iff (lowestDraw PyFloat) timeouts recovers (by decide)⟩

/-- With 1025 retries allowed, a function that always times out is not called 1026 times. -/
theorem exactRun_fails_at_attempt_1024 :
    ¬ ExactRun { lowestDraw PyFloat with maxRetries := 1025 } timeouts
      (fun _ => (.error "TimeoutError" : Except String String)) :=
  not_exactRun_of_overflow _ timeouts _ (show ((1024 : ℕ) : ℤ) < 1025 by decide)
    ((delayOverflows_lowestDraw_iff 1025).mpr le_rfl) fun _ _ => by rfl

/-! ## Reports -/

/-- The report that a retryable failure of attempt `n` calls for. -/
def transientReport (n : ℕ) : Option (X × ReportContext) :=
  match outcomes n with
  | .ok _ => none
  | .error exc => if isRetryable manager exc = true then some (exc, .attempt n) else none

/-- Each attempt that has failed retryably is reported, once and in order, and no other. -/
def EveryFailureReported : Prop :=
  reportsOf (runOf policy manager outcomes).events =
    (List.range (runOf policy manager outcomes).state).filterMap
      (transientReport manager outcomes)

variable {policy manager outcomes}

theorem transientReport_eq_none_iff
    {n : ℕ} :
    transientReport manager outcomes n = none ↔ ¬ RetryableFailure manager (outcomes n) := by
  unfold transientReport RetryableFailure
  cases outcomes n with
  | ok value => simp
  | error exc => simp

/-- Every attempt but an exhausted one is reported as it should be. -/
theorem reportsOf_afterCall
    {n : ℕ}
    (h : (n : ℤ) ≠ policy.maxRetries ∨ ¬ RetryableFailure manager (outcomes n)) :
    reportsOf (afterCall policy manager outcomes n) =
      (transientReport manager outcomes n).toList := by
  unfold afterCall
  by_cases hfailure : RetryableFailure manager (outcomes n)
  · have hmore : (n : ℤ) ≠ policy.maxRetries := by
      rcases h with h | h
      · exact h
      · exact absurd hfailure h
    rw [← attemptResult_callNth outcomes] at hfailure
    by_cases hover : DelayOverflows policy n
    · obtain ⟨exc, overflow, hresult, hretry, hloop⟩ :=
        executeFrom_of_overflow hfailure hmore hover
      rw [attemptResult_callNth] at hresult
      rw [attemptAlone, hloop [], transientReport, hresult]
      simp [reportsOf, hretry]
    · obtain ⟨exc, delay, hresult, hretry, -, halone⟩ :=
        attemptAlone_of_retried ⟨hfailure, hmore, hover⟩
      rw [attemptResult_callNth] at hresult
      rw [halone, transientReport, hresult]
      simp [reportsOf, hretry]
  · have hnone := transientReport_eq_none_iff.mpr hfailure
    rw [← attemptResult_callNth outcomes] at hfailure
    rw [attemptAlone_of_final (Or.inr hfailure), hnone]
    rfl

/-- An exhausted attempt is not reported. -/
theorem afterCall_of_exhausted
    {n : ℕ}
    (hlast : (n : ℤ) = policy.maxRetries) :
    afterCall policy manager outcomes n = [] := by
  rw [afterCall, attemptAlone_of_final (Or.inl hlast)]

variable (policy manager outcomes)

/-- Each attempt but the last is reported as it should be, so it is up to the last. -/
theorem everyFailureReported_iff_last
    (hmax : 0 ≤ policy.maxRetries) :
    EveryFailureReported policy manager outcomes ↔
      (lastMade policy manager (callNth outcomes) 0 : ℤ) ≠ policy.maxRetries ∨
        ¬ RetryableFailure manager (outcomes (lastMade policy manager (callNth outcomes) 0)) := by
  have hrun := runOf_eq policy manager outcomes hmax
  have hstate : (runOf policy manager outcomes).state =
      lastMade policy manager (callNth outcomes) 0 + 1 := by
    rw [hrun, attemptAlone_state, stateBefore_callNth]
  have hlast := lastMade_le policy manager (callNth outcomes) 0
  generalize lastMade policy manager (callNth outcomes) 0 = last at hrun hstate hlast ⊢
  have hbefore : (List.range last).flatMap
        (fun n => reportsOf (afterCall policy manager outcomes n)) =
      (List.range last).flatMap fun n => (transientReport manager outcomes n).toList := by
    refine List.flatMap_congr fun n hn => ?_
    have hlt := List.mem_range.mp hn
    exact reportsOf_afterCall (Or.inl (by omega))
  unfold EveryFailureReported
  rw [hstate, hrun, reportsOf_flatMap, List.filterMap_eq_flatMap_toList, List.range_succ,
    List.flatMap_append, List.flatMap_append, hbefore, List.flatMap_singleton,
    List.flatMap_singleton, List.append_cancel_left_eq]
  constructor
  · intro hreported
    by_contra hcond
    push Not at hcond
    rw [afterCall_of_exhausted hcond.1] at hreported
    have hnone : transientReport manager outcomes last = none := by
      simpa [reportsOf] using hreported.symm
    exact transientReport_eq_none_iff.mp hnone hcond.2
  · exact reportsOf_afterCall

/--
Every retryable failure is reported exactly if the run is not exhausted: no attempt is
allowed, or one of the allowed attempts is not a retryable failure, or has another after it
and a delay that overflows.
-/
theorem everyFailureReported_iff :
    EveryFailureReported policy manager outcomes ↔
      policy.maxRetries < 0 ∨
        ∃ n : ℕ, (n : ℤ) ≤ policy.maxRetries ∧
          (¬ RetryableFailure manager (outcomes n) ∨
            (n : ℤ) < policy.maxRetries ∧ DelayOverflows policy n) := by
  by_cases hmax : 0 ≤ policy.maxRetries
  · rw [everyFailureReported_iff_last policy manager outcomes hmax]
    have hle := lastMade_le policy manager (callNth outcomes) 0
    have hbefore := fun {n} => retried_of_lt_lastMade policy manager (callNth outcomes) 0 (n := n)
    have hcases := lastMade_cases policy manager (callNth outcomes) 0 hmax
    generalize lastMade policy manager (callNth outcomes) 0 = last at hle hbefore hcases ⊢
    rw [attemptResult_callNth] at hcases
    constructor
    · intro hlast
      refine Or.inr ⟨last, by omega, ?_⟩
      rcases hcases with hfinal | ⟨-, hmore, hover⟩
      · rcases hlast with hless | hnot
        · exact Or.inl (hfinal.resolve_left hless)
        · exact Or.inl hnot
      · exact Or.inr ⟨by omega, hover⟩
    · rintro (hneg | ⟨n, hn, hends⟩)
      · omega
      · by_cases hexhausted : (last : ℤ) = policy.maxRetries
        · have hsame : n = last := by
            by_contra hne
            have hretried := hbefore (by omega : n < last)
            rcases hends with hnot | ⟨-, hover⟩
            · have hfailure := hretried.failure
              rw [attemptResult_callNth] at hfailure
              exact hnot hfailure
            · exact hretried.delay hover
          rcases hends with hnot | ⟨hmore, -⟩
          · exact Or.inr (hsame ▸ hnot)
          · omega
        · exact Or.inl hexhausted
  · have hnone : (policy.maxRetries + 1).toNat = 0 := by omega
    have hrun : runOf policy manager outcomes = ⟨.ok none, 0, []⟩ := by
      rw [runOf, executeWithRetry, hnone]
      rfl
    refine iff_of_true ?_ (Or.inl (by omega))
    rw [EveryFailureReported, hrun]
    rfl

/-- A single attempt that times out is raised and never reported. -/
theorem exhausted_failure_not_reported :
    ¬ EveryFailureReported { lowestDraw PyFloat with maxRetries := 0 } timeouts
      (fun _ => (.error "TimeoutError" : Except String String)) := by
  unfold EveryFailureReported
  decide

end Outcomes

end RetryPolicy
end YamlAgno

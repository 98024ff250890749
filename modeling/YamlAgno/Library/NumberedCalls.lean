import Mathlib.Data.List.Basic

/-!
# Runs that call an outside by number

What a function from outside does at its `n`-th call is an arbitrary sequence of outcomes.  A
run from a state that logs the calls made so far makes the next ones in their order, logs them,
and depends on nothing else of the sequence (`CallsInOrder`).

Such a run is put together from single calls (`CallsInOrder.single`) and steps that call
nothing (`CallsInOrder.silent`).  Two sequences of outcomes give the same run exactly if they
agree at the calls that one of the runs makes (`CallsInOrder.eq_iff`).
-/

universe u v w x

variable {A : Type u} {S : Type v} {R : Type w} {T : Type x}

/-- From `s`, the run makes the calls after those in the log, and reads no others. -/
structure CallsInOrder
    (log : S → List A)
    (state : R → S)
    (s : S)
    (run : (ℕ → A) → R) : Prop where
  recorded : ∀ outcomes, ∃ made,
    log (state (run outcomes)) =
      log s ++ (List.range' (log s).length made).map outcomes
  congr : ∀ outcomes outcomes',
    (∀ n, (log s).length ≤ n → n < (log (state (run outcomes'))).length →
      outcomes n = outcomes' n) →
    run outcomes = run outcomes'

namespace CallsInOrder

variable {log : S → List A} {state : R → S} {s : S}

/-- A step that calls nothing. -/
theorem silent
    {r : R}
    (h : log (state r) = log s) :
    CallsInOrder log state s fun _ => r where
  recorded _ := ⟨0, by simpa using h⟩
  congr _ _ _ := rfl

/-- A step that makes one call and logs its outcome. -/
theorem single
    {f : A → R}
    (h : ∀ outcome, log (state (f outcome)) = log s ++ [outcome]) :
    CallsInOrder log state s fun outcomes => f (outcomes (log s).length) where
  recorded outcomes := ⟨1, by simpa using h (outcomes (log s).length)⟩
  congr outcomes outcomes' hsame := by
    have hlogged := congrArg List.length (h (outcomes' (log s).length))
    rw [List.length_append, List.length_singleton] at hlogged
    rw [hsame (log s).length (Nat.le_refl _) (by omega)]

variable {run : (ℕ → A) → R}

/-- The log only grows. -/
theorem length_le
    (h : CallsInOrder log state s run)
    (outcomes : ℕ → A) :
    (log s).length ≤ (log (state (run outcomes))).length := by
  obtain ⟨made, hmade⟩ := h.recorded outcomes
  rw [hmade, List.length_append]
  exact Nat.le_add_right _ _

/-- The outcome of call `n` is the entry `n` of the log. -/
theorem getElem?_log
    (h : CallsInOrder log state s run)
    (outcomes : ℕ → A)
    {n : ℕ}
    (hfirst : (log s).length ≤ n)
    (hlast : n < (log (state (run outcomes))).length) :
    (log (state (run outcomes)))[n]? = some (outcomes n) := by
  obtain ⟨made, hmade⟩ := h.recorded outcomes
  have hlt : n - (log s).length < made := by
    rw [hmade, List.length_append, List.length_map, List.length_range'] at hlast
    omega
  have hindex : (log s).length + (n - (log s).length) = n := by omega
  rw [hmade, List.getElem?_append_right hfirst, List.getElem?_map, List.getElem?_range' hlt,
    Nat.one_mul, hindex]
  rfl

/-- The log and the calls are those of the parts, one after the other. -/
theorem andThen
    {state' : T → S}
    {next : R → (ℕ → A) → T}
    (h : CallsInOrder log state s run)
    (hnext : ∀ r, CallsInOrder log state' (state r) (next r)) :
    CallsInOrder log state' s fun outcomes => next (run outcomes) outcomes where
  recorded outcomes := by
    obtain ⟨first, hfirst⟩ := h.recorded outcomes
    obtain ⟨rest, hrest⟩ := (hnext (run outcomes)).recorded outcomes
    refine ⟨first + rest, ?_⟩
    rw [hrest, hfirst, List.length_append, List.length_map, List.length_range',
      List.append_assoc, ← List.map_append, List.range'_append_1]
  congr outcomes outcomes' hsame := by
    have hgrows := (hnext (run outcomes')).length_le outcomes'
    have hrun : run outcomes = run outcomes' :=
      h.congr outcomes outcomes' fun n hle hlt => hsame n hle (by omega)
    have hstart := h.length_le outcomes'
    rw [hrun]
    exact (hnext (run outcomes')).congr outcomes outcomes'
      fun n hle hlt => hsame n (by omega) hlt

/-- What is done with the result of a run calls nothing. -/
theorem map
    {state' : T → S}
    {f : R → T}
    (h : CallsInOrder log state s run)
    (hstate : ∀ r, state' (f r) = state r) :
    CallsInOrder log state' s fun outcomes => f (run outcomes) :=
  h.andThen fun r => silent (congrArg log (hstate r))

/-- Two sequences of outcomes give the same run if and only if they agree where it calls. -/
theorem eq_iff
    (h : CallsInOrder log state s run)
    (outcomes outcomes' : ℕ → A) :
    run outcomes = run outcomes' ↔
      ∀ n, (log s).length ≤ n → n < (log (state (run outcomes'))).length →
        outcomes n = outcomes' n := by
  constructor
  · intro hrun n hfirst hlast
    have hlogged := h.getElem?_log outcomes' hfirst hlast
    rw [← hrun] at hlast hlogged
    exact Option.some.inj ((h.getElem?_log outcomes hfirst hlast).symm.trans hlogged)
  · exact h.congr outcomes outcomes'

end CallsInOrder

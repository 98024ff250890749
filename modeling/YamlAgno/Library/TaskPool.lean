import YamlAgno.Library.Runs
import Mathlib.Algebra.GroupWithZero.Nat

/-!
# Pools of tasks

A pool keeps its tasks in a list, in the order in which they were started.  One step of it
starts a task, takes one on, or leaves them all as they are (`Step`).

What holds of a task when it is started and after each of its moves holds of every task of
the pool (`Step.forall_mem`).  A number that every move of a task makes smaller bounds the
moves of the pool: it is summed over the tasks (`sum_map_set`).
-/

namespace TaskPool

variable {T : Type*}

/-- What one step makes of the tasks. -/
inductive Step (starts : T → Prop) (moves : T → T → Prop) (tasks : List T) : List T → Prop
  | same : Step starts moves tasks tasks
  | started (t : T) (h : starts t) : Step starts moves tasks (tasks ++ [t])
  | moved (id : ℕ) (t t' : T) (ht : tasks[id]? = some t) (h : moves t t') :
      Step starts moves tasks (tasks.set id t')

variable {starts : T → Prop} {moves : T → T → Prop} {tasks tasks' : List T}

/-- What holds of the tasks holds after one of them is replaced by another it holds of. -/
theorem forall_mem_set
    {P : T → Prop} {id : ℕ} {t' : T}
    (h : ∀ t ∈ tasks, P t)
    (ht' : P t') :
    ∀ t ∈ tasks.set id t', P t := by
  intro u hu
  rcases List.mem_or_eq_of_mem_set hu with hu | rfl
  · exact h u hu
  · exact ht'

/-- What holds of a task from its start on and is kept by its moves holds of all tasks. -/
theorem Step.forall_mem
    {P : T → Prop}
    (hstart : ∀ t, starts t → P t)
    (hmove : ∀ t t', P t → moves t t' → P t')
    (h : ∀ t ∈ tasks, P t)
    (hstep : Step starts moves tasks tasks') :
    ∀ t ∈ tasks', P t := by
  cases hstep with
  | same =>
      exact h
  | started t ht =>
      intro u hu
      rcases List.mem_append.mp hu with hu | hu
      · exact h u hu
      · obtain rfl := List.mem_singleton.mp hu
        exact hstart u ht
  | moved id t t' ht hmoved =>
      exact forall_mem_set h (hmove t t' (h t (List.mem_of_getElem? ht)) hmoved)

/-- A sum over the tasks, after one of them has been replaced. -/
theorem sum_map_set
    (f : T → ℕ)
    {id : ℕ} {t : T}
    (h : tasks[id]? = some t)
    (t' : T) :
    ((tasks.set id t').map f).sum + f t = (tasks.map f).sum + f t' := by
  induction tasks generalizing id with
  | nil =>
      simp at h
  | cons u tasks ih =>
      cases id with
      | zero =>
          cases h
          simp only [List.set_cons_zero, List.map_cons, List.sum_cons]
          omega
      | succ i =>
          have hrest := ih h
          simp only [List.set_cons_succ, List.map_cons, List.sum_cons]
          omega

/-- A task that is replaced by one that looks the same. -/
theorem map_set_of_eq
    {V : Type*} {f : T → V}
    {id : ℕ} {t t' : T}
    (h : tasks[id]? = some t)
    (hsame : f t' = f t) :
    (tasks.set id t').map f = tasks.map f := by
  obtain ⟨hlt, rfl⟩ := List.getElem?_eq_some_iff.mp h
  rw [List.map_set, hsame, ← List.map_set, List.set_getElem_self]

theorem sum_map_append_singleton
    (f : T → ℕ)
    (tasks : List T)
    (t : T) :
    ((tasks ++ [t]).map f).sum = (tasks.map f).sum + f t := by
  simp

section Collected

variable {V : Type*} {f : T → Option V} {id : ℕ} {t t' : T}

/-- What is collected from the tasks, after one of them may have come to have something. -/
theorem filterMap_set_perm
    (h : tasks[id]? = some t)
    (hold : f t = none) :
    ((tasks.set id t').filterMap f).Perm (tasks.filterMap f ++ (f t').toList) := by
  induction tasks generalizing id with
  | nil =>
      simp at h
  | cons u tasks ih =>
      cases id with
      | zero =>
          cases h
          rw [List.set_cons_zero, List.filterMap_cons_none hold]
          cases hnew : f t' with
          | none => simp [List.filterMap_cons_none hnew]
          | some v =>
              rw [List.filterMap_cons_some hnew]
              exact (List.perm_append_singleton v _).symm
      | succ i =>
          have hrest := ih h
          rw [List.set_cons_succ, List.filterMap_cons, List.filterMap_cons]
          split
          · exact hrest
          · exact hrest.cons _

/-- A task that is replaced by one with the same to collect. -/
theorem filterMap_set_of_eq
    (h : tasks[id]? = some t)
    (hsame : f t' = f t) :
    (tasks.set id t').filterMap f = tasks.filterMap f := by
  induction tasks generalizing id with
  | nil =>
      simp at h
  | cons u tasks ih =>
      cases id with
      | zero =>
          cases h
          rw [List.set_cons_zero, List.filterMap_cons, List.filterMap_cons, hsame]
      | succ i =>
          rw [List.set_cons_succ, List.filterMap_cons, List.filterMap_cons, ih h]

end Collected

/-- The task at an index is one of the old ones, or the one just started. -/
theorem getElem?_append_singleton
    {id : ℕ} {t u : T}
    (h : (tasks ++ [t])[id]? = some u) :
    tasks[id]? = some u ∨ (id = tasks.length ∧ t = u) := by
  rw [List.getElem?_append] at h
  split at h
  · exact .inl h
  · next hle =>
      rw [List.getElem?_singleton] at h
      split at h
      · next hzero => exact .inr ⟨by omega, Option.some.inj h⟩
      · cases h

end TaskPool

import Mathlib.Data.List.Basic

/-!
# The last version that was accepted

A value is replaced again and again by attempts that may fail.  `keepLast` is the
value after a list of attempts: that of the last one that succeeded.

A system refines this as soon as one of its steps does (`foldl_eq_keepLast`).
-/

universe u v w

namespace KeepLast

variable {E : Type u} {α : Type v}

/-- An attempt to replace the value; a failed one keeps it. -/
def replace
    (value : α) :
    Except E α → α
  | .ok value' => value'
  | .error _ => value

/-- The value after all the attempts. -/
def keepLast
    (value : α)
    (attempts : List (Except E α)) :
    α :=
  attempts.foldl replace value

/-- The value is that of an attempt after which all others have failed. -/
theorem exists_keepLast
    (value : α)
    (attempts : List (Except E α)) :
    ∃ before after, .ok value :: attempts = before ++ .ok (keepLast value attempts) :: after ∧
      ∀ x ∈ after, ∃ error, x = .error error := by
  induction attempts generalizing value with
  | nil =>
      exact ⟨[], [], rfl, by simp⟩
  | cons x attempts ih =>
      cases x with
      | ok value' =>
          obtain ⟨before, after, heq, hafter⟩ := ih value'
          refine ⟨.ok value :: before, after, ?_, hafter⟩
          rw [List.cons_append]
          exact congrArg _ heq
      | error error =>
          obtain ⟨before, after, heq, hafter⟩ := ih value
          cases before with
          | nil =>
              obtain ⟨hvalue, rfl⟩ := List.cons.inj heq
              refine ⟨[], .error error :: attempts, ?_, ?_⟩
              · exact congrArg (· :: .error error :: attempts) hvalue
              · rintro x hx
                rcases List.mem_cons.mp hx with rfl | hx
                · exact ⟨error, rfl⟩
                · exact hafter x hx
          | cons first before =>
              obtain ⟨rfl, hrest⟩ := List.cons.inj heq
              exact ⟨.ok value :: .error error :: before, after,
                congrArg (.ok value :: .error error :: ·) hrest, hafter⟩

/-- A system whose events replace the value, or leave it, holds the last accepted value. -/
theorem foldl_eq_keepLast
    {S : Type w} {A : Type*}
    {step : S → A → S}
    (view : S → α)
    (attempt : A → Option (Except E α))
    (hstep : ∀ s a, view (step s a) = (attempt a).elim (view s) (replace (view s)))
    (s : S)
    (as : List A) :
    view (as.foldl step s) = keepLast (view s) (as.filterMap attempt) := by
  induction as generalizing s with
  | nil =>
      rfl
  | cons a as ih =>
      rw [List.foldl_cons, ih, hstep, List.filterMap_cons]
      cases attempt a <;> rfl

end KeepLast

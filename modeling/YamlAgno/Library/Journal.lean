import Mathlib.Data.List.Basic

/-!
# Journals: computations that may raise and report what they did outside

A program that calls a function from outside is modelled by a computation whose
value is the program's, and whose journal lists the calls in order.  Raising ends
the computation and keeps the journal written so far.

The value does not depend on the journal (`result_bind`, `result_mapM`).
-/

universe u v w

/-- A result and the journal written on the way. -/
structure Journal (W : Type u) (E : Type v) (α : Type w) where
  entries : List W
  result : Except E α

namespace Journal

variable {W : Type u} {E : Type v} {α β : Type w}

/-- Continues with a value and its journal; an exception ends the computation. -/
def andThen (x : Journal W E α) (k : α → Journal W E β) : Journal W E β :=
  match x.result with
  | .error error => ⟨x.entries, .error error⟩
  | .ok value => ⟨x.entries ++ (k value).entries, (k value).result⟩

instance : Monad (Journal W E) where
  pure value := ⟨[], .ok value⟩
  bind := andThen

/-- A computed exception or value, with nothing to report. -/
def ofExcept (result : Except E α) : Journal W E α :=
  ⟨[], result⟩

/-- The outcome of one call that is reported. -/
def reported (entry : W) (result : Except E α) : Journal W E α :=
  ⟨[entry], result⟩

@[simp] theorem result_pure (value : α) :
    (pure value : Journal W E α).result = .ok value := by
  rfl

@[simp] theorem entries_pure (value : α) :
    (pure value : Journal W E α).entries = [] := by
  rfl

@[simp] theorem result_ofExcept (result : Except E α) :
    (ofExcept result : Journal W E α).result = result := by
  rfl

@[simp] theorem entries_ofExcept (result : Except E α) :
    (ofExcept result : Journal W E α).entries = [] := by
  rfl

@[simp] theorem result_reported (entry : W) (result : Except E α) :
    (reported entry result).result = result := by
  rfl

@[simp] theorem entries_reported (entry : W) (result : Except E α) :
    (reported entry result).entries = [entry] := by
  rfl

/-- The value of a sequence is that of its values. -/
@[simp] theorem result_bind (x : Journal W E α) (k : α → Journal W E β) :
    (x >>= k).result = x.result >>= fun value => (k value).result := by
  show (andThen x k).result = _
  unfold andThen
  cases x.result <;> rfl

theorem entries_bind_of_error
    {x : Journal W E α} {error : E}
    (h : x.result = .error error) (k : α → Journal W E β) :
    (x >>= k).entries = x.entries := by
  show (andThen x k).entries = _
  simp [andThen, h]

theorem entries_bind_of_ok
    {x : Journal W E α} {value : α}
    (h : x.result = .ok value) (k : α → Journal W E β) :
    (x >>= k).entries = x.entries ++ (k value).entries := by
  show (andThen x k).entries = _
  simp [andThen, h]

instance : LawfulMonad (Journal W E) :=
  LawfulMonad.mk' (Journal W E)
    (fun ⟨_, result⟩ => by cases result <;> simp [Functor.map, andThen])
    (fun _ _ => by simp [pure, bind, andThen])
    (fun ⟨_, result⟩ k l => by
      cases result with
      | error => rfl
      | ok value =>
          cases h : (k value).result <;> simp [bind, andThen, h])

/-- The value of a traversal is that of the values. -/
theorem result_mapM
    {γ : Type u} {f : γ → Journal W E β} {g : γ → Except E β} {xs : List γ}
    (h : ∀ x ∈ xs, (f x).result = g x) :
    (xs.mapM f).result = xs.mapM g := by
  induction xs with
  | nil =>
      rfl
  | cons x xs ih =>
      have hx := h x List.mem_cons_self
      have hxs := ih (fun z hz => h z (List.mem_cons_of_mem x hz))
      simp only [List.mapM_cons, result_bind, hx, hxs, result_pure]
      rfl

end Journal

import Mathlib.Data.List.Forall2

/-!
# Attempts: computations that may raise or run out of depth

A recursive program whose recursion need not end is modelled by a function that
is given a depth.  Its result is an `Attempt`: a value, an exception, or the
report that the depth was exhausted before either was reached.

`Below x y` says that `y` is `x`, or that `x` was exhausted: `y` is what more
depth can make of `x`.  Every construct that builds attempts from attempts
respects this order, which is how a settled attempt is seen to be stable.
-/

universe u v w

/-- Result of a computation that is given a depth. -/
inductive Attempt (E : Type u) (α : Type v) where
  | exhausted
  | raised (error : E)
  | returned (value : α)
deriving DecidableEq

namespace Attempt

variable {E : Type u} {α : Type v} {β : Type v}

/-- Runs the continuation on a value; exceptions and exhaustion pass through. -/
def andThen (x : Attempt E α) (k : α → Attempt E β) : Attempt E β :=
  match x with
  | exhausted => exhausted
  | raised error => raised error
  | returned value => k value

instance : Monad (Attempt E) where
  pure := returned
  bind := andThen

@[simp] theorem pure_eq_returned (a : α) :
    (pure a : Attempt E α) = returned a := by
  rfl

@[simp] theorem exhausted_bind (k : α → Attempt E β) :
    (exhausted : Attempt E α) >>= k = exhausted := by
  rfl

@[simp] theorem raised_bind (error : E) (k : α → Attempt E β) :
    (raised error : Attempt E α) >>= k = raised error := by
  rfl

@[simp] theorem returned_bind (a : α) (k : α → Attempt E β) :
    (returned a : Attempt E α) >>= k = k a := by
  rfl

@[simp] theorem map_returned (f : α → β) (a : α) :
    f <$> (returned a : Attempt E α) = returned (f a) := by
  rfl

theorem id_map (x : Attempt E α) :
    id <$> x = x := by
  cases x <;> rfl

theorem andThen_assoc
    {γ : Type v} (x : Attempt E α) (k : α → Attempt E β) (l : β → Attempt E γ) :
    x >>= k >>= l = x >>= fun a => k a >>= l := by
  cases x <;> rfl

instance : LawfulMonad (Attempt E) :=
  LawfulMonad.mk' (Attempt E) id_map (fun _ _ => rfl) andThen_assoc

/-- A computed exception or value, as an attempt. -/
def ofExcept : Except E α → Attempt E α
  | .error error => raised error
  | .ok value => returned value

@[simp] theorem ofExcept_error (error : E) :
    (ofExcept (.error error) : Attempt E α) = raised error := by
  rfl

@[simp] theorem ofExcept_ok (a : α) :
    (ofExcept (.ok a) : Attempt E α) = returned a := by
  rfl

theorem ofExcept_eq_returned_iff
    {x : Except E α} {a : α} :
    ofExcept x = returned a ↔ x = .ok a := by
  cases x <;> simp

/-- A change made to a computed value can be made by what follows. -/
theorem ofExcept_map_bind
    {γ : Type v} (x : Except E α) (f : α → γ) (k : γ → Attempt E β) :
    (ofExcept (x.map f) >>= k) = ofExcept x >>= fun a => k (f a) := by
  cases x <;> rfl

/-- An attempt has settled exactly when it is a computed exception or value. -/
theorem ne_exhausted_iff
    {x : Attempt E α} :
    x ≠ exhausted ↔ ∃ result, x = ofExcept result := by
  constructor
  · intro hx
    cases x with
    | exhausted => exact absurd rfl hx
    | raised error => exact ⟨.error error, rfl⟩
    | returned a => exact ⟨.ok a, rfl⟩
  · rintro ⟨result, rfl⟩
    cases result <;> simp

/-- A sequence returns exactly when both of its halves do. -/
theorem bind_eq_returned_iff
    {x : Attempt E α} {k : α → Attempt E β} {b : β} :
    x >>= k = returned b ↔ ∃ a, x = returned a ∧ k a = returned b := by
  cases x with
  | exhausted =>
      simp
  | raised error =>
      simp
  | returned a =>
      simp

/-- A traversal returns exactly when each of its items does. -/
theorem mapM_eq_returned_iff
    {γ : Type w} {f : γ → Attempt E β} {xs : List γ} {ys : List β} :
    xs.mapM f = returned ys ↔
      List.Forall₂ (fun x y => f x = returned y) xs ys := by
  induction xs generalizing ys with
  | nil =>
      simp [eq_comm]
  | cons x xs ih =>
      rw [List.mapM_cons, bind_eq_returned_iff, List.forall₂_cons_left_iff]
      constructor
      · rintro ⟨y, hy, hrest⟩
        rw [bind_eq_returned_iff] at hrest
        obtain ⟨ys', hys, hcons⟩ := hrest
        cases hcons
        exact ⟨y, ys', hy, ih.mp hys, rfl⟩
      · rintro ⟨y, ys', hy, hys, rfl⟩
        refine ⟨y, hy, ?_⟩
        rw [bind_eq_returned_iff]
        exact ⟨ys', ih.mpr hys, rfl⟩

/-- A change made to every result of a traversal can be made to their list. -/
theorem mapM_map_result
    {γ : Type w} {δ : Type v} (g : β → δ) (f : γ → Attempt E β) (xs : List γ) :
    xs.mapM (fun x => g <$> f x) = List.map g <$> xs.mapM f := by
  induction xs with
  | nil =>
      rfl
  | cons x xs ih =>
      rw [List.mapM_cons, List.mapM_cons, ih]
      simp only [map_eq_pure_bind, bind_assoc, pure_bind, List.map_cons]

/-- A change made to a computed value can be made to the attempt. -/
theorem ofExcept_map (f : α → β) (x : Except E α) :
    (ofExcept (x.map f) : Attempt E β) = f <$> ofExcept x := by
  cases x <;> rfl

/-- A changed attempt returns exactly what the attempt returns, changed. -/
theorem map_eq_returned_iff
    {f : α → β} {x : Attempt E α} {b : β} :
    f <$> x = returned b ↔ ∃ a, x = returned a ∧ b = f a := by
  rw [map_eq_pure_bind, bind_eq_returned_iff]
  simp [eq_comm]

/-! ## More depth -/

/-- `y` is what more depth can make of `x`. -/
def Below (x y : Attempt E α) : Prop :=
  x = exhausted ∨ x = y

theorem Below.refl (x : Attempt E α) : Below x x :=
  Or.inr rfl

theorem Below.trans
    {x y z : Attempt E α}
    (hxy : Below x y) (hyz : Below y z) :
    Below x z := by
  rcases hxy with h | rfl
  · exact Or.inl h
  · exact hyz

/-- A settled attempt cannot change any more. -/
theorem Below.eq_of_ne
    {x y : Attempt E α}
    (h : Below x y) (hx : x ≠ exhausted) :
    x = y := by
  rcases h with h | h
  · exact absurd h hx
  · exact h

theorem Below.bind
    {x y : Attempt E α} {k l : α → Attempt E β}
    (h : Below x y) (hkl : ∀ a, Below (k a) (l a)) :
    Below (x >>= k) (y >>= l) := by
  rcases h with rfl | rfl
  · exact Or.inl rfl
  · cases x with
    | exhausted => exact Or.inl rfl
    | raised error => exact Or.inr rfl
    | returned a => exact hkl a

theorem Below.mapM
    {γ : Type w} {f g : γ → Attempt E β}
    (h : ∀ a, Below (f a) (g a))
    (xs : List γ) :
    Below (xs.mapM f) (xs.mapM g) := by
  induction xs with
  | nil =>
      simp only [List.mapM_nil]
      exact Below.refl _
  | cons x xs ih =>
      simp only [List.mapM_cons]
      exact (h x).bind (fun _ => ih.bind (fun _ => Below.refl _))

end Attempt

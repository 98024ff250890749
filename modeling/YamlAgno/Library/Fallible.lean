import Mathlib.Data.List.Forall2

/-!
# Computations that return a value or an error

What is known when an `Except` computation returns: which parts have returned
before it, and with what.  Proofs about fallible programs take a sequence apart
with `bind_eq_ok_iff`, a mapped result with `map_eq_ok_iff`, and a traversal of a
list with `mapM_eq_ok_iff`, or with `exists_of_mapM_eq_error` when it has failed.
-/

namespace Fallible

universe u v

variable {E : Type u} {α β : Type v}

/-- A sequence returns exactly when both of its halves do. -/
theorem bind_eq_ok_iff
    {x : Except E α}
    {k : α → Except E β}
    {b : β} :
    x >>= k = .ok b ↔ ∃ a, x = .ok a ∧ k a = .ok b := by
  cases x with
  | error error =>
      simp [bind, Except.bind]
  | ok a =>
      simp [bind, Except.bind]

/-- A sequence fails in its first half, or in its second one after the first. -/
theorem bind_eq_error_iff
    {x : Except E α}
    {k : α → Except E β}
    {error : E} :
    x >>= k = .error error ↔ x = .error error ∨ ∃ a, x = .ok a ∧ k a = .error error := by
  cases x with
  | error error =>
      simp [bind, Except.bind]
  | ok a =>
      simp [bind, Except.bind]

theorem map_eq_ok_iff
    {x : Except E α}
    {f : α → β}
    {b : β} :
    x.map f = .ok b ↔ ∃ a, x = .ok a ∧ f a = b := by
  cases x <;> simp [Except.map]

/-- A change made to the value does not decide whether there is one. -/
theorem map_isOk_iff
    {x : Except E α}
    {f : α → β} :
    (∃ b, x.map f = .ok b) ↔ ∃ a, x = .ok a := by
  cases x <;> simp [Except.map]

/-- A change made to the value leaves the error. -/
@[simp] theorem map_eq_error_iff
    {x : Except E α}
    {f : α → β}
    {error : E} :
    x.map f = .error error ↔ x = .error error := by
  cases x <;> simp [Except.map]

/-- A change made to the error leaves the value. -/
@[simp] theorem mapError_eq_ok_iff
    {E' : Type u}
    {x : Except E α}
    {g : E → E'}
    {a : α} :
    x.mapError g = .ok a ↔ x = .ok a := by
  cases x <;> simp [Except.mapError]

/-- What follows a check is done if the check does not fail. -/
theorem check_bind
    {c : Prop} [Decidable c]
    {error : E}
    {x : Except E α}
    {k : α → Except E β} :
    ((if c then .error error else x) >>= k) = if c then .error error else x >>= k := by
  split_ifs <;> rfl

/-! ## Traversals -/

variable {γ : Type*} {f : γ → Except E β}

/-- A traversal returns exactly when each of its items does. -/
theorem mapM_eq_ok_iff
    {xs : List γ}
    {ys : List β} :
    xs.mapM f = .ok ys ↔ List.Forall₂ (fun x y => f x = .ok y) xs ys := by
  induction xs generalizing ys with
  | nil =>
      simp [pure, Except.pure, eq_comm]
  | cons x xs ih =>
      rw [List.mapM_cons, bind_eq_ok_iff, List.forall₂_cons_left_iff]
      constructor
      · rintro ⟨y, hy, hrest⟩
        obtain ⟨ys', hys, hcons⟩ := bind_eq_ok_iff.mp hrest
        cases hcons
        exact ⟨y, ys', hy, ih.mp hys, rfl⟩
      · rintro ⟨y, ys', hy, hys, rfl⟩
        exact ⟨y, hy, bind_eq_ok_iff.mpr ⟨ys', ih.mpr hys, rfl⟩⟩

/-- The error of a computation that has failed. -/
def errorOf? : Except E α → Option E
  | .error error => some error
  | .ok _ => none

theorem errorOf?_eq_none_iff
    {x : Except E α} :
    errorOf? x = none ↔ ∃ a, x = .ok a := by
  cases x <;> simp [errorOf?]

/-- A traversal fails with the first error among its items. -/
theorem errorOf?_mapM
    (xs : List γ) :
    errorOf? (xs.mapM f) = xs.findSome? fun x => errorOf? (f x) := by
  induction xs with
  | nil =>
      rfl
  | cons x xs ih =>
      rw [List.mapM_cons, List.findSome?_cons, ← ih]
      cases f x with
      | error error => rfl
      | ok y => cases xs.mapM f <;> rfl

/-- Two traversals, one after the other, go through the items one by one. -/
theorem forall₂_of_mapM_mapM
    {E' : Type u}
    {δ : Type v}
    {g : β → Except E' δ}
    {xs : List γ}
    {ys : List β}
    {zs : List δ}
    (hf : xs.mapM f = .ok ys)
    (hg : ys.mapM g = .ok zs) :
    List.Forall₂ (fun x z => ∃ y, f x = .ok y ∧ g y = .ok z) xs zs := by
  rw [mapM_eq_ok_iff] at hf hg
  induction hf generalizing zs with
  | nil =>
      cases hg
      exact .nil
  | cons hx _ ih =>
      cases hg with
      | cons hy hrest => exact .cons ⟨_, hx, hy⟩ (ih hrest)

/-- A change made to the errors of the items is made to that of the traversal. -/
theorem mapM_mapError
    {E' : Type u}
    (g : E → E')
    (xs : List γ) :
    (xs.mapM fun x => (f x).mapError g) = (xs.mapM f).mapError g := by
  induction xs with
  | nil => rfl
  | cons x xs ih =>
      rw [List.mapM_cons, List.mapM_cons, ih]
      cases f x with
      | error error => rfl
      | ok y => cases xs.mapM f <;> rfl

/-- What can be undone item by item can be undone for a list. -/
theorem exists_mapM_of_inverse
    {E' : Type u}
    {g : β → Except E' γ}
    {xs : List γ}
    (h : ∀ x ∈ xs, ∃ y, f x = .ok y ∧ g y = .ok x) :
    ∃ ys, xs.mapM f = .ok ys ∧ ys.mapM g = .ok xs := by
  induction xs with
  | nil =>
      exact ⟨[], rfl, rfl⟩
  | cons x xs ih =>
      obtain ⟨y, hf, hg⟩ := h x List.mem_cons_self
      obtain ⟨ys, hfs, hgs⟩ := ih fun z hz => h z (List.mem_cons_of_mem x hz)
      refine ⟨y :: ys, ?_, ?_⟩
      · rw [List.mapM_cons, hf, hfs]
        rfl
      · rw [List.mapM_cons, hg, hgs]
        rfl

/-- A traversal that fails has failed at an item all of whose predecessors return. -/
theorem exists_of_mapM_eq_error
    {xs : List γ}
    {error : E}
    (h : xs.mapM f = .error error) :
    ∃ before x after,
      xs = before ++ x :: after ∧ (∀ z ∈ before, ∃ y, f z = .ok y) ∧ f x = .error error := by
  induction xs with
  | nil =>
      cases h
  | cons x xs ih =>
      rw [List.mapM_cons] at h
      cases hx : f x with
      | error error' =>
          rw [hx] at h
          cases h
          exact ⟨[], x, xs, rfl, by simp, hx⟩
      | ok y =>
          cases hxs : xs.mapM f with
          | error error' =>
              rw [hx, hxs] at h
              cases h
              obtain ⟨before, x', after, rfl, hbefore, hfail⟩ := ih hxs
              refine ⟨x :: before, x', after, rfl, fun z hz => ?_, hfail⟩
              rcases List.mem_cons.mp hz with rfl | hz
              · exact ⟨y, hx⟩
              · exact hbefore z hz
          | ok rest =>
              rw [hx, hxs] at h
              cases h

/-- A fold whose steps each add one key has added the keys of all its items. -/
theorem mem_keys_of_foldlM
    {R K : Type v}
    {step : R → γ → Except E R}
    (keys : R → List K)
    (key : γ → K)
    (hstep : ∀ r x r', step r x = .ok r' → ∀ k, k ∈ keys r' ↔ k = key x ∨ k ∈ keys r)
    {xs : List γ}
    {r r' : R}
    (h : xs.foldlM step r = .ok r')
    (k : K) :
    k ∈ keys r' ↔ k ∈ xs.map key ∨ k ∈ keys r := by
  induction xs generalizing r with
  | nil =>
      cases h
      simp
  | cons x xs ih =>
      rw [List.foldlM_cons] at h
      obtain ⟨r₁, hx, hxs⟩ := bind_eq_ok_iff.mp h
      rw [ih hxs, hstep r x r₁ hx k, List.map_cons, List.mem_cons]
      exact or_left_comm.trans or_assoc.symm

/-! ## Loops that add what they make of each item -/

section Adding

variable {R : Type v} {step : R → γ → Except E R} {builds : γ → β → Prop} {add : R → β → R}

/-- The loop returns exactly when something is made of each item, and has added all of it. -/
theorem foldlM_eq_ok_iff
    (hstep : ∀ r x r', step r x = .ok r' ↔ ∃ b, builds x b ∧ r' = add r b)
    {xs : List γ}
    {r r' : R} :
    xs.foldlM step r = .ok r' ↔ ∃ bs, List.Forall₂ builds xs bs ∧ r' = bs.foldl add r := by
  induction xs generalizing r with
  | nil =>
      constructor
      · intro h
        cases h
        exact ⟨[], .nil, rfl⟩
      · rintro ⟨bs, hbs, rfl⟩
        cases hbs
        rfl
  | cons x xs ih =>
      rw [List.foldlM_cons, bind_eq_ok_iff]
      constructor
      · rintro ⟨r₁, hx, hrest⟩
        obtain ⟨b, hb, rfl⟩ := (hstep r x r₁).mp hx
        obtain ⟨bs, hbs, rfl⟩ := ih.mp hrest
        exact ⟨b :: bs, .cons hb hbs, rfl⟩
      · rintro ⟨bs, hbs, rfl⟩
        cases hbs with
        | cons hb hrest => exact ⟨_, (hstep r x _).mpr ⟨_, hb, rfl⟩, ih.mpr ⟨_, hrest, rfl⟩⟩

/-- The loop fails with the error of the first item that nothing is made of. -/
theorem foldlM_eq_error_iff
    {fails : γ → E → Prop}
    (hstep : ∀ r x r', step r x = .ok r' ↔ ∃ b, builds x b ∧ r' = add r b)
    (hfails : ∀ r x e, step r x = .error e ↔ fails x e)
    {xs : List γ}
    {r : R}
    {error : E} :
    xs.foldlM step r = .error error ↔
      ∃ before x after, xs = before ++ x :: after ∧ (∀ y ∈ before, ∃ b, builds y b) ∧
        fails x error := by
  induction xs generalizing r with
  | nil =>
      constructor
      · intro h
        cases h
      · rintro ⟨before, x, after, h, -, -⟩
        cases before <;> cases h
  | cons x xs ih =>
      rw [List.foldlM_cons]
      cases hx : step r x with
      | error error' =>
          have hnone : ¬ ∃ b, builds x b := by
            rintro ⟨b, hb⟩
            rw [(hstep r x _).mpr ⟨b, hb, rfl⟩] at hx
            cases hx
          constructor
          · intro h
            cases h
            exact ⟨[], x, xs, rfl, by simp, (hfails r x error).mp hx⟩
          · rintro ⟨before, y, after, heq, hbefore, hfail⟩
            cases before with
            | nil =>
                cases heq
                rw [(hfails r x error).mpr hfail] at hx
                exact hx.symm
            | cons z before =>
                cases heq
                exact absurd (hbefore x List.mem_cons_self) hnone
      | ok r₁ =>
          obtain ⟨b, hb, -⟩ := (hstep r x r₁).mp hx
          change xs.foldlM step r₁ = .error error ↔ _
          rw [ih]
          constructor
          · rintro ⟨before, y, after, rfl, hbefore, hfail⟩
            refine ⟨x :: before, y, after, rfl, fun z hz => ?_, hfail⟩
            rcases List.mem_cons.mp hz with rfl | hz
            · exact ⟨b, hb⟩
            · exact hbefore z hz
          · rintro ⟨before, y, after, heq, hbefore, hfail⟩
            cases before with
            | nil =>
                cases heq
                rw [(hfails r x error).mpr hfail] at hx
                cases hx
            | cons z before =>
                cases heq
                exact ⟨before, y, after, rfl,
                  fun w hw => hbefore w (List.mem_cons_of_mem x hw), hfail⟩

end Adding

/-! ## Loops that append a value for each item -/

section Appending

variable {g : ℕ → γ → Except E β} {acc out : List β} {xs : List γ}

/-- The loop over `xs` that appends what `g` makes of each item at its place. -/
def appendEach (g : ℕ → γ → Except E β) (acc : List β) (xs : List γ) : Except E (List β) :=
  xs.foldlM (fun acc x => do
    let y ← g acc.length x
    return acc ++ [y]) acc

theorem appendEach_cons (acc : List β) (x : γ) (xs : List γ) :
    appendEach g acc (x :: xs) = g acc.length x >>= fun y => appendEach g (acc ++ [y]) xs := by
  rw [appendEach, List.foldlM_cons]
  cases g acc.length x <;> rfl

/-- The loop returns exactly when each item does, with their values in order. -/
theorem appendEach_eq_ok_iff :
    appendEach g acc xs = .ok out ↔
      ∃ ys, List.Forall₂ (fun item y => g item.2 item.1 = .ok y) (xs.zipIdx acc.length) ys ∧
        out = acc ++ ys := by
  induction xs generalizing acc with
  | nil =>
      constructor
      · intro h
        cases h
        exact ⟨[], .nil, (List.append_nil out).symm⟩
      · rintro ⟨ys, hys, rfl⟩
        cases hys
        rw [List.append_nil]
        rfl
  | cons x xs ih =>
      rw [appendEach_cons, bind_eq_ok_iff, List.zipIdx_cons]
      constructor
      · rintro ⟨y, hy, hrest⟩
        obtain ⟨ys, hys, rfl⟩ := ih.mp hrest
        rw [List.length_append, List.length_singleton] at hys
        exact ⟨y :: ys, .cons hy hys, List.append_assoc acc [y] ys⟩
      · rintro ⟨ys, hys, rfl⟩
        obtain ⟨y, rest, hy, hrest, rfl⟩ := List.forall₂_cons_left_iff.mp hys
        refine ⟨y, hy, ih.mpr ⟨rest, ?_, (List.append_assoc acc [y] rest).symm⟩⟩
        rw [List.length_append, List.length_singleton]
        exact hrest

/-- The loop fails with the error of the first item that fails. -/
theorem appendEach_eq_error_iff {error : E} :
    appendEach g acc xs = .error error ↔
      ∃ before x after, xs = before ++ x :: after ∧
        (∀ item ∈ before.zipIdx acc.length, ∃ y, g item.2 item.1 = .ok y) ∧
        g (acc.length + before.length) x = .error error := by
  induction xs generalizing acc with
  | nil =>
      constructor
      · intro h
        cases h
      · rintro ⟨before, x, after, h, -⟩
        exact absurd h.symm (List.append_ne_nil_of_right_ne_nil before (List.cons_ne_nil x after))
  | cons x xs ih =>
      rw [appendEach_cons]
      cases hx : g acc.length x with
      | error error' =>
          constructor
          · intro h
            cases h
            exact ⟨[], x, xs, rfl, by simp, hx⟩
          · rintro ⟨before, x', after, h, hbefore, hfail⟩
            cases before with
            | nil =>
                cases h
                cases hx.symm.trans hfail
                rfl
            | cons z before =>
                cases h
                obtain ⟨y, hy⟩ := hbefore (x, acc.length) (by simp)
                cases hx.symm.trans hy
      | ok y =>
          have hlength : (acc ++ [y]).length = acc.length + 1 := by simp
          refine ih.trans ?_
          rw [hlength]
          constructor
          · rintro ⟨before, x', after, rfl, hbefore, hfail⟩
            refine ⟨x :: before, x', after, rfl, ?_, ?_⟩
            · rw [List.zipIdx_cons]
              exact List.forall_mem_cons.mpr ⟨⟨y, hx⟩, hbefore⟩
            · rwa [List.length_cons, Nat.add_comm before.length, ← Nat.add_assoc]
          · rintro ⟨before, x', after, h, hbefore, hfail⟩
            cases before with
            | nil =>
                cases h
                cases hx.symm.trans hfail
            | cons z before =>
                cases h
                rw [List.zipIdx_cons] at hbefore
                rw [List.length_cons, Nat.add_comm before.length, ← Nat.add_assoc] at hfail
                exact ⟨before, x', after, rfl, (List.forall_mem_cons.mp hbefore).2, hfail⟩

end Appending

end Fallible

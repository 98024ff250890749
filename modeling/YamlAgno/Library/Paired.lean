import Mathlib.Data.List.Forall2

/-!
# Lists related item by item

Reading two related lists at an index, finding the partner of an item, and
exchanging the relation for one that follows from it.
-/

namespace Paired

variable {α β : Type*} {P : α → β → Prop} {xs : List α} {ys : List β}

/-- Related lists have related items at each index. -/
theorem related_at
    (h : List.Forall₂ P xs ys)
    {i : ℕ}
    {x : α}
    {y : β}
    (hx : xs[i]? = some x)
    (hy : ys[i]? = some y) :
    P x y := by
  obtain ⟨hi, rfl⟩ := List.getElem?_eq_some_iff.mp hx
  obtain ⟨hj, rfl⟩ := List.getElem?_eq_some_iff.mp hy
  exact h.get hi hj

/-- An index of the left list is one of the right list. -/
theorem exists_at
    (h : List.Forall₂ P xs ys)
    {i : ℕ}
    {x : α}
    (hx : xs[i]? = some x) :
    ∃ y, ys[i]? = some y ∧ P x y := by
  obtain ⟨hi, _⟩ := List.getElem?_eq_some_iff.mp hx
  have hj : i < ys.length := h.length_eq ▸ hi
  have hy : ys[i]? = some ys[i] := List.getElem?_eq_getElem hj
  exact ⟨_, hy, related_at h hx hy⟩

/-- Every item of the right list has a partner in the left list. -/
theorem exists_of_mem_right
    (h : List.Forall₂ P xs ys)
    {y : β}
    (hy : y ∈ ys) :
    ∃ (i : ℕ) (x : α), xs[i]? = some x ∧ P x y := by
  obtain ⟨i, hi⟩ := List.mem_iff_getElem?.mp hy
  obtain ⟨x, hx, hxy⟩ := exists_at h.flip hi
  exact ⟨i, x, hx, hxy⟩

/-- A relation between items may be replaced by one that follows from it for the
items of the list. -/
theorem forall₂_of_mem
    {Q : α → β → Prop}
    (h : List.Forall₂ P xs ys)
    (hPQ : ∀ x y, x ∈ xs → P x y → Q x y) :
    List.Forall₂ Q xs ys := by
  induction h with
  | nil =>
      exact .nil
  | @cons x y xs ys hxy _ ih =>
      refine .cons (hPQ x y List.mem_cons_self hxy) (ih (fun x' y' hx' => ?_))
      exact hPQ x' y' (List.mem_cons_of_mem x hx')

/-- If every item has a partner, the list has a list of partners. -/
theorem exists_list
    (h : ∀ x ∈ xs, ∃ y, P x y) :
    ∃ ys, List.Forall₂ P xs ys := by
  induction xs with
  | nil =>
      exact ⟨[], .nil⟩
  | cons x xs ih =>
      obtain ⟨y, hy⟩ := h x List.mem_cons_self
      obtain ⟨ys, hys⟩ := ih (fun z hz => h z (List.mem_cons_of_mem x hz))
      exact ⟨y :: ys, .cons hy hys⟩

end Paired

import Mathlib.Data.List.Basic

/-!
# Brackets in a text

A text is read from left to right with the number of brackets that are open (`depth`); it is
balanced if no closing bracket comes too early and none is left open.

`afterMatch` looks for the partner of a bracket that has just been read, and returns what
stands behind it.  A bracket at the front and one at the end belong together exactly when the
text between them is balanced (`afterMatch_eq_nil_iff`).
-/

namespace Brackets

universe u

variable {α : Type u} [DecidableEq α] (opener closer : α)

/-- The brackets that are open after a text, from a number of them that are open before. -/
def depth : ℕ → List α → Option ℕ
  | d, [] => some d
  | d, c :: cs =>
      if c = opener then depth (d + 1) cs
      else if c = closer then if d = 0 then none else depth (d - 1) cs
      else depth d cs

/-- Every bracket has its partner. -/
def Balanced (cs : List α) : Prop :=
  depth opener closer 0 cs = some 0

instance (cs : List α) : Decidable (Balanced opener closer cs) :=
  inferInstanceAs (Decidable (_ = _))

/-- What stands behind the partner of a bracket, if it has one; the number counts the brackets
that were opened after it. -/
def afterMatch : ℕ → List α → Option (List α)
  | _, [] => none
  | d, c :: cs =>
      if c = opener then afterMatch (d + 1) cs
      else if c = closer then if d = 0 then some cs else afterMatch (d - 1) cs
      else afterMatch d cs

variable {opener closer}

theorem depth_append
    (d : ℕ)
    (u v : List α) :
    depth opener closer d (u ++ v) =
      (depth opener closer d u).bind fun e => depth opener closer e v := by
  induction u generalizing d with
  | nil => rfl
  | cons c u ih =>
      rw [List.cons_append, depth, depth]
      split_ifs with hopen hclose hzero
      · exact ih (d + 1)
      · rfl
      · exact ih (d - 1)
      · exact ih d

/-- More open brackets at the start are as many more at the end. -/
theorem depth_add
    {d e : ℕ}
    {cs : List α}
    (h : depth opener closer d cs = some e)
    (k : ℕ) :
    depth opener closer (d + k) cs = some (e + k) := by
  induction cs generalizing d with
  | nil =>
      rw [depth, Option.some.injEq] at h
      rw [depth, h]
  | cons c cs ih =>
      rw [depth] at h ⊢
      split_ifs at h with hopen hclose hzero
      · rw [if_pos hopen, Nat.add_right_comm]
        exact ih h
      · have hsub : d + k - 1 = d - 1 + k := by omega
        rw [if_neg hopen, if_pos hclose, if_neg (by omega), hsub]
        exact ih h
      · rw [if_neg hopen, if_neg hclose]
        exact ih h

/-- Characters that are no brackets do not count. -/
theorem depth_of_notMem
    {cs : List α}
    (hopen : opener ∉ cs)
    (hclose : closer ∉ cs)
    (d : ℕ) :
    depth opener closer d cs = some d := by
  induction cs with
  | nil => rfl
  | cons c cs ih =>
      rw [List.mem_cons, not_or] at hopen hclose
      rw [depth, if_neg (Ne.symm hopen.1), if_neg (Ne.symm hclose.1)]
      exact ih hopen.2 hclose.2

/-- The partner of a bracket is the first that closes below it. -/
theorem afterMatch_eq_some_iff
    (hne : opener ≠ closer)
    {d : ℕ}
    {cs rest : List α} :
    afterMatch opener closer d cs = some rest ↔
      ∃ inner, cs = inner ++ closer :: rest ∧ depth opener closer d inner = some 0 := by
  induction cs generalizing d with
  | nil => simp [afterMatch]
  | cons c cs ih =>
      -- The text in front of the partner is empty, or it begins with this character.
      have hsplit : (∃ inner, c :: cs = inner ++ closer :: rest ∧
            depth opener closer d inner = some 0) ↔
          (c = closer ∧ cs = rest ∧ d = 0) ∨
            ∃ inner, cs = inner ++ closer :: rest ∧
              depth opener closer d (c :: inner) = some 0 := by
        constructor
        · rintro ⟨inner, hcs, hdepth⟩
          cases inner with
          | nil =>
              obtain ⟨rfl, rfl⟩ := List.cons.inj hcs
              exact .inl ⟨rfl, rfl, Option.some.inj hdepth⟩
          | cons c' inner =>
              obtain ⟨rfl, rfl⟩ := List.cons.inj hcs
              exact .inr ⟨inner, rfl, hdepth⟩
        · rintro (⟨rfl, rfl, rfl⟩ | ⟨inner, rfl, hdepth⟩)
          · exact ⟨[], rfl, rfl⟩
          · exact ⟨c :: inner, rfl, hdepth⟩
      rw [hsplit, afterMatch]
      simp only [depth]
      split_ifs with hopen hclose hzero
      · simp [ih, hopen, hne]
      · simp [hclose, hzero]
      · simp [ih, hzero]
      · simp [ih, hclose]

/-- The partner is the last character exactly when the text up to it is balanced. -/
theorem afterMatch_eq_nil_iff
    (hne : opener ≠ closer)
    {inner : List α} :
    afterMatch opener closer 0 (inner ++ [closer]) = some [] ↔
      Balanced opener closer inner := by
  rw [afterMatch_eq_some_iff hne]
  constructor
  · rintro ⟨inner', heq, hdepth⟩
    rwa [List.append_cancel_right heq]
  · intro h
    exact ⟨inner, rfl, h⟩

/-- What is balanced in front of a text may be taken away. -/
theorem balanced_append_iff
    {u v : List α}
    (h : Balanced opener closer u) :
    Balanced opener closer (u ++ v) ↔ Balanced opener closer v := by
  rw [Balanced, depth_append, h]
  rfl

/-- What is balanced at the end of a text may be taken away. -/
theorem balanced_append_iff_left
    {u v : List α}
    (h : Balanced opener closer v) :
    Balanced opener closer (u ++ v) ↔ Balanced opener closer u := by
  rw [Balanced, Balanced, depth_append]
  cases hu : depth opener closer 0 u with
  | none => simp
  | some e =>
      have hv := depth_add h e
      rw [Nat.zero_add] at hv
      simp [hv]

end Brackets

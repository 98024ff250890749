import Mathlib.Data.Fintype.EquivFin
import Mathlib.Data.Set.Finite.Lattice
import Mathlib.Order.WellFounded
import Mathlib.Logic.Relation

/-!
# Descents that end: accessibility and cycles

A relation `R y x` reads "`y` is below `x`".  Suppose every step down ends in one
of finitely many anchors or makes a measure smaller.  A descent can then go on
for ever in one way only: by coming back to an anchor it has passed.  So `x` is
accessible exactly when no anchor at or below it lies below itself.
-/

namespace Descent

open Relation

variable {N : Type*} {R : N → N → Prop}

/-- Everything below an accessible node is accessible. -/
theorem acc_of_reflTransGen
    {x y : N}
    (hx : Acc R x)
    (hyx : ReflTransGen R y x) :
    Acc R y := by
  induction hyx using ReflTransGen.head_induction_on with
  | refl =>
      exact hx
  | head hstep _ ih =>
      exact ih.inv hstep

/-- An accessible node does not lie below itself. -/
theorem not_transGen_self_of_acc
    {x : N}
    (hx : Acc R x) :
    ¬ TransGen R x x := by
  have hacc : Acc (TransGen R) x := hx.transGen
  induction hacc with
  | intro y _ ih =>
      intro hcycle
      exact ih y hcycle hx hcycle

/-- A node is accessible once the anchors below it are: between two anchors the
measure falls. -/
theorem acc_of_acc_anchors
    {T : Set N}
    {μ : N → ℕ}
    (hstep : ∀ y x, R y x → y ∈ T ∨ μ y < μ x)
    (x : N)
    (hanchors : ∀ t ∈ T, TransGen R t x → Acc R t) :
    Acc R x := by
  induction hn : μ x using Nat.strong_induction_on generalizing x with
  | _ n ih =>
      refine Acc.intro x (fun y hyx => ?_)
      rcases hstep y x hyx with hy | hlt
      · exact hanchors y hy (TransGen.single hyx)
      · have hbelow : ∀ t ∈ T, TransGen R t y → Acc R t :=
          fun t ht hty => hanchors t ht (hty.tail hyx)
        exact ih (μ y) (hn ▸ hlt) y hbelow rfl

/-- A node is accessible exactly when no anchor at or below it lies below itself. -/
theorem acc_iff_no_anchor_cycle
    {T : Set N}
    (hT : T.Finite)
    {μ : N → ℕ}
    (hstep : ∀ y x, R y x → y ∈ T ∨ μ y < μ x)
    (x : N) :
    Acc R x ↔ ∀ t ∈ T, ReflTransGen R t x → ¬ TransGen R t t := by
  constructor
  · intro hx t _ htx
    exact not_transGen_self_of_acc (acc_of_reflTransGen hx htx)
  · intro hcycle
    -- The anchors at or below `x` are ordered by "lies below", and they are few.
    let A : Type _ := {t : N // t ∈ T ∧ ReflTransGen R t x}
    have hfin : Finite A := (hT.subset fun t ht => ht.1 : {t | t ∈ T ∧ ReflTransGen R t x}.Finite)
    let S : A → A → Prop := fun a b => TransGen R a.1 b.1
    have htrans : IsTrans A S := ⟨fun a b c hab hbc => TransGen.trans hab hbc⟩
    have hirrefl : Std.Irrefl S := ⟨fun a => hcycle a.1 a.2.1 a.2.2⟩
    have hwf : WellFounded S := Finite.wellFounded_of_trans_of_irrefl S
    have hall : ∀ a : A, Acc R a.1 := by
      intro a
      induction a using hwf.induction with
      | _ a ih =>
          refine acc_of_acc_anchors hstep a.1 (fun t ht hta => ?_)
          have htx : ReflTransGen R t x := hta.to_reflTransGen.trans a.2.2
          exact ih ⟨t, ht, htx⟩ hta
    refine acc_of_acc_anchors hstep x (fun t ht htx => ?_)
    exact hall ⟨t, ht, htx.to_reflTransGen⟩

end Descent

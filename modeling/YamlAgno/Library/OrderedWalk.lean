import YamlAgno.Library.Attempt
import YamlAgno.Library.Descent
import YamlAgno.Library.Paired

/-!
# Ordered walks over a graph of work

A `Plan` lists, for each node, the children to be walked and what is done with
their results; a child may already be an error.  `walk` runs a plan depth first
and left to right, stopping at the first error, and is given a depth.

Which nodes a walk gets to depends on what came before: a later child is walked
only when every earlier one has produced a result.  `Resolves` says, without
reference to the walk, which nodes produce a result, and `LiveChild` which
children are reached.  The two main results are that a node resolves exactly
when its walk returns, and that its walk settles exactly when no chain of live
children descends from it for ever.
-/

universe u v w

/-- The children of each node, and how their results are put together. -/
structure Plan (N : Type u) (E : Type v) (B : Type w) where
  children : N → List (Except E N)
  finish : N → Except E (List B → B)

namespace Plan

open Attempt

variable {N : Type u} {E : Type v} {B : Type w}

/-- Walks one child, given a way to walk a node. -/
def visit
    (walkNode : N → Attempt E B)
    (child : Except E N) :
    Attempt E B :=
  match child with
  | .error error => raised error
  | .ok x => walkNode x

variable (P : Plan N E B)

/-- Walks one node, given a way to walk its children. -/
def walkWith
    (walkNode : N → Attempt E B)
    (x : N) :
    Attempt E B := do
  let kids ← (P.children x).mapM (visit walkNode)
  let assemble ← ofExcept (P.finish x)
  return assemble kids

/-- Walks one node to the given depth. -/
def walk : ℕ → N → Attempt E B
  | 0, _ => exhausted
  | depth + 1, x => P.walkWith (walk depth) x

/-- Walks a list of children to the given depth. -/
def walkList
    (depth : ℕ)
    (cs : List (Except E N)) :
    Attempt E (List B) :=
  cs.mapM (visit (P.walk depth))

/-! ## More depth changes no result -/

theorem visit_below
    {f g : N → Attempt E B}
    (h : ∀ x, Below (f x) (g x))
    (child : Except E N) :
    Below (visit f child) (visit g child) := by
  cases child with
  | error error =>
      exact Below.refl _
  | ok x =>
      exact h x

/-- One more level of depth can only settle a walk. -/
theorem walk_below_succ
    (depth : ℕ)
    (x : N) :
    Below (P.walk depth x) (P.walk (depth + 1) x) := by
  induction depth generalizing x with
  | zero =>
      exact Or.inl rfl
  | succ depth ih =>
      have hkids := Below.mapM (visit_below ih) (P.children x)
      exact hkids.bind (fun _ => Below.refl _)

theorem walk_below
    {m n : ℕ}
    (hmn : m ≤ n)
    (x : N) :
    Below (P.walk m x) (P.walk n x) := by
  induction hmn with
  | refl =>
      exact Below.refl _
  | step _ ih =>
      exact ih.trans (P.walk_below_succ _ x)

theorem walkList_below
    {m n : ℕ}
    (hmn : m ≤ n)
    (cs : List (Except E N)) :
    Below (P.walkList m cs) (P.walkList n cs) :=
  Below.mapM (visit_below (P.walk_below hmn)) cs

/-! ## Nodes that return -/

/-- The walk of `x` returns `b`, given enough depth. -/
def Returns
    (x : N)
    (b : B) : Prop :=
  ∃ depth, P.walk depth x = returned b

/-- The walk of `x` comes to a value or an error, given enough depth. -/
def Settles
    (x : N) : Prop :=
  ∃ depth, P.walk depth x ≠ exhausted

/-- The walk of a list of children returns `kids`, given enough depth. -/
def ReturnsAll
    (cs : List (Except E N))
    (kids : List B) : Prop :=
  ∃ depth, P.walkList depth cs = returned kids

/-- The walk of a list of children settles, given enough depth. -/
def SettlesAll
    (cs : List (Except E N)) : Prop :=
  ∃ depth, P.walkList depth cs ≠ exhausted

variable {P}

/-- Once a walk has returned, it returns the same at every greater depth. -/
theorem walk_eq_returned_of_le
    {m n : ℕ}
    {x : N}
    {b : B}
    (h : P.walk m x = returned b)
    (hmn : m ≤ n) :
    P.walk n x = returned b := by
  have hne : P.walk m x ≠ exhausted := by simp [h]
  rw [← (P.walk_below hmn x).eq_of_ne hne, h]

theorem visit_eq_returned_iff
    {f : N → Attempt E B}
    {c : Except E N}
    {b : B} :
    visit f c = returned b ↔ ∃ x, c = .ok x ∧ f x = returned b := by
  cases c with
  | error error =>
      simp [visit]
  | ok x =>
      simp [visit]

/-- A list of children returns exactly when each of them is a node that returns. -/
theorem returnsAll_iff
    {cs : List (Except E N)}
    {kids : List B} :
    P.ReturnsAll cs kids ↔
      List.Forall₂ (fun c b => ∃ x, c = .ok x ∧ P.Returns x b) cs kids := by
  constructor
  · rintro ⟨depth, hdepth⟩
    refine (mapM_eq_returned_iff.mp hdepth).imp (fun c b hcb => ?_)
    obtain ⟨x, rfl, hx⟩ := visit_eq_returned_iff.mp hcb
    exact ⟨x, rfl, depth, hx⟩
  · intro h
    induction h with
    | nil =>
        exact ⟨0, rfl⟩
    | @cons c b cs kids hcb _ ih =>
        obtain ⟨x, rfl, m, hm⟩ := hcb
        obtain ⟨n, hn⟩ := ih
        refine ⟨max m n, mapM_eq_returned_iff.mpr (List.Forall₂.cons ?_ ?_)⟩
        · exact walk_eq_returned_of_le hm (Nat.le_max_left m n)
        · have hne : P.walkList n cs ≠ exhausted := by simp [hn]
          have heq := (P.walkList_below (Nat.le_max_right m n) cs).eq_of_ne hne
          rw [hn] at heq
          exact mapM_eq_returned_iff.mp heq.symm

/-- What a returning walk has done: it has walked all children and put their
results together. -/
theorem returns_iff
    {x : N}
    {b : B} :
    P.Returns x b ↔
      ∃ kids assemble,
        P.ReturnsAll (P.children x) kids ∧
          P.finish x = .ok assemble ∧ b = assemble kids := by
  constructor
  · rintro ⟨depth, hdepth⟩
    cases depth with
    | zero =>
        simp [walk] at hdepth
    | succ depth =>
        simp only [walk, walkWith, bind_eq_returned_iff] at hdepth
        obtain ⟨kids, hkids, assemble, hfinish, hb⟩ := hdepth
        cases hf : P.finish x with
        | error error =>
            simp [hf] at hfinish
        | ok assemble' =>
            simp only [hf, ofExcept_ok, returned.injEq] at hfinish
            subst hfinish
            exact ⟨kids, assemble', ⟨depth, hkids⟩, rfl, (returned.inj hb).symm⟩
  · rintro ⟨kids, assemble, ⟨depth, hkids⟩, hfinish, rfl⟩
    refine ⟨depth + 1, ?_⟩
    simp only [walkList] at hkids
    simp [walk, walkWith, hkids, hfinish]

/-- The nodes that produce a result: every child is a node that does, and the
node's own work succeeds. -/
inductive Resolves (P : Plan N E B) : N → Prop
  | intro
      (x : N)
      (hchildren : ∀ c ∈ P.children x, ∃ y, c = .ok y)
      (hkids : ∀ y, .ok y ∈ P.children x → Resolves P y)
      (hfinish : ∃ assemble, P.finish x = .ok assemble) :
      Resolves P x

theorem resolves_iff
    {x : N} :
    P.Resolves x ↔
      (∀ c ∈ P.children x, ∃ y, c = .ok y ∧ P.Resolves y) ∧
        ∃ assemble, P.finish x = .ok assemble := by
  constructor
  · rintro ⟨_, hchildren, hkids, hfinish⟩
    refine ⟨fun c hc => ?_, hfinish⟩
    obtain ⟨y, rfl⟩ := hchildren c hc
    exact ⟨y, rfl, hkids y hc⟩
  · rintro ⟨hkids, hfinish⟩
    refine .intro x (fun c hc => ?_) (fun y hy => ?_) hfinish
    · obtain ⟨y, hy, _⟩ := hkids c hc
      exact ⟨y, hy⟩
    · obtain ⟨z, hz, hres⟩ := hkids _ hy
      cases hz
      exact hres

theorem Resolves.exists_returns
    {x : N}
    (h : P.Resolves x) :
    ∃ b, P.Returns x b := by
  induction h with
  | intro x hchildren _ hfinish ih =>
      obtain ⟨assemble, hassemble⟩ := hfinish
      have hall : ∀ c ∈ P.children x, ∃ b, ∃ y, c = .ok y ∧ P.Returns y b := by
        intro c hc
        obtain ⟨y, rfl⟩ := hchildren c hc
        obtain ⟨b, hb⟩ := ih y hc
        exact ⟨b, y, rfl, hb⟩
      obtain ⟨kids, hkids⟩ := Paired.exists_list hall
      exact ⟨assemble kids, returns_iff.mpr
        ⟨kids, assemble, returnsAll_iff.mpr hkids, hassemble, rfl⟩⟩

theorem resolves_of_walk_eq_returned
    {depth : ℕ}
    {x : N}
    {b : B}
    (h : P.walk depth x = returned b) :
    P.Resolves x := by
  induction depth generalizing x b with
  | zero =>
      simp [walk] at h
  | succ depth ih =>
      obtain ⟨_, assemble, _, hfinish, _⟩ := returns_iff.mp ⟨depth + 1, h⟩
      simp only [walk, walkWith, bind_eq_returned_iff] at h
      obtain ⟨kids, hkids, _⟩ := h
      refine resolves_iff.mpr ⟨fun c hc => ?_, assemble, hfinish⟩
      have hvisit : ∀ c ∈ P.children x, ∃ k, visit (P.walk depth) c = returned k := by
        intro c hc
        obtain ⟨i, hi⟩ := List.mem_iff_getElem?.mp hc
        obtain ⟨k, _, hk⟩ := Paired.exists_at (mapM_eq_returned_iff.mp hkids) hi
        exact ⟨k, hk⟩
      obtain ⟨k, hk⟩ := hvisit c hc
      obtain ⟨y, rfl, hy⟩ := visit_eq_returned_iff.mp hk
      exact ⟨y, rfl, ih hy⟩

/-- A node resolves exactly when its walk returns. -/
theorem resolves_iff_exists_returns
    {x : N} :
    P.Resolves x ↔ ∃ b, P.Returns x b := by
  constructor
  · exact Resolves.exists_returns
  · rintro ⟨b, depth, hb⟩
    exact resolves_of_walk_eq_returned hb

/-! ## Walks that settle -/

variable (P)

/-- `y` stands in the list behind children that all resolve: the walk of the
list gets to it. -/
def LiveIn
    (y : N)
    (cs : List (Except E N)) : Prop :=
  ∃ before after,
    cs = before ++ .ok y :: after ∧
      ∀ c ∈ before, ∃ z, c = .ok z ∧ P.Resolves z

/-- The walk of `x` gets to its child `y`. -/
def LiveChild
    (y x : N) : Prop :=
  P.LiveIn y (P.children x)

variable {P}

theorem not_liveIn_nil
    (y : N) :
    ¬ P.LiveIn y [] := by
  rintro ⟨before, after, h, _⟩
  simp at h

theorem not_liveIn_error
    (y : N)
    (error : E)
    (cs : List (Except E N)) :
    ¬ P.LiveIn y (.error error :: cs) := by
  rintro ⟨before, after, h, hbefore⟩
  cases before with
  | nil =>
      simp at h
  | cons c before =>
      obtain ⟨rfl, _⟩ := List.cons_eq_cons.mp h
      obtain ⟨z, hz, _⟩ := hbefore _ List.mem_cons_self
      simp at hz

theorem liveIn_ok_cons_iff
    {y x : N}
    {cs : List (Except E N)} :
    P.LiveIn y (.ok x :: cs) ↔ y = x ∨ (P.Resolves x ∧ P.LiveIn y cs) := by
  constructor
  · rintro ⟨before, after, h, hbefore⟩
    cases before with
    | nil =>
        obtain ⟨hxy, _⟩ := List.cons_eq_cons.mp h
        exact Or.inl (Except.ok.inj hxy).symm
    | cons c before =>
        obtain ⟨rfl, hcs⟩ := List.cons_eq_cons.mp h
        obtain ⟨z, hz, hres⟩ := hbefore _ List.mem_cons_self
        cases hz
        exact Or.inr ⟨hres, before, after, hcs,
          fun c hc => hbefore c (List.mem_cons_of_mem _ hc)⟩
  · rintro (rfl | ⟨hres, before, after, rfl, hbefore⟩)
    · exact ⟨[], cs, rfl, by simp⟩
    · refine ⟨.ok x :: before, after, rfl, fun c hc => ?_⟩
      rcases List.mem_cons.mp hc with rfl | hc
      · exact ⟨x, rfl, hres⟩
      · exact hbefore c hc

theorem LiveIn.mem
    {y : N}
    {cs : List (Except E N)}
    (h : P.LiveIn y cs) :
    .ok y ∈ cs := by
  obtain ⟨before, after, rfl, _⟩ := h
  simp

/-- When the walk of a list settles at some depth, so does the walk of its first
node and, should that node resolve, the walk of the rest. -/
theorem walkList_ok_cons_ne_exhausted
    {depth : ℕ}
    {x : N}
    {cs : List (Except E N)}
    (h : P.walkList depth (.ok x :: cs) ≠ exhausted) :
    P.walk depth x ≠ exhausted ∧
      (P.Resolves x → P.walkList depth cs ≠ exhausted) := by
  simp only [walkList, List.mapM_cons, visit] at h
  have hx : P.walk depth x ≠ exhausted := by
    intro hx
    simp [hx] at h
  refine ⟨hx, fun hres hcs => ?_⟩
  cases hw : P.walk depth x with
  | exhausted =>
      exact hx hw
  | raised error =>
      -- A node that resolves returns at some depth, so it cannot raise at this one.
      obtain ⟨b, n, hn⟩ := hres.exists_returns
      have hsame := (P.walk_below (Nat.le_max_left depth n) x).eq_of_ne hx
      rw [walk_eq_returned_of_le hn (Nat.le_max_right depth n), hw] at hsame
      simp at hsame
  | returned b =>
      simp only [walkList] at hcs
      simp [hw, hcs] at h

/-- At a depth at which the walk of a list settles, every node it gets to settles. -/
theorem walk_ne_exhausted_of_liveIn
    {depth : ℕ}
    {y : N}
    {cs : List (Except E N)}
    (h : P.walkList depth cs ≠ exhausted)
    (hy : P.LiveIn y cs) :
    P.walk depth y ≠ exhausted := by
  induction cs with
  | nil =>
      exact absurd hy (not_liveIn_nil y)
  | cons c cs ih =>
      cases c with
      | error error =>
          exact absurd hy (not_liveIn_error y error cs)
      | ok x =>
          obtain ⟨hx, hrest⟩ := walkList_ok_cons_ne_exhausted h
          rcases liveIn_ok_cons_iff.mp hy with rfl | ⟨hres, hlive⟩
          · exact hx
          · exact ih (hrest hres) hlive

/-- A list settles when its first node does and, should that node resolve, the
rest does. -/
theorem settlesAll_ok_cons
    {x : N}
    {cs : List (Except E N)}
    (hx : P.Settles x)
    (hrest : P.Resolves x → P.SettlesAll cs) :
    P.SettlesAll (.ok x :: cs) := by
  obtain ⟨m, hm⟩ := hx
  cases hw : P.walk m x with
  | exhausted =>
      exact absurd hw hm
  | raised error =>
      exact ⟨m, by simp [walkList, visit, hw]⟩
  | returned b =>
      obtain ⟨n, hn⟩ := hrest (resolves_of_walk_eq_returned hw)
      have hx := walk_eq_returned_of_le hw (Nat.le_max_left m n)
      have hcs := (P.walkList_below (Nat.le_max_right m n) cs).eq_of_ne hn
      rw [hcs] at hn
      simp only [walkList] at hn
      refine ⟨max m n, ?_⟩
      cases hk : cs.mapM (visit (P.walk (max m n))) with
      | exhausted =>
          exact absurd hk hn
      | raised error =>
          simp [walkList, visit, hx, hk]
      | returned kids =>
          simp [walkList, visit, hx, hk]

/-- A list of children settles exactly when every child its walk gets to does. -/
theorem settlesAll_iff
    {cs : List (Except E N)} :
    P.SettlesAll cs ↔ ∀ y, P.LiveIn y cs → P.Settles y := by
  constructor
  · rintro ⟨depth, hdepth⟩ y hy
    exact ⟨depth, walk_ne_exhausted_of_liveIn hdepth hy⟩
  · intro h
    induction cs with
    | nil =>
        exact ⟨0, by simp [walkList]⟩
    | cons c cs ih =>
        cases c with
        | error error =>
            exact ⟨0, by simp [walkList, visit]⟩
        | ok x =>
            refine settlesAll_ok_cons (h x (liveIn_ok_cons_iff.mpr (Or.inl rfl))) (fun hres => ?_)
            exact ih (fun y hy => h y (liveIn_ok_cons_iff.mpr (Or.inr ⟨hres, hy⟩)))

/-- The walk of a node settles at a depth exactly when the walk of its children
does at the depth below. -/
theorem walk_succ_ne_exhausted_iff
    {depth : ℕ}
    {x : N} :
    P.walk (depth + 1) x ≠ exhausted ↔ P.walkList depth (P.children x) ≠ exhausted := by
  simp only [walk, walkWith, walkList]
  cases (P.children x).mapM (visit (P.walk depth)) with
  | exhausted =>
      simp
  | raised error =>
      simp
  | returned kids =>
      cases P.finish x <;> simp

/-- A walk settles exactly when no chain of live children descends for ever. -/
theorem settles_iff_acc
    {x : N} :
    P.Settles x ↔ Acc P.LiveChild x := by
  constructor
  · rintro ⟨depth, hdepth⟩
    induction depth generalizing x with
    | zero =>
        simp [walk] at hdepth
    | succ depth ih =>
        have hkids := walk_succ_ne_exhausted_iff.mp hdepth
        exact Acc.intro x (fun y hy => ih (walk_ne_exhausted_of_liveIn hkids hy))
  · intro hacc
    induction hacc with
    | intro x _ ih =>
        obtain ⟨depth, hdepth⟩ := settlesAll_iff.mpr ih
        exact ⟨depth + 1, walk_succ_ne_exhausted_iff.mpr hdepth⟩

/-- Suppose every live child is one of finitely many anchors or makes a measure
smaller.  Then the walk of a list settles exactly when no anchor it gets to leads
back to itself through live children. -/
theorem settlesAll_iff_no_live_cycle
    {T : Set N}
    (hT : T.Finite)
    {μ : N → ℕ}
    (hstep : ∀ y x, P.LiveChild y x → y ∈ T ∨ μ y < μ x)
    {cs : List (Except E N)} :
    P.SettlesAll cs ↔
      ∀ t ∈ T, ∀ y, P.LiveIn y cs → Relation.ReflTransGen P.LiveChild t y →
        ¬ Relation.TransGen P.LiveChild t t := by
  simp only [settlesAll_iff, settles_iff_acc, Descent.acc_iff_no_anchor_cycle hT hstep]
  constructor
  · intro h t ht y hy hty
    exact h y hy t ht hty
  · intro h y hy t ht hty
    exact h t ht y hy hty

end Plan

import Mathlib.Data.List.Forall2

/-!
# Two runs of a system that differ in what others do

A system takes events one at a time and answers each.  What one party can notice of
the others is settled by comparing a run with the run of the party's own events.

The comparison is a relation between the states of the two runs.  If the others'
events preserve it (`hidden`) and the party's own events preserve it with matching
answers (`visible`), the party's answers match along the whole runs
(`Unwinding.matched`).  If moreover each own event of the first run is possible in
the second, the second run exists (`Unwinding.exists_own_run`).
-/

universe u v w

/-- Executes events in order and lists each with its answer; `none` if one of them is
not possible. -/
def answers
    {S : Type u} {E : Type v} {O : Type w}
    (step : S → E → Option (S × O)) :
    S → List E → Option (S × List (E × O))
  | s, [] => some (s, [])
  | s, e :: es =>
      (step s e).bind fun p =>
        (answers step p.1 es).map fun q => (q.1, (e, p.2) :: q.2)

section Answers

variable {S : Type u} {E : Type v} {O : Type w} {step : S → E → Option (S × O)}

/-- A run starts with a step and continues from the state it reaches. -/
theorem answers_cons_eq_some
    {s t : S} {e : E} {es : List E} {os : List (E × O)} :
    answers step s (e :: es) = some (t, os) ↔
      ∃ s' o os', step s e = some (s', o) ∧ answers step s' es = some (t, os') ∧
        os = (e, o) :: os' := by
  simp only [answers, Option.bind_eq_some_iff, Option.map_eq_some_iff, Prod.exists,
    Prod.mk.injEq]
  constructor
  · rintro ⟨s', o, hstep, _, os', hrest, rfl, rfl⟩
    exact ⟨s', o, os', hstep, hrest, rfl⟩
  · rintro ⟨s', o, os', hstep, hrest, rfl⟩
    exact ⟨s', o, hstep, t, os', hrest, rfl, rfl⟩

theorem answers_eq_nil
    {s t : S} {es : List E}
    (hrun : answers step s es = some (t, [])) :
    es = [] ∧ s = t := by
  cases es with
  | nil =>
      cases hrun
      exact ⟨rfl, rfl⟩
  | cons e es =>
      obtain ⟨_, _, _, -, -, h⟩ := answers_cons_eq_some.mp hrun
      exact absurd h (List.cons_ne_nil _ _).symm

/-- What has been answered in two parts has been run in two parts. -/
theorem answers_eq_append
    {s t : S} {es : List E} {os os' : List (E × O)}
    (hrun : answers step s es = some (t, os ++ os')) :
    ∃ es₁ es₂ u, es = es₁ ++ es₂ ∧ answers step s es₁ = some (u, os) ∧
      answers step u es₂ = some (t, os') := by
  induction os generalizing s es with
  | nil =>
      exact ⟨[], es, s, rfl, rfl, hrun⟩
  | cons a os ih =>
      cases es with
      | nil =>
          cases hrun
      | cons e es =>
          obtain ⟨u, o, rest, hstep, hrest, heq⟩ := answers_cons_eq_some.mp hrun
          obtain ⟨rfl, rfl⟩ := List.cons.inj heq
          obtain ⟨es₁, es₂, v, rfl, hfirst, hsecond⟩ := ih hrest
          exact ⟨e :: es₁, es₂, v, rfl,
            answers_cons_eq_some.mpr ⟨u, o, os, hstep, hfirst, rfl⟩, hsecond⟩

/-- One answer is that of one step. -/
theorem answers_eq_singleton
    {s t : S} {es : List E} {a : E × O}
    (hrun : answers step s es = some (t, [a])) :
    step s a.1 = some (t, a.2) := by
  cases es with
  | nil =>
      cases hrun
  | cons e es =>
      obtain ⟨u, o, rest, hstep, hrest, heq⟩ := answers_cons_eq_some.mp hrun
      obtain ⟨rfl, rfl⟩ := List.cons.inj heq
      obtain ⟨-, rfl⟩ := answers_eq_nil hrest
      exact hstep

/-- What every step preserves holds at the end of every run. -/
theorem answers_invariant
    {I : S → Prop}
    (hstep : ∀ s e t o, I s → step s e = some (t, o) → I t)
    {s t : S} {es : List E} {os : List (E × O)}
    (hs : I s)
    (hrun : answers step s es = some (t, os)) :
    I t := by
  induction es generalizing s os with
  | nil =>
      cases hrun
      exact hs
  | cons e es ih =>
      obtain ⟨u, o, os', he, hrest, -⟩ := answers_cons_eq_some.mp hrun
      exact ih (hstep s e u o hs he) hrest

/--
A part of the state that the party's own events move like a system of its own, and no other
event touches, makes a run of that system with the same answers.
-/
theorem answers_projection
    {T : Type*} {step' : T → E → Option (T × O)}
    {own : E → Bool} {I : S → Prop}
    (part : S → T)
    (hkeep : ∀ s e t o, I s → step s e = some (t, o) → I t)
    (hidden : ∀ s e t o, I s → own e = false → step s e = some (t, o) → part t = part s)
    (visible : ∀ s e t o, I s → own e = true → step s e = some (t, o) →
      step' (part s) e = some (part t, o))
    {s t : S} {es : List E} {os : List (E × O)}
    (hs : I s)
    (hrun : answers step s es = some (t, os)) :
    answers step' (part s) (es.filter own) = some (part t, os.filter fun a => own a.1) := by
  induction es generalizing s os with
  | nil =>
      cases hrun
      rfl
  | cons e es ih =>
      obtain ⟨u, o, os', hstep, hrest, rfl⟩ := answers_cons_eq_some.mp hrun
      have htail := ih (hkeep s e u o hs hstep) hrest
      cases hown : own e with
      | false =>
          simp only [List.filter_cons, hown, Bool.false_eq_true, if_false]
          rw [← hidden s e u o hs hown hstep]
          exact htail
      | true =>
          simp only [List.filter_cons, hown, if_true]
          exact answers_cons_eq_some.mpr
            ⟨part u, o, _, visible s e u o hs hown hstep, htail, rfl⟩

end Answers

/-- The conditions under which a party notices nothing of the others: `rel` relates
the states of the two runs, `sameEvent` the party's events, `sameAnswer` its answers. -/
structure Unwinding
    {S : Type u} {E : Type v} {O : Type w}
    (step : S → E → Option (S × O))
    (own : E → Bool)
    (rel : S → S → Prop)
    (sameEvent : E → E → Prop)
    (sameAnswer : O → O → Prop) : Prop where
  hidden :
    ∀ s s' e t o, own e = false → rel s s' → step s e = some (t, o) → rel t s'
  visible :
    ∀ s s' e e' t o t' o', own e = true → sameEvent e e' → rel s s' →
      step s e = some (t, o) → step s' e' = some (t', o') → rel t t' ∧ sameAnswer o o'

namespace Unwinding

variable {S : Type u} {E : Type v} {O : Type w}
  {step : S → E → Option (S × O)} {own : E → Bool} {rel : S → S → Prop}
  {sameEvent : E → E → Prop} {sameAnswer : O → O → Prop}

/-- The party's answers in a run match those in a run of its own events. -/
theorem matched
    (h : Unwinding step own rel sameEvent sameAnswer)
    {es es' : List E}
    (hes : List.Forall₂ sameEvent (es.filter own) es')
    {s s' t t' : S} {os os' : List (E × O)}
    (hrel : rel s s')
    (hrun : answers step s es = some (t, os))
    (hrun' : answers step s' es' = some (t', os')) :
    rel t t' ∧
      List.Forall₂ (fun a b => sameEvent a.1 b.1 ∧ sameAnswer a.2 b.2)
        (os.filter fun a => own a.1) os' := by
  induction es generalizing s s' es' os os' with
  | nil =>
      cases hes
      cases hrun
      cases hrun'
      exact ⟨hrel, .nil⟩
  | cons e es ih =>
      obtain ⟨u, o, os₁, hstep, hrest, rfl⟩ := answers_cons_eq_some.mp hrun
      cases hown : own e with
      | false =>
          simp only [List.filter_cons, hown, Bool.false_eq_true, if_false] at hes ⊢
          exact ih hes (h.hidden s s' e u o hown hrel hstep) hrest hrun'
      | true =>
          simp only [List.filter_cons, hown, if_true] at hes ⊢
          obtain ⟨e', es₁, hsame, htail, rfl⟩ := List.forall₂_cons_left_iff.mp hes
          obtain ⟨u', o', os₁', hstep', hrest', rfl⟩ := answers_cons_eq_some.mp hrun'
          obtain ⟨hrel', hanswer⟩ :=
            h.visible s s' e e' u o u' o' hown hsame hrel hstep hstep'
          obtain ⟨hend, hall⟩ := ih htail hrel' hrest hrest'
          exact ⟨hend, .cons ⟨hsame, hanswer⟩ hall⟩

/-- The run of the party's own events exists, if its events stay possible. -/
theorem exists_own_run
    (h : Unwinding step own rel Eq sameAnswer)
    (hpossible : ∀ s s' e t o, own e = true → rel s s' → step s e = some (t, o) →
      ∃ t' o', step s' e = some (t', o'))
    {es : List E}
    {s s' t : S} {os : List (E × O)}
    (hrel : rel s s')
    (hrun : answers step s es = some (t, os)) :
    ∃ t' os', answers step s' (es.filter own) = some (t', os') := by
  induction es generalizing s s' os with
  | nil =>
      exact ⟨s', [], rfl⟩
  | cons e es ih =>
      obtain ⟨u, o, os₁, hstep, hrest, rfl⟩ := answers_cons_eq_some.mp hrun
      cases hown : own e with
      | false =>
          simp only [List.filter_cons, hown, Bool.false_eq_true, if_false]
          exact ih (h.hidden s s' e u o hown hrel hstep) hrest
      | true =>
          simp only [List.filter_cons, hown, if_true]
          obtain ⟨u', o', hstep'⟩ := hpossible s s' e u o hown hrel hstep
          obtain ⟨hrel', -⟩ := h.visible s s' e e u o u' o' hown rfl hrel hstep hstep'
          obtain ⟨t', os', hrun'⟩ := ih hrel' hrest
          exact ⟨t', (e, o') :: os',
            answers_cons_eq_some.mpr ⟨u', o', os', hstep', hrun', rfl⟩⟩

end Unwinding

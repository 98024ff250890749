import Mathlib.Data.List.Basic

/-!
# Runs of a partial step function

A system is a function `step : S → A → Option S`; `none` means that the action
is not enabled.  A run is a list of actions executed in order.

Two induction rules carry every safety result about runs.  `run_invariant`
takes a predicate that each step preserves to every state of every run.
`run_invariant_along` does the same for runs whose steps all meet a condition
`P`, stated about the state in which the step is taken (`Along`).
`throughout_iff_along` is for a predicate that the other steps break, `run_iff_along` for one
that they break for good.
-/

namespace Runs

variable {S A : Type*} (step : S → A → Option S)

/-- Executes the actions in order; `none` if one of them is not enabled. -/
def run : S → List A → Option S
  | s, [] => some s
  | s, a :: as => (step s a).bind (fun s' => run s' as)

/-- Every step of the run is taken in a state where `P` allows its action. -/
def Along (P : S → A → Prop) : S → List A → Prop
  | _, [] => True
  | s, a :: as => P s a ∧ ∀ s', step s a = some s' → Along P s' as

/-- Whether a concrete run is allowed can be computed. -/
instance decidableAlong
    (P : S → A → Prop) [∀ s a, Decidable (P s a)] :
    (s : S) → (as : List A) → Decidable (Along step P s as)
  | _, [] => isTrue trivial
  | s, a :: as =>
      match h : step s a with
      | none => decidable_of_iff (P s a) (by simp [Along, h])
      | some s' =>
          have := decidableAlong P s' as
          decidable_of_iff (P s a ∧ Along step P s' as) (by simp [Along, h])

@[simp] theorem run_nil (s : S) :
    run step s [] = some s := by
  rfl

theorem run_cons (s : S) (a : A) (as : List A) :
    run step s (a :: as) = (step s a).bind (fun s' => run step s' as) := by
  rfl

/-- A run starts with a step and continues from the state it reaches. -/
theorem run_cons_eq_some
    {s t : S} {a : A} {as : List A} :
    run step s (a :: as) = some t ↔
      ∃ s', step s a = some s' ∧ run step s' as = some t := by
  rw [run_cons, Option.bind_eq_some_iff]

variable {step}

/-- Where every action is enabled, every list of actions is a run. -/
theorem exists_run
    (htotal : ∀ s a, ∃ s', step s a = some s')
    (s : S) (as : List A) :
    ∃ t, run step s as = some t := by
  induction as generalizing s with
  | nil =>
      exact ⟨s, rfl⟩
  | cons a as ih =>
      obtain ⟨s', hs'⟩ := htotal s a
      obtain ⟨t, ht⟩ := ih s'
      exact ⟨t, (run_cons_eq_some step).mpr ⟨s', hs', ht⟩⟩

/-- What every allowed step preserves holds in every state of an allowed run. -/
theorem run_invariant_along
    {P : S → A → Prop} {I : S → Prop}
    (hstep : ∀ s a s', I s → P s a → step s a = some s' → I s')
    {s t : S} {as : List A}
    (hs : I s)
    (halong : Along step P s as)
    (hrun : run step s as = some t) :
    I t := by
  induction as generalizing s with
  | nil =>
      cases hrun
      exact hs
  | cons a as ih =>
      obtain ⟨s', hs', hrest⟩ := (run_cons_eq_some step).mp hrun
      obtain ⟨hP, htail⟩ := halong
      exact ih (hstep s a s' hs hP hs') (htail s' hs') hrest

/-- A condition on the actions alone is met along every run of such actions. -/
theorem along_of_forall_mem
    {P : S → A → Prop}
    {as : List A}
    (hP : ∀ a ∈ as, ∀ s, P s a)
    (s : S) :
    Along step P s as := by
  induction as generalizing s with
  | nil =>
      trivial
  | cons a as ih =>
      exact ⟨hP a List.mem_cons_self s,
        fun s' _ => ih (fun b hb => hP b (List.mem_cons_of_mem a hb)) s'⟩

/-- A condition that always holds is met along every run. -/
theorem along_of_forall
    {P : S → A → Prop}
    (hP : ∀ s a, P s a)
    (s : S) (as : List A) :
    Along step P s as :=
  along_of_forall_mem (fun a _ s => hP s a) s

/-- What every step preserves holds in every state of every run. -/
theorem run_invariant
    {I : S → Prop}
    (hstep : ∀ s a s', I s → step s a = some s' → I s')
    {s t : S} {as : List A}
    (hs : I s)
    (hrun : run step s as = some t) :
    I t :=
  run_invariant_along (P := fun _ _ => True)
    (fun s a s' hI _ h => hstep s a s' hI h) hs
    (along_of_forall (fun _ _ => trivial) s as) hrun

/--
A mark that some disallowed step sets and that no step removes is present at
the end of every run that takes a disallowed step.
-/
theorem run_mark_of_not_along
    {P : S → A → Prop} {I J : S → Prop}
    (hkeep : ∀ s a s', I s → step s a = some s' → I s')
    (hset : ∀ s a s', I s → ¬ P s a → step s a = some s' → J s')
    (hstay : ∀ s a s', J s → step s a = some s' → J s')
    {s t : S} {as : List A}
    (hs : I s)
    (hnot : ¬ Along step P s as)
    (hrun : run step s as = some t) :
    J t := by
  induction as generalizing s with
  | nil =>
      exact absurd trivial hnot
  | cons a as ih =>
      obtain ⟨s', hs', hrest⟩ := (run_cons_eq_some step).mp hrun
      by_cases hP : P s a
      · have htail : ¬ Along step P s' as := by
          intro h
          refine hnot ⟨hP, ?_⟩
          intro s'' hs''
          cases hs'.symm.trans hs''
          exact h
        exact ih (hkeep s a s' hs hs') htail hrest
      · exact run_invariant hstay (hset s a s' hs hP hs') hrest

/-- A run is allowed where each of its actions is, in the state that the run has come to. -/
theorem along_iff
    {P : S → A → Prop}
    {s : S} {as : List A} :
    Along step P s as ↔
      ∀ before a after, as = before ++ a :: after →
        ∀ t, run step s before = some t → P t a := by
  induction as generalizing s with
  | nil =>
      exact iff_of_true trivial fun before a after h => by simp at h
  | cons b as ih =>
      constructor
      · rintro ⟨hP, htail⟩ before a after hsplit t ht
        cases before with
        | nil =>
            cases hsplit
            cases ht
            exact hP
        | cons c before =>
            obtain ⟨rfl, hrest⟩ := List.cons.inj hsplit
            obtain ⟨s', hs', hend⟩ := (run_cons_eq_some step).mp ht
            exact ih.mp (htail s' hs') before a after hrest t hend
      · intro h
        refine ⟨h [] b as rfl s rfl, fun s' hs' => ih.mpr ?_⟩
        rintro before a after rfl t ht
        exact h (b :: before) a after rfl t ((run_cons_eq_some step).mpr ⟨s', hs', ht⟩)

/-- A run of two parts is a run of the first and, from where it ends, of the second. -/
theorem run_append_eq_some
    {s u : S} {as bs : List A} :
    run step s (as ++ bs) = some u ↔
      ∃ t, run step s as = some t ∧ run step t bs = some u := by
  induction as generalizing s with
  | nil =>
      simp
  | cons a as ih =>
      simp only [List.cons_append, run_cons_eq_some, ih]
      constructor
      · rintro ⟨s', hs', t, ht, hu⟩
        exact ⟨t, ⟨s', hs', ht⟩, hu⟩
      · rintro ⟨t, ⟨s', hs', ht⟩, hu⟩
        exact ⟨s', hs', t, ht, hu⟩

/-- A part of the state that follows a system of its own makes a run of that system. -/
theorem run_projection
    {T B : Type*} {step' : T → B → Option T} {I : S → Prop}
    (part : S → T) (action : A → Option B)
    (hkeep : ∀ s a s', I s → step s a = some s' → I s')
    (hstep : ∀ s a s', I s → step s a = some s' →
      run step' (part s) (action a).toList = some (part s'))
    {s t : S} {as : List A}
    (hs : I s)
    (hrun : run step s as = some t) :
    run step' (part s) (as.filterMap action) = some (part t) := by
  induction as generalizing s with
  | nil =>
      cases hrun
      rfl
  | cons a as ih =>
      obtain ⟨s', hs', hrest⟩ := (run_cons_eq_some step).mp hrun
      have hsplit : (a :: as).filterMap action = (action a).toList ++ as.filterMap action := by
        cases h : action a <;> simp [h]
      rw [hsplit]
      exact run_append_eq_some.mpr
        ⟨part s', hstep s a s' hs hs', ih (hkeep s a s' hs hs') hrest⟩

/--
Where an action that `p` counts makes a measure smaller, and only one that `q` counts makes
it larger, by `c` at most, the actions that `q` counts pay for the others.
-/
theorem run_countP_le
    {μ : S → ℕ} {p q : A → Bool} {c : ℕ} {I : S → Prop}
    (hkeep : ∀ s a s', I s → step s a = some s' → I s')
    (hstep : ∀ s a s', I s → step s a = some s' →
      μ s' + (if p a then 1 else 0) ≤ μ s + (if q a then c else 0))
    {s t : S} {as : List A}
    (hs : I s)
    (hrun : run step s as = some t) :
    as.countP p + μ t ≤ μ s + c * as.countP q := by
  induction as generalizing s with
  | nil =>
      cases hrun
      simp
  | cons a as ih =>
      obtain ⟨s', hs', hrest⟩ := (run_cons_eq_some step).mp hrun
      have hhead := hstep s a s' hs hs'
      have htail := ih (hkeep s a s' hs hs') hrest
      have hcost : c * (a :: as).countP q = c * as.countP q + if q a then c else 0 := by
        rw [List.countP_cons, Nat.mul_add]
        split <;> simp
      rw [List.countP_cons, hcost]
      omega

variable (step) in
/-- `I` holds in every state that a run goes through, the first and the last included. -/
def Throughout (I : S → Prop) (s : S) (as : List A) : Prop :=
  ∀ before, before <+: as → ∀ s', run step s before = some s' → I s'

/-- A run goes through its first state, and then through those of its rest. -/
theorem throughout_cons
    {I : S → Prop}
    {s s' : S} {a : A} {as : List A}
    (hstep : step s a = some s') :
    Throughout step I s (a :: as) ↔ I s ∧ Throughout step I s' as := by
  constructor
  · intro h
    refine ⟨h [] List.nil_prefix s rfl, fun before hbefore t ht => ?_⟩
    exact h (a :: before) (List.cons_prefix_cons.mpr ⟨rfl, hbefore⟩) t
      ((run_cons_eq_some step).mpr ⟨s', hstep, ht⟩)
  · rintro ⟨hs, htail⟩ before hbefore t ht
    cases before with
    | nil =>
        cases ht
        exact hs
    | cons b before =>
        obtain ⟨rfl, hstart⟩ := List.cons_prefix_cons.mp hbefore
        obtain ⟨s'', hs'', ht⟩ := (run_cons_eq_some step).mp ht
        cases hstep.symm.trans hs''
        exact htail before hstart t ht

theorem throughout_nil
    {I : S → Prop} {s : S} :
    Throughout step I s [] ↔ I s := by
  constructor
  · intro h
    exact h [] List.nil_prefix s rfl
  · intro hs before hbefore t ht
    cases List.prefix_nil.mp hbefore
    cases ht
    exact hs

/--
Where the allowed steps keep `J`, which gives `I`, and every other step breaks `I`, a run
has `I` throughout exactly when all its steps are allowed.
-/
theorem throughout_iff_along
    {P : S → A → Prop} {I J : S → Prop}
    (hJI : ∀ s, J s → I s)
    (hkeep : ∀ s a s', J s → P s a → step s a = some s' → J s')
    (hbreak : ∀ s a s', J s → ¬ P s a → step s a = some s' → ¬ I s')
    {s t : S} {as : List A}
    (hs : J s)
    (hrun : run step s as = some t) :
    Throughout step I s as ↔ Along step P s as := by
  induction as generalizing s with
  | nil =>
      exact iff_of_true (throughout_nil.mpr (hJI s hs)) trivial
  | cons a as ih =>
      obtain ⟨s', hs', hrest⟩ := (run_cons_eq_some step).mp hrun
      rw [throughout_cons hs']
      by_cases hP : P s a
      · have htail := ih (hkeep s a s' hs hP hs') hrest
        constructor
        · rintro ⟨-, h⟩
          refine ⟨hP, fun s'' hs'' => ?_⟩
          cases hs'.symm.trans hs''
          exact htail.mp h
        · rintro ⟨-, h⟩
          exact ⟨hJI s hs, htail.mpr (h s' hs')⟩
      · refine iff_of_false ?_ (fun h => hP h.1)
        rintro ⟨-, h⟩
        exact hbreak s a s' hs hP hs' (h [] List.nil_prefix s' rfl)

/-- What each step keeps exactly when it is allowed, a run keeps when all its steps are. -/
theorem run_iff_along
    {P : S → A → Prop} {I : S → Prop}
    (hstep : ∀ s a s', step s a = some s' → (I s' ↔ I s ∧ P s a))
    {s t : S} {as : List A}
    (hrun : run step s as = some t) :
    I t ↔ I s ∧ Along step P s as := by
  induction as generalizing s with
  | nil =>
      cases hrun
      exact (and_iff_left trivial).symm
  | cons a as ih =>
      obtain ⟨s', hs', hrest⟩ := (run_cons_eq_some step).mp hrun
      rw [ih hrest, hstep s a s' hs', and_assoc]
      refine and_congr_right fun _ => and_congr_right fun _ => ⟨fun h s'' hs'' => ?_, fun h => ?_⟩
      · cases hs'.symm.trans hs''
        exact h
      · exact h s' hs'

/-! ## Runs of a relation -/

/-- A run of a step relation: the actions lead from the first state to the second. -/
inductive RunsTo (step : S → A → S → Prop) : S → List A → S → Prop
  | nil (s : S) : RunsTo step s [] s
  | cons
      {s s' t : S} {a : A} {as : List A}
      (hstep : step s a s')
      (hrest : RunsTo step s' as t) :
      RunsTo step s (a :: as) t

/-- What every step preserves holds at the end of every run. -/
theorem RunsTo.invariant
    {step : S → A → S → Prop}
    {I : S → Prop}
    {s t : S} {as : List A}
    (hrun : RunsTo step s as t)
    (hstep : ∀ s, ∀ a ∈ as, ∀ s', I s → step s a s' → I s')
    (hs : I s) :
    I t := by
  induction hrun with
  | nil => exact hs
  | @cons s s' t a as hfirst _ ih =>
      exact ih (fun u b hb => hstep u b (List.mem_cons_of_mem a hb))
        (hstep s a List.mem_cons_self s' hs hfirst)

end Runs

import Mathlib.Data.Set.Basic
import Mathlib.Data.List.Forall2

/-!
# Sets of traces

The runs of a program are a set of traces, one for each way it can go.  Programs
run one after the other join their traces end to end, programs run side by side
interleave them.  Both are instances of `combine`, which joins one trace of each
program by a relation that neither loses nor invents events (`IsJoin`); the
facts needed of them are proved once, for every such relation.
-/

namespace TraceSets

variable {ε : Type*}

/-- `c` joins `a` and `b`: its events are theirs, and any two traces can be joined. -/
structure IsJoin (J : List ε → List ε → List ε → Prop) : Prop where
  mem_iff : ∀ {a b c e}, J a b c → (e ∈ c ↔ e ∈ a ∨ e ∈ b)
  total : ∀ a b, ∃ c, J a b c

/-- End to end. -/
def Appends (a b c : List ε) : Prop :=
  c = a ++ b

/-- Side by side: the order of each trace is kept. -/
inductive Interleaves : List ε → List ε → List ε → Prop
  | nil :
      Interleaves [] [] []
  | left
      {e : ε} {a b c : List ε}
      (h : Interleaves a b c) :
      Interleaves (e :: a) b (e :: c)
  | right
      {e : ε} {a b c : List ε}
      (h : Interleaves a b c) :
      Interleaves a (e :: b) (e :: c)

theorem appends_isJoin : IsJoin (Appends (ε := ε)) where
  mem_iff := by
    rintro a b c e rfl
    exact List.mem_append
  total a b := ⟨a ++ b, rfl⟩

theorem interleaves_nil_left
    (b : List ε) :
    Interleaves [] b b := by
  induction b with
  | nil =>
      exact .nil
  | cons e b ih =>
      exact .right ih

/-- Running one trace to its end and then the other is one way to interleave them. -/
theorem interleaves_append
    (a b : List ε) :
    Interleaves a b (a ++ b) := by
  induction a with
  | nil =>
      exact interleaves_nil_left b
  | cons e a ih =>
      exact .left ih

theorem Interleaves.mem_iff
    {a b c : List ε}
    {e : ε}
    (h : Interleaves a b c) :
    e ∈ c ↔ e ∈ a ∨ e ∈ b := by
  induction h with
  | nil =>
      simp
  | left _ ih =>
      simp only [List.mem_cons, ih, or_assoc]
  | right _ ih =>
      simp only [List.mem_cons, ih, or_left_comm]

theorem interleaves_isJoin : IsJoin (Interleaves (ε := ε)) where
  mem_iff := Interleaves.mem_iff
  total a b := ⟨a ++ b, interleaves_append a b⟩

/-! ## Combining programs -/

/-- Joins one trace of each program. -/
def combine (J : List ε → List ε → List ε → Prop) : List (Set (List ε)) → Set (List ε)
  | [] => {[]}
  | T :: Ts => {c | ∃ a ∈ T, ∃ b ∈ combine J Ts, J a b c}

/-- One program after the other. -/
def seq (Ts : List (Set (List ε))) : Set (List ε) :=
  combine Appends Ts

/-- All programs side by side. -/
def par (Ts : List (Set (List ε))) : Set (List ε) :=
  combine Interleaves Ts

/-- One of the programs, or nothing. -/
def oneOf (Ts : List (Set (List ε))) : Set (List ε) :=
  {c | c = [] ∨ ∃ T ∈ Ts, c ∈ T}

/-- The program between one and `most` times. -/
def repeated (T : Set (List ε)) (most : ℕ) : Set (List ε) :=
  {c | ∃ n, 1 ≤ n ∧ n ≤ most ∧ c ∈ seq (List.replicate n T)}

/-- An event, and then the program. -/
def after (e : ε) (T : Set (List ε)) : Set (List ε) :=
  {c | ∃ a ∈ T, c = e :: a}

variable {J : List ε → List ε → List ε → Prop} {Ts : List (Set (List ε))} {T : Set (List ε)}
  {c : List ε} {e : ε}

theorem seq_singleton
    (T : Set (List ε)) :
    seq [T] = T := by
  ext c
  constructor
  · rintro ⟨a, ha, b, rfl, rfl⟩
    rwa [List.append_nil]
  · intro hc
    exact ⟨c, hc, [], rfl, (List.append_nil c).symm⟩

/-- Every event of a combined trace is one of some program's. -/
theorem exists_of_mem_combine
    (hJ : IsJoin J)
    (hc : c ∈ combine J Ts)
    (he : e ∈ c) :
    ∃ T ∈ Ts, ∃ a ∈ T, e ∈ a := by
  induction Ts generalizing c with
  | nil =>
      have hnil : c = [] := hc
      subst hnil
      simp at he
  | cons T Ts ih =>
      obtain ⟨a, ha, b, hb, hjoin⟩ := hc
      rcases (hJ.mem_iff hjoin).mp he with hea | heb
      · exact ⟨T, List.mem_cons_self, a, ha, hea⟩
      · obtain ⟨T', hT', a', ha', hea'⟩ := ih hb heb
        exact ⟨T', List.mem_cons_of_mem T hT', a', ha', hea'⟩

/-- A combined trace contains a trace of each program. -/
theorem exists_subset_of_mem_combine
    (hJ : IsJoin J)
    (hc : c ∈ combine J Ts)
    (hT : T ∈ Ts) :
    ∃ a ∈ T, a ⊆ c := by
  induction Ts generalizing c with
  | nil =>
      simp at hT
  | cons T' Ts ih =>
      obtain ⟨a, ha, b, hb, hjoin⟩ := hc
      rcases List.mem_cons.mp hT with rfl | hT
      · exact ⟨a, ha, fun e he => (hJ.mem_iff hjoin).mpr (Or.inl he)⟩
      · obtain ⟨a', ha', hsub⟩ := ih hb hT
        exact ⟨a', ha', fun e he => (hJ.mem_iff hjoin).mpr (Or.inr (hsub he))⟩

/-- Programs that can each run can run together. -/
theorem combine_nonempty
    (hJ : IsJoin J)
    (h : ∀ T ∈ Ts, T.Nonempty) :
    (combine J Ts).Nonempty := by
  induction Ts with
  | nil =>
      exact ⟨[], rfl⟩
  | cons T Ts ih =>
      obtain ⟨a, ha⟩ := h T List.mem_cons_self
      obtain ⟨b, hb⟩ := ih (fun T' hT' => h T' (List.mem_cons_of_mem T hT'))
      obtain ⟨c, hc⟩ := hJ.total a b
      exact ⟨c, a, ha, b, hb, hc⟩

theorem exists_of_mem_repeated
    {most : ℕ}
    (hc : c ∈ repeated T most)
    (he : e ∈ c) :
    ∃ a ∈ T, e ∈ a := by
  obtain ⟨n, _, _, hn⟩ := hc
  obtain ⟨T', hT', a, ha, hea⟩ := exists_of_mem_combine appends_isJoin hn he
  rw [List.eq_of_mem_replicate hT'] at ha
  exact ⟨a, ha, hea⟩

/-- A repeated program runs at least once. -/
theorem exists_subset_of_mem_repeated
    {most : ℕ}
    (hc : c ∈ repeated T most) :
    ∃ a ∈ T, a ⊆ c := by
  obtain ⟨n, hpos, _, hn⟩ := hc
  have hT : T ∈ List.replicate n T := List.mem_replicate.mpr ⟨by omega, rfl⟩
  exact exists_subset_of_mem_combine appends_isJoin hn hT

theorem repeated_nonempty
    {most : ℕ}
    (hpos : 1 ≤ most)
    (h : T.Nonempty) :
    (repeated T most).Nonempty := by
  have hone : ∀ T' ∈ List.replicate 1 T, T'.Nonempty := by
    intro T' hT'
    rw [List.eq_of_mem_replicate hT']
    exact h
  obtain ⟨c, hc⟩ := combine_nonempty appends_isJoin hone
  exact ⟨c, 1, le_refl 1, hpos, hc⟩

theorem mem_of_mem_after
    (hc : c ∈ after e T) :
    e ∈ c := by
  obtain ⟨a, _, rfl⟩ := hc
  exact List.mem_cons_self

theorem after_nonempty
    (h : T.Nonempty) :
    (after e T).Nonempty := by
  obtain ⟨a, ha⟩ := h
  exact ⟨e :: a, a, ha, rfl⟩

/-! ## Larger programs -/

/-- A combination grows with the programs it combines. -/
theorem combine_subset
    {Us : List (Set (List ε))}
    (h : List.Forall₂ (fun T U => T ⊆ U) Ts Us) :
    combine J Ts ⊆ combine J Us := by
  induction h with
  | nil =>
      exact subset_rfl
  | cons hTU _ ih =>
      rintro c ⟨a, ha, b, hb, hjoin⟩
      exact ⟨a, hTU ha, b, ih hb, hjoin⟩

theorem oneOf_subset
    {Us : List (Set (List ε))}
    (h : ∀ T ∈ Ts, ∃ U ∈ Us, T ⊆ U) :
    oneOf Ts ⊆ oneOf Us := by
  rintro c (hnil | ⟨T, hT, hc⟩)
  · exact Or.inl hnil
  · obtain ⟨U, hU, hTU⟩ := h T hT
    exact Or.inr ⟨U, hU, hTU hc⟩

theorem repeated_subset
    {U : Set (List ε)}
    (h : T ⊆ U)
    (most : ℕ) :
    repeated T most ⊆ repeated U most := by
  rintro c ⟨n, hpos, hle, hn⟩
  refine ⟨n, hpos, hle, combine_subset ?_ hn⟩
  exact List.forall₂_iff_get.mpr ⟨by simp, fun i hi hi' => by simpa using h⟩

theorem after_subset
    {U : Set (List ε)}
    (h : T ⊆ U)
    (e : ε) :
    after e T ⊆ after e U := by
  rintro c ⟨a, ha, rfl⟩
  exact ⟨a, h ha, rfl⟩

end TraceSets

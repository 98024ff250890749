import YamlAgno.Library.TraceSets
import YamlAgno.Workflow.NestedSteps

/-!
# Running a built workflow

The runs of a built tree under the semantics of the workflow engine: a workflow,
a pipeline and a loop run their children in order, a parallel group runs them side
by side, a condition runs one of its branches, and a router the selected choice.
An event records which step ran and in what place: at the top of the workflow, as
a member of a pipeline, group or loop, or as a selected branch.

The schema wants the targets of branches to be top-level steps, and the factory
builds them there as well as in the branch.  So the law that a branch target runs
only as a branch holds exactly for the configs in which no reference names a step
that is built in place (`targets_run_as_branches_iff`).
-/

namespace YamlAgno
namespace Workflow

open Attempt TraceSets

variable {O : Objects}

/-- Where a step runs. -/
inductive Place where
  | topLevel
  | member
  | branch
deriving DecidableEq

/-- A step that runs. -/
structure Event where
  place : Place
  name : String
deriving DecidableEq

namespace BuiltStep

mutual

/-- The traces of a primitive that runs in the given place.  A condition without an
evaluator is always true; a selector may name no choice. -/
def traces (place : Place) : BuiltStep O → Set (List Event)
  | step name _ _ => after ⟨place, name⟩ {[]}
  | steps name _ kids => after ⟨place, name⟩ (seq (childTraces .member kids))
  | parallel name _ kids => after ⟨place, name⟩ (par (childTraces .member kids))
  | condition name _ none kids _ => after ⟨place, name⟩ (seq (childTraces .branch kids))
  | condition name _ (some _) kids elseKids =>
      after ⟨place, name⟩ (seq (childTraces .branch kids) ∪ seq (elseTraces elseKids))
  | router name _ _ choices => after ⟨place, name⟩ (oneOf (childTraces .branch choices))
  | loop name _ kids maxIterations _ =>
      after ⟨place, name⟩ (repeated (seq (childTraces .member kids)) maxIterations)

def childTraces (place : Place) : List (BuiltStep O) → List (Set (List Event))
  | [] => []
  | kid :: kids => traces place kid :: childTraces place kids

def elseTraces : Option (List (BuiltStep O)) → List (Set (List Event))
  | none => []
  | some kids => childTraces .branch kids

end

theorem childTraces_eq_map
    (place : Place)
    (kids : List (BuiltStep O)) :
    childTraces place kids = kids.map (traces place) := by
  induction kids with
  | nil =>
      rfl
  | cons kid kids ih =>
      simp only [childTraces, ih, List.map_cons]

theorem elseTraces_eq_map
    (elseKids : Option (List (BuiltStep O))) :
    elseTraces elseKids = (elseKids.getD []).map (traces .branch) := by
  cases elseKids with
  | none =>
      rfl
  | some kids =>
      exact childTraces_eq_map .branch kids

/-- The children that run as branches. -/
def branches (b : BuiltStep O) : List (BuiltStep O) :=
  b.ifBranch ++ b.elseBranch ++ b.choices

/-- Induction over a primitive and everything it holds. -/
theorem induction_parts
    {P : BuiltStep O → Prop}
    (h : ∀ b, (∀ c ∈ b.members, P c) → (∀ c ∈ b.branches, P c) → P b)
    (b : BuiltStep O) :
    P b := by
  induction hn : sizeOf b using Nat.strong_induction_on generalizing b with
  | _ n ih =>
      subst hn
      have hlt : ∀ c, c ∈ b.members ∨ c ∈ b.branches → sizeOf c < sizeOf b := by
        intro c hc
        cases b with
        | step =>
            simp [members, branches, ifBranch, elseBranch, choices] at hc
        | steps _ _ kids | parallel _ _ kids | loop _ _ kids _ _ | router _ _ _ kids =>
            have hmem : c ∈ kids := by
              simpa [members, branches, ifBranch, elseBranch, choices] using hc
            have hsize := List.sizeOf_lt_of_mem hmem
            simp
            omega
        | condition _ _ _ kids elseKids =>
            simp only [members, branches, ifBranch, elseBranch, choices, List.not_mem_nil,
              List.append_nil, List.mem_append, false_or] at hc
            rcases hc with hc | hc
            · have hsize := List.sizeOf_lt_of_mem hc
              simp
              omega
            · cases elseKids with
              | none =>
                  simp at hc
              | some elseKids =>
                  have hsize := List.sizeOf_lt_of_mem hc
                  simp at hsize ⊢
                  omega
      exact h b (fun c hc => ih _ (hlt c (Or.inl hc)) c rfl)
        (fun c hc => ih _ (hlt c (Or.inr hc)) c rfl)

variable {place : Place} {b c : BuiltStep O} {tr : List Event} {e : Event}

/-- A condition runs its if-branch or its else-branch, which may be missing. -/
theorem traces_condition_subset
    {name : String}
    {description : Option String}
    {evaluator : Option (CallableOrCel O.Callable)}
    {kids : List (BuiltStep O)}
    {elseKids : Option (List (BuiltStep O))}
    (htr : tr ∈ (condition name description evaluator kids elseKids).traces place) :
    tr ∈ after ⟨place, name⟩
      (seq (kids.map (traces .branch)) ∪ seq ((elseKids.getD []).map (traces .branch))) := by
  cases evaluator with
  | none =>
      simp only [traces, childTraces_eq_map] at htr
      obtain ⟨a, ha, rfl⟩ := htr
      exact ⟨a, Or.inl ha, rfl⟩
  | some _ =>
      simpa only [traces, childTraces_eq_map, elseTraces_eq_map] using htr

/-- A primitive that runs, runs under its name. -/
theorem own_event_mem
    (htr : tr ∈ b.traces place) :
    ⟨place, b.name⟩ ∈ tr := by
  cases b with
  | condition =>
      exact mem_of_mem_after (traces_condition_subset htr)
  | step | steps | parallel | router | loop =>
      simp only [traces, childTraces_eq_map] at htr
      exact mem_of_mem_after htr

/-- Members always run. -/
theorem exists_member_trace
    (htr : tr ∈ b.traces place)
    (hc : c ∈ b.members) :
    ∃ tr' ∈ c.traces .member, tr' ⊆ tr := by
  cases b with
  | steps _ _ kids =>
      simp only [traces, childTraces_eq_map] at htr
      obtain ⟨a, ha, rfl⟩ := htr
      obtain ⟨tr', htr', hsub⟩ :=
        exists_subset_of_mem_combine appends_isJoin ha (List.mem_map_of_mem hc)
      exact ⟨tr', htr', fun e he => List.mem_cons_of_mem _ (hsub he)⟩
  | parallel _ _ kids =>
      simp only [traces, childTraces_eq_map] at htr
      obtain ⟨a, ha, rfl⟩ := htr
      obtain ⟨tr', htr', hsub⟩ :=
        exists_subset_of_mem_combine interleaves_isJoin ha (List.mem_map_of_mem hc)
      exact ⟨tr', htr', fun e he => List.mem_cons_of_mem _ (hsub he)⟩
  | loop _ _ kids _ _ =>
      simp only [traces, childTraces_eq_map] at htr
      obtain ⟨a, ha, rfl⟩ := htr
      obtain ⟨once, honce, hsubOnce⟩ := exists_subset_of_mem_repeated ha
      obtain ⟨tr', htr', hsub⟩ :=
        exists_subset_of_mem_combine appends_isJoin honce (List.mem_map_of_mem hc)
      exact ⟨tr', htr', fun e he => List.mem_cons_of_mem _ (hsubOnce (hsub he))⟩
  | step | condition | router =>
      simp [members] at hc

/-- A combination of children's traces has only their events. -/
theorem exists_child_of_mem_combine
    {J : List Event → List Event → List Event → Prop}
    (hJ : IsJoin J)
    {kids : List (BuiltStep O)}
    (htr : tr ∈ combine J (kids.map (traces place)))
    (he : e ∈ tr) :
    ∃ c ∈ kids, ∃ tr' ∈ c.traces place, e ∈ tr' := by
  obtain ⟨T, hT, tr', htr', he'⟩ := exists_of_mem_combine hJ htr he
  obtain ⟨c, hc, rfl⟩ := List.mem_map.mp hT
  exact ⟨c, hc, tr', htr', he'⟩

/-- Where the events of a primitive come from: itself, a member, or a branch. -/
theorem mem_trace_cases
    (htr : tr ∈ b.traces place)
    (he : e ∈ tr) :
    e = ⟨place, b.name⟩ ∨
      (∃ c ∈ b.members, ∃ tr' ∈ c.traces .member, e ∈ tr') ∨
        ∃ c ∈ b.branches, ∃ tr' ∈ c.traces .branch, e ∈ tr' := by
  have hsplit : ∀ {T : Set (List Event)}, tr ∈ after ⟨place, b.name⟩ T →
      e = ⟨place, b.name⟩ ∨ ∃ a ∈ T, e ∈ a := by
    rintro T ⟨a, ha, rfl⟩
    rcases List.mem_cons.mp he with he | he
    · exact Or.inl he
    · exact Or.inr ⟨a, ha, he⟩
  cases b with
  | step name _ _ =>
      simp only [traces] at htr
      rcases hsplit htr with he | ⟨a, ha, hea⟩
      · exact Or.inl he
      · have hnil : a = [] := ha
        simp [hnil] at hea
  | steps _ _ kids =>
      simp only [traces, childTraces_eq_map] at htr
      rcases hsplit htr with he | ⟨a, ha, hea⟩
      · exact Or.inl he
      · exact Or.inr (Or.inl (exists_child_of_mem_combine appends_isJoin ha hea))
  | parallel _ _ kids =>
      simp only [traces, childTraces_eq_map] at htr
      rcases hsplit htr with he | ⟨a, ha, hea⟩
      · exact Or.inl he
      · exact Or.inr (Or.inl (exists_child_of_mem_combine interleaves_isJoin ha hea))
  | loop _ _ kids _ _ =>
      simp only [traces, childTraces_eq_map] at htr
      rcases hsplit htr with he | ⟨a, ha, hea⟩
      · exact Or.inl he
      · obtain ⟨once, honce, heo⟩ := exists_of_mem_repeated ha hea
        exact Or.inr (Or.inl (exists_child_of_mem_combine appends_isJoin honce heo))
  | router _ _ _ choices =>
      simp only [traces, childTraces_eq_map] at htr
      rcases hsplit htr with he | ⟨a, ha, hea⟩
      · exact Or.inl he
      · rcases ha with rfl | ⟨T, hT, haT⟩
        · simp at hea
        · obtain ⟨c, hc, rfl⟩ := List.mem_map.mp hT
          refine Or.inr (Or.inr ⟨c, ?_, a, haT, hea⟩)
          simpa [branches, ifBranch, elseBranch, BuiltStep.choices] using hc
  | condition _ _ evaluator kids elseKids =>
      rcases hsplit (traces_condition_subset htr) with he | ⟨a, ha, hea⟩
      · exact Or.inl he
      · refine Or.inr (Or.inr ?_)
        simp only [branches, ifBranch, elseBranch, BuiltStep.choices, List.append_nil,
          List.mem_append]
        rcases ha with ha | ha
        · obtain ⟨c, hc, htr'⟩ := exists_child_of_mem_combine appends_isJoin ha hea
          exact ⟨c, Or.inl hc, htr'⟩
        · obtain ⟨c, hc, htr'⟩ := exists_child_of_mem_combine appends_isJoin ha hea
          exact ⟨c, Or.inr hc, htr'⟩

/-- Every primitive can run. -/
theorem traces_nonempty
    (b : BuiltStep O)
    (place : Place) :
    (b.traces place).Nonempty := by
  induction b using induction_parts generalizing place with
  | h b hmembers hbranches =>
      have hall : ∀ (p : Place) (kids : List (BuiltStep O)),
          (∀ c ∈ kids, (c.traces p).Nonempty) →
          ∀ T ∈ kids.map (traces p), T.Nonempty := by
        intro p kids hkids T hT
        obtain ⟨c, hc, rfl⟩ := List.mem_map.mp hT
        exact hkids c hc
      cases b with
      | step =>
          simp only [traces]
          exact after_nonempty ⟨[], rfl⟩
      | steps _ _ kids =>
          simp only [traces, childTraces_eq_map]
          exact after_nonempty (combine_nonempty appends_isJoin
            (hall .member kids (fun c hc => hmembers c hc .member)))
      | parallel _ _ kids =>
          simp only [traces, childTraces_eq_map]
          exact after_nonempty (combine_nonempty interleaves_isJoin
            (hall .member kids (fun c hc => hmembers c hc .member)))
      | loop _ _ kids maxIterations _ =>
          simp only [traces, childTraces_eq_map]
          have hbody := combine_nonempty appends_isJoin
            (hall .member kids (fun c hc => hmembers c hc .member))
          exact after_nonempty (repeated_nonempty maxIterations.pos hbody)
      | router =>
          simp only [traces, childTraces_eq_map]
          exact after_nonempty ⟨[], Or.inl rfl⟩
      | condition _ _ evaluator kids elseKids =>
          have hkids : ∀ c ∈ kids, (c.traces .branch).Nonempty := by
            intro c hc
            exact hbranches c (by simp [branches, ifBranch, hc]) .branch
          have hif := combine_nonempty appends_isJoin (hall .branch kids hkids)
          cases evaluator with
          | none =>
              simp only [traces, childTraces_eq_map]
              exact after_nonempty hif
          | some _ =>
              cases elseKids with
              | none | some _ =>
                  simp only [traces, childTraces_eq_map]
                  exact after_nonempty (hif.imp (fun _ => Or.inl))

end BuiltStep

/-- The traces of a workflow. -/
def BuiltWorkflow.traces (w : BuiltWorkflow O) : Set (List Event) :=
  seq (w.steps.map (BuiltStep.traces .topLevel))

theorem BuiltWorkflow.traces_nonempty (w : BuiltWorkflow O) : w.traces.Nonempty := by
  refine combine_nonempty appends_isJoin (fun T hT => ?_)
  obtain ⟨b, _, rfl⟩ := List.mem_map.mp hT
  exact b.traces_nonempty .topLevel

/-! ## Steps that are built in place -/

section InPlace

variable {R : Registries O} {cfg : WorkflowConfig} {w : BuiltWorkflow O}

/-- A step outside conditions runs in every run of the workflow, and not as a branch. -/
theorem OutsideConditions.runs_in_place
    {depth : ℕ}
    (h : build R depth cfg = returned w)
    {path : List ℕ}
    {s : StepConfig}
    (hout : OutsideConditions R cfg path s)
    {tr : List Event}
    (htr : tr ∈ w.traces) :
    ∃ b place, BuildsTo (R.context cfg) s b ∧ place ≠ .branch ∧
      ∃ tr' ∈ b.traces place, tr' ⊆ tr := by
  induction hout with
  | @top i s hs =>
      obtain ⟨b, hb, hbuild⟩ := Paired.exists_at (forall₂_of_build h) hs
      have hmem : b.traces .topLevel ∈ w.steps.map (BuiltStep.traces .topLevel) :=
        List.mem_map_of_mem (List.mem_of_getElem? hb)
      exact ⟨b, .topLevel, hbuild, by simp,
        exists_subset_of_mem_combine appends_isJoin htr hmem⟩
  | nested _ htype hraw hparse ih =>
      obtain ⟨b, place, hb, _, trParent, htrParent, hsubParent⟩ := ih
      obtain ⟨c, hc, t, ht, hbuild⟩ := Paired.exists_at (hb.members htype) hraw
      rw [hparse] at ht
      cases ht
      obtain ⟨tr', htr', hsub⟩ :=
        BuiltStep.exists_member_trace htrParent (List.mem_of_getElem? hc)
      exact ⟨c, .member, hbuild, by simp, tr', htr', fun e he => hsubParent (hsub he)⟩

theorem OutsideConditions.of_mem
    {s : StepConfig}
    (h : s ∈ cfg.steps) :
    ∃ path, OutsideConditions R cfg path s := by
  obtain ⟨i, hi⟩ := List.mem_iff_getElem?.mp h
  exact ⟨[i], .top hi⟩

/-- A branch of a node is the build of a top-level step. -/
theorem BuiltAs.of_mem_branches
    {s : StepConfig}
    {b c : BuiltStep O}
    (h : BuiltAs R cfg s b)
    (hc : c ∈ b.branches) :
    ∃ t ∈ cfg.steps, BuiltAs R cfg t c := by
  obtain ⟨b', hb', hsame⟩ := h
  simp only [BuiltStep.branches, hsame.ifBranch_eq, hsame.elseBranch_eq, hsame.choices_eq,
    List.mem_append] at hc
  rcases hc with (hc | hc) | hc
  · obtain ⟨i, t, ht, hbuild⟩ := Paired.exists_of_mem_right hb'.ifBranch hc
    have htarget := Option.mem_toList.mp (List.mem_of_getElem? ht)
    exact ⟨t, mem_steps_of_branchTarget htarget, .of_buildsTo hbuild⟩
  · obtain ⟨i, t, ht, hbuild⟩ := Paired.exists_of_mem_right hb'.elseBranch hc
    have htarget := Option.mem_toList.mp (List.mem_of_getElem? ht)
    exact ⟨t, mem_steps_of_branchTarget htarget, .of_buildsTo hbuild⟩
  · obtain ⟨i, case, hcase, c', hbuild, rfl⟩ := Paired.exists_of_mem_right hb'.choices hc
    exact ⟨case.2, mem_steps_of_caseTargets (List.mem_of_getElem? hcase), c', hbuild, _, rfl⟩

/-- A member of a node is the build of a nested step, and the node is no condition. -/
theorem BuiltAs.nestedBuild_of_mem
    {s : StepConfig}
    {b c : BuiltStep O}
    (h : BuiltAs R cfg s b)
    (hc : c ∈ b.members) :
    s.type ≠ .condition ∧
      ∃ (i : ℕ) (raw : PyDict), s.steps[i]? = some raw ∧ NestedBuild (R.context cfg) raw c := by
  obtain ⟨b', hb', hsame⟩ := h
  rw [hsame.members_eq] at hc
  have htype : s.type ≠ .condition := by
    intro ht
    obtain ⟨_, _, _, rfl, _⟩ := hb'.of_condition ht
    simp [BuiltStep.members] at hc
  exact ⟨htype, Paired.exists_of_mem_right (hb'.members htype) hc⟩

/-- A member of a node is the build of a step outside conditions, if the node's is. -/
theorem BuiltAs.of_mem_members
    {path : List ℕ}
    {s : StepConfig}
    {b c : BuiltStep O}
    (hout : OutsideConditions R cfg path s)
    (h : BuiltAs R cfg s b)
    (hc : c ∈ b.members) :
    ∃ path' t, OutsideConditions R cfg path' t ∧ BuildsTo (R.context cfg) t c := by
  obtain ⟨htype, i, raw, hraw, t, ht, hbuild⟩ := h.nestedBuild_of_mem hc
  exact ⟨_, t, .nested hout htype hraw ht, hbuild⟩

/-- What runs other than as a branch is a step outside conditions. -/
theorem BuiltAs.runs_in_place
    {path : List ℕ}
    {s : StepConfig}
    {b : BuiltStep O}
    {place : Place}
    (hout : OutsideConditions R cfg path s)
    (h : BuiltAs R cfg s b)
    (hname : place ≠ .branch → b.name = s.step)
    {tr : List Event}
    (htr : tr ∈ b.traces place)
    {e : Event}
    (he : e ∈ tr)
    (hplace : e.place ≠ .branch) :
    ∃ path' t, OutsideConditions R cfg path' t ∧ e.name = t.step := by
  induction b using BuiltStep.induction_parts generalizing path s place tr with
  | h b hmembers hbranches =>
      rcases BuiltStep.mem_trace_cases htr he with rfl | ⟨c, hc, tr', htr', he'⟩ |
          ⟨c, hc, tr', htr', he'⟩
      · exact ⟨path, s, hout, hname hplace⟩
      · obtain ⟨path', t, hout', hbuild⟩ := BuiltAs.of_mem_members hout h hc
        exact hmembers c hc hout' (.of_buildsTo hbuild) (fun _ => hbuild.name_kind.1) htr' he'
      · obtain ⟨t, ht, hbuilt⟩ := h.of_mem_branches hc
        obtain ⟨path', hout'⟩ := OutsideConditions.of_mem (R := R) ht
        exact hbranches c hc hout' hbuilt (fun hne => absurd rfl hne) htr' he'

end InPlace

/-! ## Branch targets -/

/-- The id is an `if_true`, `if_false` or case target of some step of the config. -/
def IsBranchTarget
    (R : Registries O)
    (cfg : WorkflowConfig)
    (id : String) : Prop :=
  ∃ path s, ConfigAt R cfg path s ∧ some id ∈ s.branchRefs

/-- No top-level step is built for itself, through any number of steps. -/
def AcyclicReferences
    (R : Registries O)
    (cfg : WorkflowConfig) : Prop :=
  ∀ s ∈ cfg.steps,
    ¬ Relation.TransGen (fun s t => .ok t ∈ stepChildren (R.context cfg) s) s s

/-- In every run, a step whose id is a branch target runs only as a branch. -/
def TargetsRunAsBranches
    (R : Registries O)
    (cfg : WorkflowConfig)
    (w : BuiltWorkflow O) : Prop :=
  ∀ tr ∈ w.traces, ∀ e ∈ tr, IsBranchTarget R cfg e.name → e.place = .branch

/-- In a build that returns, branch targets run only as branches exactly when no step
that is built in place, at the top or nested outside conditions, is a target. -/
theorem targets_run_as_branches_iff
    (R : Registries O)
    (cfg : WorkflowConfig)
    (w : BuiltWorkflow O)
    (depth : ℕ)
    (h : build R depth cfg = returned w) :
    TargetsRunAsBranches R cfg w ↔
      ∀ path s, OutsideConditions R cfg path s → ¬ IsBranchTarget R cfg s.step := by
  constructor
  · intro hlaw path s hout htarget
    obtain ⟨tr, htr⟩ := w.traces_nonempty
    obtain ⟨b, place, hb, hplace, tr', htr', hsub⟩ := hout.runs_in_place h htr
    have he := hsub (BuiltStep.own_event_mem htr')
    rw [hb.name_kind.1] at he
    exact hplace (hlaw tr htr _ he htarget)
  · intro hcond tr htr e he htarget
    by_contra hplace
    obtain ⟨T, hT, tr', htr', he'⟩ := exists_of_mem_combine appends_isJoin htr he
    obtain ⟨b, hb, rfl⟩ := List.mem_map.mp hT
    obtain ⟨i, s, hs, hbuild⟩ := Paired.exists_of_mem_right (forall₂_of_build h) hb
    obtain ⟨path', t, hout, hname⟩ := BuiltAs.runs_in_place (.top hs) (.of_buildsTo hbuild)
      (fun _ => hbuild.name_kind.1) htr' he' hplace
    exact hcond path' t hout (hname ▸ htarget)

theorem targets_run_as_branches_gated :
    TargetsRunAsBranches plainRegistries gatedConfig
        ⟨"gated", none, [.condition "gate" none none [.step "work" (.agent ()) none] none,
          .step "work" (.agent ()) none]⟩ ↔
      ∀ path s, OutsideConditions plainRegistries gatedConfig path s →
        ¬ IsBranchTarget plainRegistries gatedConfig s.step :=
  targets_run_as_branches_iff plainRegistries gatedConfig _ 2 rfl

/-- The condition of the gated workflow is built for no step, and the step it names
for no other. -/
theorem acyclicReferences_gated : AcyclicReferences plainRegistries gatedConfig := by
  let gate : StepConfig :=
    { step := "gate", type := .condition, ifTrue := some "work", valid := rfl }
  let work : StepConfig := { step := "work", agent := some "worker", valid := rfl }
  have hgate : stepChildren (plainRegistries.context gatedConfig) gate = [.ok work] := rfl
  have hwork : stepChildren (plainRegistries.context gatedConfig) work = [] := rfl
  intro s hs hcycle
  have hsteps : s = gate ∨ s = work := by
    simpa [gatedConfig] using hs
  obtain ⟨t, ht, hback⟩ := Relation.TransGen.head'_iff.mp hcycle
  rcases hsteps with rfl | rfl
  · rw [hgate, List.mem_singleton] at ht
    cases ht
    rcases Relation.ReflTransGen.cases_head hback with hsame | ⟨u, hu, _⟩
    · have hname := congrArg (fun s : StepConfig => s.step) hsame
      simp [gate, work] at hname
    · rw [hwork] at hu
      cases hu
  · rw [hwork] at ht
    cases ht

/-- A branch target also runs as a top-level step. -/
theorem target_runs_at_top_level :
    ¬ ∀ (O : Objects) (R : Registries O) (cfg : WorkflowConfig) (w : BuiltWorkflow O)
        (depth : ℕ), AcyclicReferences R cfg → build R depth cfg = returned w →
          TargetsRunAsBranches R cfg w := by
  intro hall
  let work : BuiltStep plainObjects := .step "work" (.agent ()) none
  let built : BuiltWorkflow plainObjects :=
    ⟨"gated", none, [.condition "gate" none none [work] none, work]⟩
  have hbuild : build plainRegistries 2 gatedConfig = returned built := rfl
  have htarget : IsBranchTarget plainRegistries gatedConfig "work" :=
    ⟨[0], _, .top rfl, by simp [StepFields.branchRefs]⟩
  obtain ⟨tr, htr⟩ := built.traces_nonempty
  have hwork : work.traces .topLevel ∈ built.steps.map (BuiltStep.traces .topLevel) := by
    simp [built]
  obtain ⟨tr', htr', hsub⟩ := exists_subset_of_mem_combine appends_isJoin htr hwork
  have hplace := hall _ _ _ _ _ acyclicReferences_gated hbuild tr htr _
    (hsub (BuiltStep.own_event_mem htr')) htarget
  cases hplace

end Workflow
end YamlAgno

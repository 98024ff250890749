import YamlAgno.Library.Fallible
import YamlAgno.Workflow.BuildWalk

/-!
# When a build comes to an end

The recursion of the factory goes down into nested raw steps, which are ever
smaller, and jumps to top-level steps by name, which it may do in a circle: the
validator checks that a reference exists, not where it leads.

The build of a config comes to a result, a workflow or one of the factory's
errors, exactly when no top-level step it gets to leads back to itself
(`build_terminates_iff`).  Which steps it gets to is a question about the config
and the registries alone: a step is built only when all steps before it resolve.
-/

namespace YamlAgno
namespace Workflow

open Attempt Relation

variable {O : Objects}

/-- Every step built for another is a top-level step, or has less left to be read. -/
theorem mem_steps_or_nestedSize_lt
    {R : Registries O}
    {cfg : WorkflowConfig}
    {t s : StepConfig}
    (h : .ok t ∈ stepChildren (R.context cfg) s) :
    t ∈ cfg.steps ∨ t.nestedSize < s.nestedSize := by
  have hnested :
      .ok t ∈ s.steps.map (parseNested (R.context cfg)) → t.nestedSize < s.nestedSize := by
    intro hmem
    obtain ⟨raw, hraw, hparse⟩ := List.mem_map.mp hmem
    exact nestedSize_lt_of_mem hraw (Fallible.mapError_eq_ok_iff.mp hparse)
  unfold stepChildren at h
  split at h
  · exact Or.inr (hnested h)
  · exact Or.inr (hnested h)
  · exact Or.inr (hnested h)
  · simp only [List.mem_append, List.mem_map, Option.mem_toList, Except.ok.injEq,
      exists_eq_right] at h
    rcases h with h | h
    · exact Or.inl (mem_steps_of_branchTarget h)
    · exact Or.inl (mem_steps_of_branchTarget h)
  · obtain ⟨case, hcase, heq⟩ := List.mem_map.mp h
    cases heq
    exact Or.inl (mem_steps_of_caseTargets hcase)
  all_goals simp at h

/-- The build gets from `s` to `t`: `t` is one of the steps built for `s`, and those
before it resolve. -/
def LeadsTo
    (R : Registries O)
    (cfg : WorkflowConfig)
    (s t : StepConfig) : Prop :=
  (buildPlan (R.context cfg)).LiveChild t s

/-- The build of the workflow gets to `t`: from a top-level step all of whose
predecessors resolve, by any number of such steps. -/
def Reached
    (R : Registries O)
    (cfg : WorkflowConfig)
    (t : StepConfig) : Prop :=
  ∃ s, (buildPlan (R.context cfg)).LiveIn s (rootChildren cfg) ∧
    ReflTransGen (LeadsTo R cfg) s t

/-- The build comes to a result: a workflow, or one of the factory's errors. -/
def Terminates
    (R : Registries O)
    (cfg : WorkflowConfig) : Prop :=
  ∃ (depth : ℕ) (result : Except BuildError (BuiltWorkflow O)),
    build R depth cfg = ofExcept result

theorem terminates_iff_settlesAll
    (R : Registries O)
    (cfg : WorkflowConfig) :
    Terminates R cfg ↔ (buildPlan (R.context cfg)).SettlesAll (rootChildren cfg) := by
  simp only [Terminates, ← ne_exhausted_iff, Plan.SettlesAll, build_eq_walkList]
  refine exists_congr (fun depth => ?_)
  cases (buildPlan (R.context cfg)).walkList depth (rootChildren cfg) <;> simp

/-- A build terminates exactly when no top-level step it gets to leads back to itself. -/
theorem build_terminates_iff
    (R : Registries O)
    (cfg : WorkflowConfig) :
    Terminates R cfg ↔
      ∀ t ∈ cfg.steps, Reached R cfg t → ¬ TransGen (LeadsTo R cfg) t t := by
  have hfinite : {t | t ∈ cfg.steps}.Finite := cfg.steps.finite_toSet
  have hstep : ∀ t s, (buildPlan (R.context cfg)).LiveChild t s →
      t ∈ {t | t ∈ cfg.steps} ∨ t.nestedSize < s.nestedSize :=
    fun t s h => mem_steps_or_nestedSize_lt h.mem
  rw [terminates_iff_settlesAll, Plan.settlesAll_iff_no_live_cycle hfinite hstep]
  have hswap : Function.swap (LeadsTo R cfg) = (buildPlan (R.context cfg)).LiveChild := rfl
  constructor
  · rintro h t ht ⟨s, hs, hst⟩ hcycle
    refine h t ht s hs ?_ ?_
    · rw [← hswap]
      exact reflTransGen_swap.mpr hst
    · rw [← hswap]
      exact transGen_swap.mpr hcycle
  · intro h t ht s hs hts hcycle
    refine h t ht ⟨s, hs, ?_⟩ ?_
    · rw [← hswap] at hts
      exact reflTransGen_swap.mp hts
    · rw [← hswap] at hcycle
      exact transGen_swap.mp hcycle

/-- A condition whose if-branch is the condition itself. -/
def selfReferringStep : StepConfig where
  step := "again"
  type := .condition
  ifTrue := some "again"
  valid := rfl

/-- The workflow with this one step; its reference exists, so it is accepted. -/
def selfReferringConfig : WorkflowConfig where
  name := "again"
  name_length := by decide
  description := none
  steps := [selfReferringStep]
  steps_nonempty := by simp
  integrity := rfl

theorem buildStep_selfReferring
    (R : Registries O)
    (depth : ℕ) :
    buildStep (R.context selfReferringConfig) depth selfReferringStep = exhausted := by
  induction depth with
  | zero =>
      rfl
  | succ depth ih =>
      have htarget :
          branchTarget (R.context selfReferringConfig) selfReferringStep.ifTrue =
            some selfReferringStep := rfl
      simp only [buildStep, buildStepWith, buildConditionGroup, htarget, ih]
      rfl

/-- Not every accepted config has a build that terminates. -/
theorem build_does_not_terminate :
    ¬ ∀ (O : Objects) (R : Registries O) (cfg : WorkflowConfig), Terminates R cfg := by
  intro h
  obtain ⟨depth, result, hbuild⟩ := h plainObjects plainRegistries selfReferringConfig
  have hstep := buildStep_selfReferring plainRegistries depth
  have hne : build plainRegistries depth selfReferringConfig ≠ exhausted :=
    ne_exhausted_iff.mpr ⟨result, hbuild⟩
  have hsteps : selfReferringConfig.steps = [selfReferringStep] := rfl
  simp [build, hsteps, hstep] at hne

end Workflow
end YamlAgno

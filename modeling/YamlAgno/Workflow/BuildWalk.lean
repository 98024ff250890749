import YamlAgno.Library.OrderedWalk
import YamlAgno.Workflow.Factory

/-!
# The builder is an ordered walk

Each step has its children in the order in which they are built: nested raw
steps, which may turn out to be invalid, or the steps its references name.  What
is left after them is to resolve the expression slot and to assemble the
primitive.  `buildStep_eq_walk` says that the factory does just this, so what the
walk library says about walks that return and walks that settle holds of it.
-/

namespace YamlAgno
namespace Workflow

open Attempt

variable {O : Objects}

/-- The steps that are built for `s`, in order. -/
def stepChildren
    (ctx : BuildContext O)
    (s : StepConfig) :
    List (Except BuildError StepConfig) :=
  match s.type with
  | .steps => s.steps.map (parseNested ctx)
  | .parallel => s.steps.map (parseNested ctx)
  | .loop => s.steps.map (parseNested ctx)
  | .condition =>
      (branchTarget ctx s.ifTrue).toList.map .ok ++ (branchTarget ctx s.ifFalse).toList.map .ok
  | .router => (caseTargets ctx s).map fun case => .ok case.2
  | .step => []
  | .function => []
  | .workflow => []

/-- A condition from its built children: those of the if-branch come first. -/
def assembleCondition
    (ctx : BuildContext O)
    (s : StepConfig)
    (evaluator : Option (CallableOrCel O.Callable))
    (kids : List (BuiltStep O)) :
    BuiltStep O :=
  let ifCount := (branchTarget ctx s.ifTrue).toList.length
  .condition s.step s.description evaluator (kids.take ifCount)
    (if (branchTarget ctx s.ifFalse).isSome then some (kids.drop ifCount) else none)

/-- The choices of a router from its built children, named by their case keys. -/
def assembleChoices
    (ctx : BuildContext O)
    (s : StepConfig)
    (kids : List (BuiltStep O)) :
    List (BuiltStep O) :=
  List.zipWith (fun case b => b.rename case.1) (caseTargets ctx s) kids

/-- What is done for `s` once its children are built. -/
def stepFinish
    (ctx : BuildContext O)
    (s : StepConfig) :
    Except BuildError (List (BuiltStep O) → BuiltStep O) :=
  match s.type with
  | .step => (buildStepExecutor ctx s).map fun b _ => b
  | .function => (buildStepExecutor ctx s).map fun b _ => b
  | .workflow => .error (.nestedWorkflow s.step)
  | .steps => .ok (.steps s.step s.description)
  | .parallel => .ok (.parallel s.step s.description)
  | .condition => (resolveSlot ctx s.condition).map (assembleCondition ctx s)
  | .router =>
      (resolveSlot ctx s.expression).map fun selector kids =>
        .router s.step s.description selector (assembleChoices ctx s kids)
  | .loop =>
      (resolveSlot ctx s.endCondition).map fun endCondition kids =>
        .loop s.step s.description kids (s.maxIterations.getD defaultMaxIterations) endCondition

/-- The factory as a plan of work. -/
def buildPlan
    (ctx : BuildContext O) :
    Plan StepConfig BuildError (BuiltStep O) where
  children := stepChildren ctx
  finish := stepFinish ctx

section Refinement

variable (ctx : BuildContext O) (build : StepConfig → Attempt BuildError (BuiltStep O))

theorem buildNested_eq
    (s : StepConfig) :
    buildNested ctx build s = (s.steps.map (parseNested ctx)).mapM (Plan.visit build) := by
  rw [buildNested, List.mapM_map]
  congr 1
  funext raw
  cases h : parseNested ctx raw <;> simp [Plan.visit, h]

theorem mapM_rename_eq
    (cases' : List (String × StepConfig)) :
    (cases'.mapM fun case => do
        let builtChoice ← build case.2
        pure (builtChoice.rename case.1)) =
      (do
        let kids ← (cases'.map fun case => (Except.ok case.2 : Except BuildError StepConfig)).mapM
          (Plan.visit build)
        pure (List.zipWith (fun case b => b.rename case.1) cases' kids)) := by
  induction cases' with
  | nil =>
      rfl
  | cons case rest ih =>
      simp only [List.mapM_cons, List.map_cons, ih, bind_assoc, pure_bind, Plan.visit,
        List.zipWith_cons_cons]

/-- The dispatcher does what the plan says. -/
theorem buildStepWith_eq_walkWith
    (s : StepConfig) :
    buildStepWith ctx build s = (buildPlan ctx).walkWith build s := by
  simp only [buildStepWith, Plan.walkWith, buildPlan, stepChildren, stepFinish]
  cases s.type with
  | step | function =>
      simp only [List.mapM_nil, pure_bind, ofExcept_map_bind]
      cases buildStepExecutor ctx s <;> rfl
  | workflow =>
      rfl
  | steps =>
      simp only [buildStepsGroup, buildNested_eq, ofExcept_ok, returned_bind]
  | parallel =>
      simp only [buildParallelGroup, buildNested_eq, ofExcept_ok, returned_bind]
  | loop =>
      simp only [buildLoopGroup, buildNested_eq, ofExcept_map_bind]
  | router =>
      simp only [buildRouterGroup, mapM_rename_eq, ofExcept_map_bind, bind_assoc, pure_bind,
        assembleChoices]
  | condition =>
      simp only [buildConditionGroup, ofExcept_map_bind, assembleCondition]
      cases branchTarget ctx s.ifTrue with
      | none =>
          cases branchTarget ctx s.ifFalse <;> simp [Plan.visit]
      | some target =>
          cases branchTarget ctx s.ifFalse <;> simp [Plan.visit]

/-- The recursive builder is the walk of the plan. -/
theorem buildStep_eq_walk
    (depth : ℕ)
    (s : StepConfig) :
    buildStep ctx depth s = (buildPlan ctx).walk depth s := by
  induction depth generalizing s with
  | zero =>
      rfl
  | succ depth ih =>
      have hrec : buildStep ctx depth = (buildPlan ctx).walk depth := funext ih
      simp only [buildStep, Plan.walk, hrec, buildStepWith_eq_walkWith]

end Refinement

section Targets

variable {R : Registries O} {cfg : WorkflowConfig}

/-- References lead to top-level steps. -/
theorem mem_steps_of_branchTarget
    {ref : Option String}
    {t : StepConfig}
    (h : branchTarget (R.context cfg) ref = some t) :
    t ∈ cfg.steps := by
  cases ref with
  | none =>
      simp [branchTarget] at h
  | some id =>
      simp only [branchTarget] at h
      split_ifs at h
      exact (WorkflowConfig.mem_of_stepIndex h).1

theorem mem_steps_of_caseTargets
    {s t : StepConfig}
    {key : String}
    (h : (key, t) ∈ caseTargets (R.context cfg) s) :
    t ∈ cfg.steps := by
  obtain ⟨case, _, href⟩ := List.mem_filterMap.mp h
  obtain ⟨t', ht', heq⟩ := Option.map_eq_some_iff.mp href
  cases heq
  exact (WorkflowConfig.mem_of_stepIndex ht').1

end Targets

/-- The top-level steps, as children of the workflow. -/
def rootChildren
    (cfg : WorkflowConfig) :
    List (Except BuildError StepConfig) :=
  cfg.steps.map .ok

/-- `WorkflowFactory.build` walks the top-level steps. -/
theorem build_eq_walkList
    (R : Registries O)
    (depth : ℕ)
    (cfg : WorkflowConfig) :
    build R depth cfg = (do
      let builtSteps ← (buildPlan (R.context cfg)).walkList depth (rootChildren cfg)
      return { name := cfg.name, description := cfg.description, steps := builtSteps }) := by
  have hrec : buildStep (R.context cfg) depth = (buildPlan (R.context cfg)).walk depth :=
    funext (buildStep_eq_walk _ depth)
  simp only [build, Plan.walkList, rootChildren, List.mapM_map, hrec]
  rfl

end Workflow
end YamlAgno

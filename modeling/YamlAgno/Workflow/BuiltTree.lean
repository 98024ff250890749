import YamlAgno.Library.Fallible
import YamlAgno.Workflow.BuildWalk

/-!
# What a built primitive holds

Inversion of a build that returns, type by type: the members of a pipeline, a
parallel group or a loop are the builds of its nested steps, in order; the
branches of a condition are the builds of the steps its references name; the
choices of a router are the builds of the steps its cases name, under the case
keys.  The results about the built tree use these facts and never unfold the
builder.
-/

namespace YamlAgno
namespace Workflow

open Attempt Fallible

variable {O : Objects}

/-! ## Parts of a built primitive -/

namespace BuiltStep

/-- The type of step a primitive stands for. -/
def kind : BuiltStep O → StepType
  | step _ _ _ => .step
  | steps _ _ _ => .steps
  | parallel _ _ _ => .parallel
  | condition _ _ _ _ _ => .condition
  | router _ _ _ _ => .router
  | loop _ _ _ _ _ => .loop

/-- The children that a pipeline, a parallel group or a loop always runs. -/
def members : BuiltStep O → List (BuiltStep O)
  | steps _ _ kids => kids
  | parallel _ _ kids => kids
  | loop _ _ kids _ _ => kids
  | step _ _ _ => []
  | condition _ _ _ _ _ => []
  | router _ _ _ _ => []

/-- The if-branch of a condition. -/
def ifBranch : BuiltStep O → List (BuiltStep O)
  | condition _ _ _ kids _ => kids
  | _ => []

/-- The else-branch of a condition; a missing one holds nothing. -/
def elseBranch : BuiltStep O → List (BuiltStep O)
  | condition _ _ _ _ elseKids => elseKids.getD []
  | _ => []

/-- The choices of a router. -/
def choices : BuiltStep O → List (BuiltStep O)
  | router _ _ _ kids => kids
  | _ => []

/-- Two primitives that differ in their names at most. -/
def SameButName (b c : BuiltStep O) : Prop :=
  ∃ newName, c = b.rename newName

theorem SameButName.refl (b : BuiltStep O) : b.SameButName b :=
  ⟨b.name, by cases b <;> rfl⟩

variable {b c : BuiltStep O}

theorem ifBranch_eq_nil (h : b.kind ≠ .condition) : b.ifBranch = [] := by
  cases b <;> simp_all [kind, ifBranch]

theorem elseBranch_eq_nil (h : b.kind ≠ .condition) : b.elseBranch = [] := by
  cases b <;> simp_all [kind, elseBranch]

theorem choices_eq_nil (h : b.kind ≠ .router) : b.choices = [] := by
  cases b <;> simp_all [kind, choices]

theorem SameButName.kind_eq (h : b.SameButName c) : c.kind = b.kind := by
  obtain ⟨newName, rfl⟩ := h
  cases b <;> rfl

theorem SameButName.members_eq (h : b.SameButName c) : c.members = b.members := by
  obtain ⟨newName, rfl⟩ := h
  cases b <;> rfl

theorem SameButName.ifBranch_eq (h : b.SameButName c) : c.ifBranch = b.ifBranch := by
  obtain ⟨newName, rfl⟩ := h
  cases b <;> rfl

theorem SameButName.elseBranch_eq (h : b.SameButName c) : c.elseBranch = b.elseBranch := by
  obtain ⟨newName, rfl⟩ := h
  cases b <;> rfl

theorem SameButName.choices_eq (h : b.SameButName c) : c.choices = b.choices := by
  obtain ⟨newName, rfl⟩ := h
  cases b <;> rfl

end BuiltStep

/-- The primitive that a step type is built as: functions are plain steps. -/
def StepType.primitive : StepType → StepType
  | .function => .step
  | t => t

/-! ## Builds that return -/

section Inversion

variable (ctx : BuildContext O)

/-- The build of `s` returns `b`. -/
def BuildsTo
    (s : StepConfig)
    (b : BuiltStep O) : Prop :=
  ∃ depth, buildStep ctx depth s = returned b

/-- `b` is built from the raw step. -/
def NestedBuild
    (raw : PyDict)
    (b : BuiltStep O) : Prop :=
  ∃ s, parseNested ctx raw = .ok s ∧ BuildsTo ctx s b

variable {ctx}

theorem buildsTo_iff_returns
    {s : StepConfig}
    {b : BuiltStep O} :
    BuildsTo ctx s b ↔ (buildPlan ctx).Returns s b := by
  simp only [BuildsTo, Plan.Returns, buildStep_eq_walk]

theorem returnsAll_iff_buildsTo
    {cs : List (Except BuildError StepConfig)}
    {kids : List (BuiltStep O)} :
    (buildPlan ctx).ReturnsAll cs kids ↔
      List.Forall₂ (fun c b => ∃ s, c = .ok s ∧ BuildsTo ctx s b) cs kids := by
  simp only [Plan.returnsAll_iff, buildsTo_iff_returns]

theorem forall₂_ok_iff
    {ss : List StepConfig}
    {kids : List (BuiltStep O)} :
    List.Forall₂ (fun c b => ∃ s, c = .ok s ∧ BuildsTo ctx s b)
        (ss.map (Except.ok : StepConfig → Except BuildError StepConfig)) kids ↔
      List.Forall₂ (BuildsTo ctx) ss kids := by
  simp [List.forall₂_map_left_iff]

/-- What a build that returns has done. -/
theorem BuildsTo.parts
    {s : StepConfig}
    {b : BuiltStep O}
    (h : BuildsTo ctx s b) :
    ∃ kids assemble,
      List.Forall₂ (fun c b => ∃ s, c = .ok s ∧ BuildsTo ctx s b) (stepChildren ctx s) kids ∧
        stepFinish ctx s = .ok assemble ∧ b = assemble kids := by
  obtain ⟨kids, assemble, hkids, hfinish, hb⟩ :=
    Plan.returns_iff.mp (buildsTo_iff_returns.mp h)
  exact ⟨kids, assemble, returnsAll_iff_buildsTo.mp hkids, hfinish, hb⟩

/-- The executor is what the first source set on the step names: an agent, a team, or
a function, which is wrapped when there is a step executor. -/
def ExecutorOf
    (ctx : BuildContext O)
    (s : StepConfig) :
    Executor O → Prop
  | .agent a => ∃ name, s.agent = some name ∧ ctx.agents name = some a
  | .team t => s.agent = none ∧ ∃ name, s.team = some name ∧ ctx.teams name = some t
  | .callable f =>
      s.agent = none ∧ s.team = none ∧ ctx.stepExecutor = none ∧
        ∃ name, s.function = some name ∧ resolveCallableOrCel ctx name = .ok (.callable f)
  | .resilient stepExecutor f =>
      s.agent = none ∧ s.team = none ∧ ctx.stepExecutor = some stepExecutor ∧
        ∃ name, s.function = some name ∧ resolveCallableOrCel ctx name = .ok (.callable f)

/-- A step whose executor is built becomes a plain step under its own id. -/
theorem buildStepExecutor_eq_ok
    {s : StepConfig}
    {b : BuiltStep O}
    (h : buildStepExecutor ctx s = .ok b) :
    ∃ executor, b = .step s.step executor s.description ∧ ExecutorOf ctx s executor := by
  unfold buildStepExecutor at h
  split at h
  case h_1 agent hagent =>
    split at h
    · cases h
    case h_2 a ha =>
      cases h
      exact ⟨_, rfl, agent, hagent, ha⟩
  case h_2 hagent =>
    split at h
    case h_1 team hteam =>
      split at h
      · cases h
      case h_2 t ht =>
        cases h
        exact ⟨_, rfl, hagent, team, hteam, ht⟩
    case h_2 hteam =>
      split at h
      case h_1 function hfunction =>
        split at h
        · cases h
        · cases h
        case h_3 f hf =>
          split at h
          case h_1 hnone =>
            cases h
            exact ⟨_, rfl, hagent, hteam, hnone, function, hfunction, hf⟩
          case h_2 stepExecutor hsome =>
            cases h
            exact ⟨_, rfl, hagent, hteam, hsome, function, hfunction, hf⟩
      case h_2 =>
        split at h
        · cases h
        · cases h

theorem BuildsTo.of_step
    {s : StepConfig}
    {b : BuiltStep O}
    (h : BuildsTo ctx s b)
    (ht : s.type = .step ∨ s.type = .function) :
    ∃ executor, b = .step s.step executor s.description ∧ ExecutorOf ctx s executor := by
  obtain ⟨kids, assemble, _, hfinish, rfl⟩ := h.parts
  have hexec : (buildStepExecutor ctx s).map (fun b _ => b) = .ok assemble := by
    rcases ht with ht | ht
    · simpa [stepFinish, ht] using hfinish
    · simpa [stepFinish, ht] using hfinish
  obtain ⟨b, hb, rfl⟩ := map_eq_ok_iff.mp hexec
  exact buildStepExecutor_eq_ok hb

theorem forall₂_parseNested_iff
    {raws : List PyDict}
    {kids : List (BuiltStep O)} :
    List.Forall₂ (fun c b => ∃ s, c = .ok s ∧ BuildsTo ctx s b)
        (raws.map (parseNested ctx)) kids ↔
      List.Forall₂ (NestedBuild ctx) raws kids := by
  rw [List.forall₂_map_left_iff]
  rfl

theorem BuildsTo.of_steps
    {s : StepConfig}
    {b : BuiltStep O}
    (h : BuildsTo ctx s b)
    (ht : s.type = .steps) :
    ∃ kids, List.Forall₂ (NestedBuild ctx) s.steps kids ∧
      b = .steps s.step s.description kids := by
  obtain ⟨kids, assemble, hkids, hfinish, rfl⟩ := h.parts
  simp only [stepChildren, stepFinish, ht, Except.ok.injEq] at hkids hfinish
  subst hfinish
  exact ⟨kids, forall₂_parseNested_iff.mp hkids, rfl⟩

theorem BuildsTo.of_parallel
    {s : StepConfig}
    {b : BuiltStep O}
    (h : BuildsTo ctx s b)
    (ht : s.type = .parallel) :
    ∃ kids, List.Forall₂ (NestedBuild ctx) s.steps kids ∧
      b = .parallel s.step s.description kids := by
  obtain ⟨kids, assemble, hkids, hfinish, rfl⟩ := h.parts
  simp only [stepChildren, stepFinish, ht, Except.ok.injEq] at hkids hfinish
  subst hfinish
  exact ⟨kids, forall₂_parseNested_iff.mp hkids, rfl⟩

theorem BuildsTo.of_loop
    {s : StepConfig}
    {b : BuiltStep O}
    (h : BuildsTo ctx s b)
    (ht : s.type = .loop) :
    ∃ kids endCondition, List.Forall₂ (NestedBuild ctx) s.steps kids ∧
      b = .loop s.step s.description kids (s.maxIterations.getD defaultMaxIterations) endCondition := by
  obtain ⟨kids, assemble, hkids, hfinish, rfl⟩ := h.parts
  simp only [stepChildren, stepFinish, ht] at hkids hfinish
  obtain ⟨endCondition, _, rfl⟩ := map_eq_ok_iff.mp hfinish
  exact ⟨kids, endCondition, forall₂_parseNested_iff.mp hkids, rfl⟩

theorem BuildsTo.of_condition
    {s : StepConfig}
    {b : BuiltStep O}
    (h : BuildsTo ctx s b)
    (ht : s.type = .condition) :
    ∃ evaluator ifSteps elseSteps,
      b = .condition s.step s.description evaluator ifSteps elseSteps ∧
        List.Forall₂ (BuildsTo ctx) (branchTarget ctx s.ifTrue).toList ifSteps ∧
        List.Forall₂ (BuildsTo ctx) (branchTarget ctx s.ifFalse).toList (elseSteps.getD []) := by
  obtain ⟨kids, assemble, hkids, hfinish, rfl⟩ := h.parts
  simp only [stepChildren, stepFinish, ht, ← List.map_append] at hkids hfinish
  have hforall := forall₂_ok_iff.mp hkids
  obtain ⟨evaluator, _, rfl⟩ := map_eq_ok_iff.mp hfinish
  refine ⟨evaluator, _, _, rfl, ?_, ?_⟩
  · simpa using List.forall₂_take (branchTarget ctx s.ifTrue).toList.length hforall
  · have hdrop := List.forall₂_drop (branchTarget ctx s.ifTrue).toList.length hforall
    simp only [List.drop_left] at hdrop
    cases hfalse : branchTarget ctx s.ifFalse with
    | none =>
        simp
    | some target =>
        simpa [hfalse] using hdrop

theorem BuildsTo.of_router
    {s : StepConfig}
    {b : BuiltStep O}
    (h : BuildsTo ctx s b)
    (ht : s.type = .router) :
    ∃ selector choices,
      b = .router s.step s.description selector choices ∧
        List.Forall₂ (fun case c => ∃ b, BuildsTo ctx case.2 b ∧ c = b.rename case.1)
          (caseTargets ctx s) choices := by
  obtain ⟨kids, assemble, hkids, hfinish, rfl⟩ := h.parts
  simp only [stepChildren, stepFinish, ht] at hkids hfinish
  obtain ⟨selector, _, rfl⟩ := map_eq_ok_iff.mp hfinish
  refine ⟨selector, _, rfl, ?_⟩
  rw [List.forall₂_map_left_iff] at hkids
  unfold assembleChoices
  generalize caseTargets ctx s = targets at hkids
  clear h
  induction hkids with
  | nil =>
      exact .nil
  | @cons case b _ _ hb _ ih =>
      obtain ⟨t, hcase, ht⟩ := hb
      cases hcase
      exact .cons ⟨b, ht, rfl⟩ ih

theorem not_buildsTo_of_workflow
    {s : StepConfig}
    {b : BuiltStep O}
    (ht : s.type = .workflow) :
    ¬ BuildsTo ctx s b := by
  intro h
  obtain ⟨_, assemble, _, hfinish, _⟩ := h.parts
  simp [stepFinish, ht] at hfinish

/-! ## Uniform consequences -/

/-- A step is built under its own id, as the primitive of its type. -/
theorem BuildsTo.name_kind
    {s : StepConfig}
    {b : BuiltStep O}
    (h : BuildsTo ctx s b) :
    b.name = s.step ∧ b.kind = s.type.primitive := by
  cases ht : s.type with
  | step =>
      obtain ⟨_, rfl, _⟩ := h.of_step (Or.inl ht)
      exact ⟨rfl, rfl⟩
  | function =>
      obtain ⟨_, rfl, _⟩ := h.of_step (Or.inr ht)
      exact ⟨rfl, rfl⟩
  | steps =>
      obtain ⟨_, _, rfl⟩ := h.of_steps ht
      exact ⟨rfl, rfl⟩
  | parallel =>
      obtain ⟨_, _, rfl⟩ := h.of_parallel ht
      exact ⟨rfl, rfl⟩
  | loop =>
      obtain ⟨_, _, _, rfl⟩ := h.of_loop ht
      exact ⟨rfl, rfl⟩
  | condition =>
      obtain ⟨_, _, _, rfl, _⟩ := h.of_condition ht
      exact ⟨rfl, rfl⟩
  | router =>
      obtain ⟨_, _, rfl, _⟩ := h.of_router ht
      exact ⟨rfl, rfl⟩
  | workflow =>
      exact absurd h (not_buildsTo_of_workflow ht)

/-- The members of a primitive are the builds of the step's nested steps, in order;
a condition has none. -/
theorem BuildsTo.members
    {s : StepConfig}
    {b : BuiltStep O}
    (h : BuildsTo ctx s b)
    (ht : s.type ≠ .condition) :
    List.Forall₂ (NestedBuild ctx) s.steps b.members := by
  cases htype : s.type with
  | steps =>
      obtain ⟨_, hkids, rfl⟩ := h.of_steps htype
      exact hkids
  | parallel =>
      obtain ⟨_, hkids, rfl⟩ := h.of_parallel htype
      exact hkids
  | loop =>
      obtain ⟨_, _, hkids, rfl⟩ := h.of_loop htype
      exact hkids
  | step =>
      obtain ⟨_, rfl, _⟩ := h.of_step (Or.inl htype)
      rw [s.steps_eq_nil (by simp [StepType.nestable, htype])]
      exact .nil
  | function =>
      obtain ⟨_, rfl, _⟩ := h.of_step (Or.inr htype)
      rw [s.steps_eq_nil (by simp [StepType.nestable, htype])]
      exact .nil
  | router =>
      obtain ⟨_, _, rfl, _⟩ := h.of_router htype
      rw [s.steps_eq_nil (by simp [StepType.nestable, htype])]
      exact .nil
  | condition =>
      exact absurd htype ht
  | workflow =>
      exact absurd h (not_buildsTo_of_workflow htype)

theorem primitive_eq_condition_iff
    {t : StepType} :
    t.primitive = .condition ↔ t = .condition := by
  cases t <;> simp [StepType.primitive]

theorem primitive_eq_router_iff
    {t : StepType} :
    t.primitive = .router ↔ t = .router := by
  cases t <;> simp [StepType.primitive]

theorem BuildsTo.kind_ne_condition
    {s : StepConfig}
    {b : BuiltStep O}
    (h : BuildsTo ctx s b)
    (ht : s.type ≠ .condition) :
    b.kind ≠ .condition := by
  rw [h.name_kind.2]
  exact fun hkind => ht (primitive_eq_condition_iff.mp hkind)

theorem BuildsTo.kind_ne_router
    {s : StepConfig}
    {b : BuiltStep O}
    (h : BuildsTo ctx s b)
    (ht : s.type ≠ .router) :
    b.kind ≠ .router := by
  rw [h.name_kind.2]
  exact fun hkind => ht (primitive_eq_router_iff.mp hkind)

/-- The if-branch holds the build of the step that `if_true` names. -/
theorem BuildsTo.ifBranch
    {s : StepConfig}
    {b : BuiltStep O}
    (h : BuildsTo ctx s b) :
    List.Forall₂ (BuildsTo ctx) (branchTarget ctx s.ifTrue).toList b.ifBranch := by
  by_cases ht : s.type = .condition
  · obtain ⟨_, _, _, rfl, hif, _⟩ := h.of_condition ht
    exact hif
  · rw [BuiltStep.ifBranch_eq_nil (h.kind_ne_condition ht), s.ifTrue_eq_none ht]
    exact .nil

/-- The else-branch holds the build of the step that `if_false` names. -/
theorem BuildsTo.elseBranch
    {s : StepConfig}
    {b : BuiltStep O}
    (h : BuildsTo ctx s b) :
    List.Forall₂ (BuildsTo ctx) (branchTarget ctx s.ifFalse).toList b.elseBranch := by
  by_cases ht : s.type = .condition
  · obtain ⟨_, _, _, rfl, _, helse⟩ := h.of_condition ht
    exact helse
  · rw [BuiltStep.elseBranch_eq_nil (h.kind_ne_condition ht), s.ifFalse_eq_none ht]
    exact .nil

/-- The choices are the builds of the steps that the cases name, under the case keys. -/
theorem BuildsTo.choices
    {s : StepConfig}
    {b : BuiltStep O}
    (h : BuildsTo ctx s b) :
    List.Forall₂ (fun case c => ∃ b, BuildsTo ctx case.2 b ∧ c = b.rename case.1)
      (caseTargets ctx s) b.choices := by
  by_cases ht : s.type = .router
  · obtain ⟨_, _, rfl, hchoices⟩ := h.of_router ht
    exact hchoices
  · rw [BuiltStep.choices_eq_nil (h.kind_ne_router ht), caseTargets, s.cases_eq_nil ht]
    exact .nil

end Inversion

end Workflow
end YamlAgno

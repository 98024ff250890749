import YamlAgno.Workflow.Execution

/-!
# Builds with and without a step executor

A step executor makes the workflow's function steps resilient.  It is threaded
through every builder down to the place where a `function` becomes an executor,
and nothing else looks at it.

So a build with a step executor is the build without one, errors included, in
which each callable executor has been replaced by its wrapper
(`build_withStepExecutor`).  The relation is proved builder by builder, for a
recursion that is already known to be related in this way; the depth of the
recursion then does the rest, with no need for the references to be acyclic.
-/

namespace YamlAgno
namespace Workflow

open Attempt

variable {O : Objects}

/-! ## The wrapper -/

/--
How callables run, in the monad `M` of their effects: what a call answers, what
awaiting the answer of a coroutine function gives, and what `execute_step` does
with the work it is given.
-/
structure Interpreter (O : Objects) (M : Type → Type) (Input Value : Type) where
  isCoroutineFunction : O.Callable → Bool
  call : O.Callable → Input → M Value
  await : Value → M Value
  executeStep : O.StepExecutor → M Value → M Value

section Wrapper

variable {M : Type → Type} [Monad M] {Input Value : Type}

/-- `_resilient_executor`: the work awaits a coroutine, or calls a plain function. -/
def Interpreter.resilientExecutor
    (I : Interpreter O M Input Value)
    (stepExecutor : O.StepExecutor)
    (f : O.Callable)
    (input : Input) :
    M Value :=
  if I.isCoroutineFunction f then
    I.executeStep stepExecutor (do
      let coroutine ← I.call f input
      I.await coroutine)
  else
    I.executeStep stepExecutor (I.call f input)

/-- The callable's own run: one call, and one await for a coroutine function. -/
def Interpreter.run
    (I : Interpreter O M Input Value)
    (f : O.Callable)
    (input : Input) :
    M Value :=
  if I.isCoroutineFunction f then do
    let coroutine ← I.call f input
    I.await coroutine
  else
    I.call f input

/-- The wrapper hands the run of the wrapped callable to `execute_step`. -/
theorem Interpreter.resilientExecutor_eq
    (I : Interpreter O M Input Value)
    (stepExecutor : O.StepExecutor)
    (f : O.Callable)
    (input : Input) :
    I.resilientExecutor stepExecutor f input = I.executeStep stepExecutor (I.run f input) := by
  unfold Interpreter.resilientExecutor Interpreter.run
  split
  · rfl
  · rfl

end Wrapper

/-! ## Wrapping a built tree -/

/-- A callable is wrapped; agents and teams stay as they are. -/
def Executor.wrapFunction (stepExecutor : O.StepExecutor) : Executor O → Executor O
  | agent a => agent a
  | team t => team t
  | callable f => resilient stepExecutor f
  | resilient stepExecutor' f => resilient stepExecutor' f

namespace BuiltStep

mutual

/-- The same tree, with every callable executor wrapped. -/
def wrapFunctions (stepExecutor : O.StepExecutor) : BuiltStep O → BuiltStep O
  | step name executor description =>
      step name (executor.wrapFunction stepExecutor) description
  | steps name description kids =>
      steps name description (wrapChildren stepExecutor kids)
  | parallel name description kids =>
      parallel name description (wrapChildren stepExecutor kids)
  | condition name description evaluator kids elseKids =>
      condition name description evaluator (wrapChildren stepExecutor kids)
        (wrapElse stepExecutor elseKids)
  | router name description selector choices =>
      router name description selector (wrapChildren stepExecutor choices)
  | loop name description kids maxIterations endCondition =>
      loop name description (wrapChildren stepExecutor kids) maxIterations endCondition

def wrapChildren (stepExecutor : O.StepExecutor) : List (BuiltStep O) → List (BuiltStep O)
  | [] => []
  | kid :: kids => wrapFunctions stepExecutor kid :: wrapChildren stepExecutor kids

def wrapElse (stepExecutor : O.StepExecutor) :
    Option (List (BuiltStep O)) → Option (List (BuiltStep O))
  | none => none
  | some kids => some (wrapChildren stepExecutor kids)

end

mutual

/-- The executors of all steps of a tree, at every depth, in order. -/
def executors : BuiltStep O → List (Executor O)
  | step _ executor _ => [executor]
  | steps _ _ kids => childExecutors kids
  | parallel _ _ kids => childExecutors kids
  | condition _ _ _ kids elseKids => childExecutors kids ++ elseExecutors elseKids
  | router _ _ _ choices => childExecutors choices
  | loop _ _ kids _ _ => childExecutors kids

def childExecutors : List (BuiltStep O) → List (Executor O)
  | [] => []
  | kid :: kids => executors kid ++ childExecutors kids

def elseExecutors : Option (List (BuiltStep O)) → List (Executor O)
  | none => []
  | some kids => childExecutors kids

end

@[simp] theorem wrapChildren_eq_map
    (stepExecutor : O.StepExecutor)
    (kids : List (BuiltStep O)) :
    wrapChildren stepExecutor kids = kids.map (wrapFunctions stepExecutor) := by
  induction kids with
  | nil =>
      rfl
  | cons kid kids ih =>
      simp only [wrapChildren, ih, List.map_cons]

@[simp] theorem wrapElse_eq_map
    (stepExecutor : O.StepExecutor)
    (elseKids : Option (List (BuiltStep O))) :
    wrapElse stepExecutor elseKids =
      elseKids.map (List.map (wrapFunctions stepExecutor)) := by
  cases elseKids with
  | none =>
      rfl
  | some kids =>
      simp only [wrapElse, wrapChildren_eq_map, Option.map_some]

theorem wrapFunctions_rename
    (stepExecutor : O.StepExecutor)
    (newName : String)
    (b : BuiltStep O) :
    (b.wrapFunctions stepExecutor).rename newName =
      (b.rename newName).wrapFunctions stepExecutor := by
  cases b <;> simp only [wrapFunctions, rename]

mutual

/-- Wrapping a tree wraps its executors and moves none of them. -/
theorem executors_wrapFunctions
    (stepExecutor : O.StepExecutor) :
    (b : BuiltStep O) →
    (b.wrapFunctions stepExecutor).executors =
      b.executors.map (Executor.wrapFunction stepExecutor)
  | step _ _ _ => rfl
  | steps _ _ kids => by
      simp only [wrapFunctions, executors, childExecutors_wrap stepExecutor kids]
  | parallel _ _ kids => by
      simp only [wrapFunctions, executors, childExecutors_wrap stepExecutor kids]
  | condition _ _ _ kids elseKids => by
      simp only [wrapFunctions, executors, childExecutors_wrap stepExecutor kids,
        elseExecutors_wrap stepExecutor elseKids, List.map_append]
  | router _ _ _ choices => by
      simp only [wrapFunctions, executors, childExecutors_wrap stepExecutor choices]
  | loop _ _ kids _ _ => by
      simp only [wrapFunctions, executors, childExecutors_wrap stepExecutor kids]

theorem childExecutors_wrap
    (stepExecutor : O.StepExecutor) :
    (kids : List (BuiltStep O)) →
    childExecutors (wrapChildren stepExecutor kids) =
      (childExecutors kids).map (Executor.wrapFunction stepExecutor)
  | [] => rfl
  | kid :: kids => by
      simp only [wrapChildren, childExecutors, executors_wrapFunctions stepExecutor kid,
        childExecutors_wrap stepExecutor kids, List.map_append]

theorem elseExecutors_wrap
    (stepExecutor : O.StepExecutor) :
    (elseKids : Option (List (BuiltStep O))) →
    elseExecutors (wrapElse stepExecutor elseKids) =
      (elseExecutors elseKids).map (Executor.wrapFunction stepExecutor)
  | none => rfl
  | some kids => by
      simp only [wrapElse, elseExecutors, childExecutors_wrap stepExecutor kids]

end

/-- The executor of a tree is its own, or one of a part. -/
theorem mem_executors_cases
    {b : BuiltStep O}
    {x : Executor O}
    (h : x ∈ b.executors) :
    (∃ name description, b = step name x description) ∨
      ∃ c, (c ∈ b.members ∨ c ∈ b.branches) ∧ x ∈ c.executors := by
  have hchild : ∀ kids : List (BuiltStep O), x ∈ childExecutors kids →
      ∃ c ∈ kids, x ∈ c.executors := by
    intro kids
    induction kids with
    | nil =>
        intro hx
        simp [childExecutors] at hx
    | cons kid kids ih =>
        intro hx
        rcases List.mem_append.mp hx with hx | hx
        · exact ⟨kid, List.mem_cons_self, hx⟩
        · obtain ⟨c, hc, hx⟩ := ih hx
          exact ⟨c, List.mem_cons_of_mem kid hc, hx⟩
  cases b with
  | step name executor description =>
      cases List.mem_singleton.mp h
      exact Or.inl ⟨name, description, rfl⟩
  | steps _ _ kids | parallel _ _ kids | loop _ _ kids _ _ =>
      obtain ⟨c, hc, hx⟩ := hchild kids h
      exact Or.inr ⟨c, Or.inl hc, hx⟩
  | router _ _ _ choices =>
      obtain ⟨c, hc, hx⟩ := hchild choices h
      exact Or.inr ⟨c, Or.inr (List.mem_append_right _ hc), hx⟩
  | condition _ _ _ kids elseKids =>
      rcases List.mem_append.mp h with hx | hx
      · obtain ⟨c, hc, hx⟩ := hchild kids hx
        exact Or.inr ⟨c, Or.inr (List.mem_append_left _ (List.mem_append_left _ hc)), hx⟩
      · cases elseKids with
        | none =>
            simp [elseExecutors] at hx
        | some elseKids =>
            obtain ⟨c, hc, hx⟩ := hchild elseKids hx
            exact Or.inr ⟨c, Or.inr (List.mem_append_left _ (List.mem_append_right _ hc)), hx⟩

end BuiltStep

/-- The same workflow, with every callable executor wrapped. -/
def BuiltWorkflow.wrapFunctions
    (stepExecutor : O.StepExecutor)
    (w : BuiltWorkflow O) :
    BuiltWorkflow O :=
  { w with steps := w.steps.map (BuiltStep.wrapFunctions stepExecutor) }

/-- The executors of all steps of a workflow, at every depth, in order. -/
def BuiltWorkflow.executors (w : BuiltWorkflow O) : List (Executor O) :=
  w.steps.flatMap BuiltStep.executors

theorem BuiltWorkflow.executors_wrapFunctions
    (stepExecutor : O.StepExecutor)
    (w : BuiltWorkflow O) :
    (w.wrapFunctions stepExecutor).executors =
      w.executors.map (Executor.wrapFunction stepExecutor) := by
  simp only [BuiltWorkflow.executors, BuiltWorkflow.wrapFunctions, List.flatMap_map,
    List.map_flatMap, BuiltStep.executors_wrapFunctions]

/-! ## Threading the step executor -/

/-- `build(..., step_executor=...)`. -/
def Registries.withStepExecutor
    (R : Registries O)
    (stepExecutor : Option O.StepExecutor) :
    Registries O :=
  { R with stepExecutor := stepExecutor }

def BuildContext.withStepExecutor
    (ctx : BuildContext O)
    (stepExecutor : Option O.StepExecutor) :
    BuildContext O :=
  { ctx with stepExecutor := stepExecutor }

theorem context_withStepExecutor
    (R : Registries O)
    (stepExecutor : Option O.StepExecutor)
    (cfg : WorkflowConfig) :
    (R.withStepExecutor stepExecutor).context cfg =
      (R.context cfg).withStepExecutor stepExecutor := by
  rfl

section Frame

variable (ctx : BuildContext O) (stepExecutor : Option O.StepExecutor)

/-! Nothing else that a builder asks of its context depends on the step executor. -/

@[simp] theorem resolveCallableOrCel_with
    (value : String) :
    resolveCallableOrCel (ctx.withStepExecutor stepExecutor) value =
      resolveCallableOrCel ctx value := by
  rfl

@[simp] theorem resolveSlot_with
    (value : Option String) :
    resolveSlot (ctx.withStepExecutor stepExecutor) value = resolveSlot ctx value := by
  rfl

@[simp] theorem parseNested_with
    (raw : PyDict) :
    parseNested (ctx.withStepExecutor stepExecutor) raw = parseNested ctx raw := by
  rfl

@[simp] theorem branchTarget_with
    (ref : Option String) :
    branchTarget (ctx.withStepExecutor stepExecutor) ref = branchTarget ctx ref := by
  rfl

@[simp] theorem caseTargets_with
    (s : StepConfig) :
    caseTargets (ctx.withStepExecutor stepExecutor) s = caseTargets ctx s := by
  rfl

end Frame

section Builders

variable (ctx : BuildContext O) (stepExecutor : O.StepExecutor)

/-- The one place that looks at the step executor. -/
theorem buildStepExecutor_with
    (s : StepConfig) :
    buildStepExecutor (ctx.withStepExecutor (some stepExecutor)) s =
      (buildStepExecutor (ctx.withStepExecutor none) s).map
        (BuiltStep.wrapFunctions stepExecutor) := by
  unfold buildStepExecutor
  cases s.agent with
  | some agent =>
      simp only [BuildContext.withStepExecutor]
      cases ctx.agents agent <;> rfl
  | none =>
  cases s.team with
  | some team =>
      simp only [BuildContext.withStepExecutor]
      cases ctx.teams team <;> rfl
  | none =>
  cases s.function with
  | some function =>
      simp only [resolveCallableOrCel_with]
      rcases resolveCallableOrCel ctx function with _ | _ | _
      all_goals rfl
  | none =>
      cases s.workflow <;> rfl

variable (build : StepConfig → Attempt BuildError (BuiltStep O))

theorem buildNested_with
    (s : StepConfig) :
    buildNested (ctx.withStepExecutor (some stepExecutor))
        (fun t => BuiltStep.wrapFunctions stepExecutor <$> build t) s =
      List.map (BuiltStep.wrapFunctions stepExecutor) <$>
        buildNested (ctx.withStepExecutor none) build s := by
  unfold buildNested
  rw [← mapM_map_result]
  congr 1
  funext raw
  simp only [parseNested_with, map_bind]

theorem buildConditionGroup_with
    (s : StepConfig) :
    buildConditionGroup (ctx.withStepExecutor (some stepExecutor))
        (fun t => BuiltStep.wrapFunctions stepExecutor <$> build t) s =
      BuiltStep.wrapFunctions stepExecutor <$>
        buildConditionGroup (ctx.withStepExecutor none) build s := by
  simp only [buildConditionGroup, branchTarget_with, resolveSlot_with]
  cases branchTarget ctx s.ifTrue with
  | none =>
      cases branchTarget ctx s.ifFalse <;>
        simp [BuiltStep.wrapFunctions]
  | some target =>
      cases branchTarget ctx s.ifFalse <;>
        simp [BuiltStep.wrapFunctions]

theorem buildRouterGroup_with
    (s : StepConfig) :
    buildRouterGroup (ctx.withStepExecutor (some stepExecutor))
        (fun t => BuiltStep.wrapFunctions stepExecutor <$> build t) s =
      BuiltStep.wrapFunctions stepExecutor <$>
        buildRouterGroup (ctx.withStepExecutor none) build s := by
  have hchoice : ∀ case : String × StepConfig,
      (do
        let builtChoice ← BuiltStep.wrapFunctions stepExecutor <$> build case.2
        pure (builtChoice.rename case.1)) =
      BuiltStep.wrapFunctions stepExecutor <$> (do
        let builtChoice ← build case.2
        pure (builtChoice.rename case.1)) := by
    intro case
    simp [BuiltStep.wrapFunctions_rename]
  simp only [buildRouterGroup, hchoice, resolveSlot_with, caseTargets_with, mapM_map_result]
  simp [BuiltStep.wrapFunctions]

theorem buildLoopGroup_with
    (s : StepConfig) :
    buildLoopGroup (ctx.withStepExecutor (some stepExecutor))
        (fun t => BuiltStep.wrapFunctions stepExecutor <$> build t) s =
      BuiltStep.wrapFunctions stepExecutor <$>
        buildLoopGroup (ctx.withStepExecutor none) build s := by
  simp [buildLoopGroup, buildNested_with, BuiltStep.wrapFunctions]

/-- Every builder hands the step executor on to the builds it starts. -/
theorem buildStepWith_with
    (s : StepConfig) :
    buildStepWith (ctx.withStepExecutor (some stepExecutor))
        (fun t => BuiltStep.wrapFunctions stepExecutor <$> build t) s =
      BuiltStep.wrapFunctions stepExecutor <$>
        buildStepWith (ctx.withStepExecutor none) build s := by
  unfold buildStepWith
  cases s.type with
  | step | function =>
      simp only [buildStepExecutor_with, ofExcept_map]
  | workflow =>
      rfl
  | steps =>
      simp [buildStepsGroup, buildNested_with, BuiltStep.wrapFunctions]
  | parallel =>
      simp [buildParallelGroup, buildNested_with, BuiltStep.wrapFunctions]
  | condition =>
      exact buildConditionGroup_with ctx stepExecutor build s
  | router =>
      exact buildRouterGroup_with ctx stepExecutor build s
  | loop =>
      exact buildLoopGroup_with ctx stepExecutor build s

theorem buildStep_with
    (depth : ℕ)
    (s : StepConfig) :
    buildStep (ctx.withStepExecutor (some stepExecutor)) depth s =
      BuiltStep.wrapFunctions stepExecutor <$>
        buildStep (ctx.withStepExecutor none) depth s := by
  induction depth generalizing s with
  | zero =>
      rfl
  | succ depth ih =>
      have hrec :
          buildStep (ctx.withStepExecutor (some stepExecutor)) depth =
            fun t => BuiltStep.wrapFunctions stepExecutor <$>
              buildStep (ctx.withStepExecutor none) depth t :=
        funext ih
      simp only [buildStep, hrec, buildStepWith_with]

end Builders

/-- A build with a step executor is the build without one, wrapped; errors stay. -/
theorem build_withStepExecutor
    (R : Registries O)
    (stepExecutor : O.StepExecutor)
    (depth : ℕ)
    (cfg : WorkflowConfig) :
    build (R.withStepExecutor (some stepExecutor)) depth cfg =
      BuiltWorkflow.wrapFunctions stepExecutor <$>
        build (R.withStepExecutor none) depth cfg := by
  have hstep : buildStep ((R.context cfg).withStepExecutor (some stepExecutor)) depth =
      fun s => BuiltStep.wrapFunctions stepExecutor <$>
        buildStep ((R.context cfg).withStepExecutor none) depth s :=
    funext (buildStep_with (R.context cfg) stepExecutor depth)
  simp only [build, context_withStepExecutor, hstep, mapM_map_result]
  simp [BuiltWorkflow.wrapFunctions]

/-! ## The executors of a built workflow -/

section Sources

variable {R : Registries O} {cfg : WorkflowConfig}

/-- The executor of a plain step is what its own step names. -/
theorem BuiltAs.executorOf_step
    {s : StepConfig}
    {name : String}
    {x : Executor O}
    {description : Option String}
    (h : BuiltAs R cfg s (.step name x description)) :
    ExecutorOf (R.context cfg) s x := by
  have hkind := h.kind_eq
  obtain ⟨b, hb, hsame⟩ := h
  have ht : s.type = .step ∨ s.type = .function := by
    cases htype : s.type
    all_goals simp [htype, BuiltStep.kind, StepType.primitive] at hkind ⊢
  obtain ⟨executor, rfl, hof⟩ := hb.of_step ht
  obtain ⟨newName, hname⟩ := hsame
  cases hname
  exact hof

/-- Every executor of a built tree is what some step of the config names. -/
theorem BuiltAs.executorOf
    {s : StepConfig}
    {b : BuiltStep O}
    (h : BuiltAs R cfg s b)
    {x : Executor O}
    (hx : x ∈ b.executors) :
    ∃ t, ExecutorOf (R.context cfg) t x := by
  induction b using BuiltStep.induction_parts generalizing s with
  | h b hmembers hbranches =>
      rcases BuiltStep.mem_executors_cases hx with ⟨name, description, rfl⟩ | ⟨c, hc | hc, hxc⟩
      · exact ⟨s, h.executorOf_step⟩
      · obtain ⟨-, _, _, -, t, -, ht⟩ := h.nestedBuild_of_mem hc
        exact hmembers c hc (.of_buildsTo ht) hxc
      · obtain ⟨t, -, ht⟩ := h.of_mem_branches hc
        exact hbranches c hc ht hxc

/-- The build of `cfg` succeeds with `w`. -/
def Builds
    (R : Registries O)
    (cfg : WorkflowConfig)
    (w : BuiltWorkflow O) : Prop :=
  ∃ depth, build R depth cfg = returned w

theorem Builds.executorOf
    {w : BuiltWorkflow O}
    (h : Builds R cfg w)
    {x : Executor O}
    (hx : x ∈ w.executors) :
    ∃ t, ExecutorOf (R.context cfg) t x := by
  obtain ⟨depth, hbuild⟩ := h
  obtain ⟨b, hb, hxb⟩ := List.mem_flatMap.mp hx
  obtain ⟨_, s, -, hs⟩ := Paired.exists_of_mem_right (forall₂_of_build hbuild) hb
  exact (BuiltAs.of_buildsTo hs).executorOf hxb

/-- Without a step executor nothing is wrapped. -/
theorem Builds.resilient_not_mem
    {w : BuiltWorkflow O}
    (h : Builds (R.withStepExecutor none) cfg w)
    (stepExecutor : O.StepExecutor)
    (f : O.Callable) :
    .resilient stepExecutor f ∉ w.executors := by
  intro hmem
  obtain ⟨t, -, -, hsome, -⟩ := h.executorOf hmem
  cases hsome

/-- With a step executor no function is left unwrapped. -/
theorem Builds.callable_not_mem
    {stepExecutor : O.StepExecutor}
    {w : BuiltWorkflow O}
    (h : Builds (R.withStepExecutor (some stepExecutor)) cfg w)
    (f : O.Callable) :
    .callable f ∉ w.executors := by
  intro hmem
  obtain ⟨t, -, -, hnone, -⟩ := h.executorOf hmem
  cases hnone

theorem builds_withStepExecutor_iff
    (R : Registries O)
    (stepExecutor : O.StepExecutor)
    (cfg : WorkflowConfig)
    (w' : BuiltWorkflow O) :
    Builds (R.withStepExecutor (some stepExecutor)) cfg w' ↔
      ∃ w, Builds (R.withStepExecutor none) cfg w ∧ w' = w.wrapFunctions stepExecutor := by
  simp only [Builds, build_withStepExecutor, map_eq_returned_iff]
  constructor
  · rintro ⟨depth, w, hw, rfl⟩
    exact ⟨w, ⟨depth, hw⟩, rfl⟩
  · rintro ⟨w, ⟨depth, hw⟩, rfl⟩
    exact ⟨depth, w, hw, rfl⟩

/--
The builds with a step executor are the builds without one, with the callable
executors wrapped: the same executors in the same places, no function unwrapped
and nothing else wrapped.  Every step of the workflow, at any depth, has the
executor that its own step of the config names, and the wrapper runs the wrapped
callable through `execute_step`.
-/
theorem step_executor_wraps_functions
    {M : Type → Type} [Monad M] {Input Value : Type}
    (I : Interpreter O M Input Value)
    (R : Registries O)
    (stepExecutor : O.StepExecutor)
    (cfg : WorkflowConfig) :
    (∀ w', Builds (R.withStepExecutor (some stepExecutor)) cfg w' ↔
      ∃ w, Builds (R.withStepExecutor none) cfg w ∧ w' = w.wrapFunctions stepExecutor) ∧
    (∀ w, Builds (R.withStepExecutor none) cfg w →
      (w.wrapFunctions stepExecutor).executors =
          w.executors.map (Executor.wrapFunction stepExecutor) ∧
        ∀ stepExecutor' f, .resilient stepExecutor' f ∉ w.executors) ∧
    (∀ w', Builds (R.withStepExecutor (some stepExecutor)) cfg w' →
      (∀ f, .callable f ∉ w'.executors) ∧
        ∀ path s name x description,
          NodeAt (R.withStepExecutor (some stepExecutor)) cfg w' path s
              (.step name x description) →
            ExecutorOf ((R.withStepExecutor (some stepExecutor)).context cfg) s x) ∧
    ∀ f input,
      I.resilientExecutor stepExecutor f input = I.executeStep stepExecutor (I.run f input) := by
  refine ⟨builds_withStepExecutor_iff R stepExecutor cfg, fun w hw => ?_, fun w' hw' => ?_,
    I.resilientExecutor_eq stepExecutor⟩
  · exact ⟨w.executors_wrapFunctions stepExecutor, hw.resilient_not_mem⟩
  · refine ⟨hw'.callable_not_mem, ?_⟩
    intro path s name x description hnode
    obtain ⟨depth, hbuild⟩ := hw'
    exact (hnode.builtAs hbuild).executorOf_step

end Sources

end Workflow
end YamlAgno

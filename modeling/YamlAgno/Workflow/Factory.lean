import YamlAgno.Library.Attempt
import YamlAgno.Workflow.Config
import Mathlib.Data.PNat.Basic

/-!
# The workflow factory

`buildStep` translates one `StepConfig` into its workflow primitive: steps with
an executor directly, the five composite types through a builder each, which
come back to `buildStep` for nested entries and for referenced steps.  The
recursion descends through nested raw steps and jumps through the step index,
so it is given a depth; its result is an `Attempt`.

Agents, teams and callables are never looked into.  The reading of scalars and
the test that tells CEL expressions from identifiers belong to other packages and
are given with the registries.
-/

namespace YamlAgno
namespace Workflow

/-- The objects a build only passes on. -/
structure Objects where
  Agent : Type
  Team : Type
  Callable : Type
  StepExecutor : Type

/-- What a callable-or-CEL string stands for. -/
inductive CallableOrCel (F : Type) where
  | callable (f : F)
  | cel (expression : String)
deriving DecidableEq

/-- The executor slot of a built step. -/
inductive Executor (O : Objects) where
  | agent (agent : O.Agent)
  | team (team : O.Team)
  | callable (f : O.Callable)
  | resilient (stepExecutor : O.StepExecutor) (f : O.Callable)

/-- The built workflow primitives. -/
inductive BuiltStep (O : Objects) where
  | step (name : String) (executor : Executor O) (description : Option String)
  | steps (name : String) (description : Option String) (steps : List (BuiltStep O))
  | parallel (name : String) (description : Option String) (steps : List (BuiltStep O))
  | condition (name : String) (description : Option String)
      (evaluator : Option (CallableOrCel O.Callable))
      (steps : List (BuiltStep O)) (elseSteps : Option (List (BuiltStep O)))
  | router (name : String) (description : Option String)
      (selector : Option (CallableOrCel O.Callable)) (choices : List (BuiltStep O))
  | loop (name : String) (description : Option String) (steps : List (BuiltStep O))
      (maxIterations : ℕ+) (endCondition : Option (CallableOrCel O.Callable))

/-- The assembled workflow. -/
structure BuiltWorkflow (O : Objects) where
  name : String
  description : Option String
  steps : List (BuiltStep O)

namespace BuiltStep

variable {O : Objects}

def name : BuiltStep O → String
  | step name _ _ => name
  | steps name _ _ => name
  | parallel name _ _ => name
  | condition name _ _ _ _ => name
  | router name _ _ _ => name
  | loop name _ _ _ _ => name

/-- `built.name = name`. -/
def rename (newName : String) : BuiltStep O → BuiltStep O
  | step _ executor description => step newName executor description
  | steps _ description kids => steps newName description kids
  | parallel _ description kids => parallel newName description kids
  | condition _ description evaluator kids elseKids =>
      condition newName description evaluator kids elseKids
  | router _ description selector choices => router newName description selector choices
  | loop _ description kids maxIterations endCondition =>
      loop newName description kids maxIterations endCondition

@[simp] theorem name_rename
    (newName : String)
    (b : BuiltStep O) :
    (b.rename newName).name = newName := by
  cases b <;> rfl

end BuiltStep

/-! ## Errors -/

/-- One constructor for each place where the factory raises. -/
inductive BuildError where
  | agentNotFound (agent step : String)
  | teamNotFound (team step : String)
  | celExecutor (step function : String)
  | noExecutorSource (step : String)
  | unresolvableCallable (value : String)
  | invalidStep (error : ValidationError)
  | nestedWorkflow (step : String)
  | workflowExecutor (step workflow : String)
deriving DecidableEq

/-- The exception classes the factory documents. -/
inductive ErrorClass where
  | valueError
  | notImplementedError
deriving DecidableEq

namespace BuildError

/-- Exception class of an error; a validation error is a `ValueError`. -/
def errorClass : BuildError → ErrorClass
  | agentNotFound _ _ => .valueError
  | teamNotFound _ _ => .valueError
  | celExecutor _ _ => .valueError
  | noExecutorSource _ => .valueError
  | unresolvableCallable _ => .valueError
  | invalidStep _ => .valueError
  | nestedWorkflow _ => .notImplementedError
  | workflowExecutor _ _ => .notImplementedError

/-- Text of an error, given how strings are quoted.  The text for a refused field
is the schema library's. -/
def message (repr : String → String) : BuildError → Option String
  | agentNotFound agent step =>
      some ("Agent not found: " ++ repr agent ++ " (step " ++ repr step ++ "). " ++
        "Check the 'agents:' section of your YAML.")
  | teamNotFound team step =>
      some ("Team not found: " ++ repr team ++ " (step " ++ repr step ++ "). " ++
        "Check the 'teams:' section of your YAML.")
  | celExecutor step function =>
      some ("Step " ++ repr step ++ " has function=" ++ repr function ++ " " ++
        "which looks like a CEL expression, but Step.executor " ++
        "requires a callable. Register the callable under a simple " ++
        "name (no dots/operators) or use a Condition/Router/Loop.")
  | noExecutorSource step =>
      some ("Step " ++ repr step ++ " (type=Step) has no executor source: " ++
        "set exactly one of 'agent', 'team', 'function', or 'workflow'.")
  | unresolvableCallable value =>
      some ("Unresolvable callable reference: " ++ repr value ++ ". " ++
        "Register it in the callables map.")
  | invalidStep (.model message) => some message
  | invalidStep .field => none
  | nestedWorkflow step =>
      some ("Step " ++ repr step ++ " has type=Workflow (nested workflow " ++
        "executor). Nested-workflow resolution is not implemented in " ++
        "slice #4; it requires a registry of pre-built Workflow " ++
        "objects or recursive WorkflowConfig resolution. See SPEC_01 " ++
        "slice #4 follow-up.")
  | workflowExecutor step workflow =>
      some ("Step " ++ repr step ++ " references workflow " ++
        repr workflow ++ " as an executor. Nested-workflow " ++
        "resolution is not implemented in slice #4.")

end BuildError

/-! ## The builder -/

/-- The registries, the optional step executor, and the two outside functions that
a build calls. -/
structure Registries (O : Objects) where
  coercions : Coercions
  isCelExpression : String → Bool
  agents : String → Option O.Agent
  teams : String → Option O.Team
  callables : String → Option O.Callable
  stepExecutor : Option O.StepExecutor

/-- What every builder is given: the registries and the step index. -/
structure BuildContext (O : Objects) extends Registries O where
  stepIndex : String → Option StepConfig

open Attempt

variable {O : Objects} (ctx : BuildContext O)

/-- A simple identifier is looked up; a CEL expression passes through. -/
def resolveCallableOrCel
    (value : String) :
    Except BuildError (CallableOrCel O.Callable) :=
  if ctx.isCelExpression value then
    .ok (.cel value)
  else
    match ctx.callables value with
    | none => .error (.unresolvableCallable value)
    | some f => .ok (.callable f)

/-- An expression slot that may be left empty. -/
def resolveSlot :
    Option String → Except BuildError (Option (CallableOrCel O.Callable))
  | none => .ok none
  | some value => (resolveCallableOrCel ctx value).map some

/-- A step from the first available executor source. -/
def buildStepExecutor
    (s : StepConfig) :
    Except BuildError (BuiltStep O) :=
  match s.agent with
  | some agent =>
      match ctx.agents agent with
      | none => .error (.agentNotFound agent s.step)
      | some a => .ok (.step s.step (.agent a) s.description)
  | none =>
  match s.team with
  | some team =>
      match ctx.teams team with
      | none => .error (.teamNotFound team s.step)
      | some t => .ok (.step s.step (.team t) s.description)
  | none =>
  match s.function with
  | some function =>
      match resolveCallableOrCel ctx function with
      | .error error => .error error
      | .ok (.cel _) => .error (.celExecutor s.step function)
      | .ok (.callable f) =>
          match ctx.stepExecutor with
          | none => .ok (.step s.step (.callable f) s.description)
          | some stepExecutor => .ok (.step s.step (.resilient stepExecutor f) s.description)
  | none =>
  match s.workflow with
  | some workflow => .error (.workflowExecutor s.step workflow)
  | none => .error (.noExecutorSource s.step)

/-- `StepConfig(**raw)`, with a refusal as the factory's error. -/
def parseNested
    (raw : PyDict) :
    Except BuildError StepConfig :=
  (StepConfig.parse ctx.coercions raw).mapError .invalidStep

/-- `ref and ref in step_index`, and the step it names. -/
def branchTarget
    (ref : Option String) :
    Option StepConfig :=
  match ref with
  | none => none
  | some id => if id = "" then none else ctx.stepIndex id

/-- The cases whose step id is in the index, with the step. -/
def caseTargets
    (s : StepConfig) :
    List (String × StepConfig) :=
  s.cases.filterMap fun case => (ctx.stepIndex case.2).map fun referenced => (case.1, referenced)

section Groups

variable (build : StepConfig → Attempt BuildError (BuiltStep O))

/-- Reads and builds the nested steps, one after the other. -/
def buildNested
    (s : StepConfig) :
    Attempt BuildError (List (BuiltStep O)) :=
  s.steps.mapM fun raw => do
    build (← ofExcept (parseNested ctx raw))

def buildStepsGroup
    (s : StepConfig) :
    Attempt BuildError (BuiltStep O) := do
  let nested ← buildNested ctx build s
  return .steps s.step s.description nested

def buildParallelGroup
    (s : StepConfig) :
    Attempt BuildError (BuiltStep O) := do
  let built ← buildNested ctx build s
  return .parallel s.step s.description built

def buildConditionGroup
    (s : StepConfig) :
    Attempt BuildError (BuiltStep O) := do
  let ifSteps ←
    match branchTarget ctx s.ifTrue with
    | none => pure []
    | some target => do
        let built ← build target
        pure [built]
  let elseSteps ←
    match branchTarget ctx s.ifFalse with
    | none => pure none
    | some target => do
        let built ← build target
        pure (some [built])
  -- An evaluator left empty is the constant `True`.
  let evaluator ← ofExcept (resolveSlot ctx s.condition)
  return .condition s.step s.description evaluator ifSteps elseSteps

def buildRouterGroup
    (s : StepConfig) :
    Attempt BuildError (BuiltStep O) := do
  let choices ← (caseTargets ctx s).mapM fun case => do
    let builtChoice ← build case.2
    -- The selector returns case keys, so the choice is named by its key.
    pure (builtChoice.rename case.1)
  let selector ← ofExcept (resolveSlot ctx s.expression)
  return .router s.step s.description selector choices

/-- The iterations of a loop that does not say how many. -/
def defaultMaxIterations : ℕ+ := 3

def buildLoopGroup
    (s : StepConfig) :
    Attempt BuildError (BuiltStep O) := do
  let nested ← buildNested ctx build s
  let endCondition ← ofExcept (resolveSlot ctx s.endCondition)
  return .loop s.step s.description nested (s.maxIterations.getD defaultMaxIterations) endCondition

/-- Dispatches a step to its builder, given a way to build other steps. -/
def buildStepWith
    (s : StepConfig) :
    Attempt BuildError (BuiltStep O) :=
  match s.type with
  | .step => ofExcept (buildStepExecutor ctx s)
  | .function => ofExcept (buildStepExecutor ctx s)
  | .workflow => raised (.nestedWorkflow s.step)
  | .steps => buildStepsGroup ctx build s
  | .parallel => buildParallelGroup ctx build s
  | .condition => buildConditionGroup ctx build s
  | .router => buildRouterGroup ctx build s
  | .loop => buildLoopGroup ctx build s

end Groups

/-- `WorkflowFactory._build_step`, to the given depth of recursion. -/
def buildStep : ℕ → StepConfig → Attempt BuildError (BuiltStep O)
  | 0, _ => exhausted
  | depth + 1, s => buildStepWith ctx (buildStep depth) s

/-- The context in which a config is built. -/
def Registries.context
    (R : Registries O)
    (cfg : WorkflowConfig) :
    BuildContext O :=
  { R with stepIndex := cfg.stepIndex }

/-- `WorkflowFactory.build`, to the given depth of recursion. -/
def build
    (R : Registries O)
    (depth : ℕ)
    (cfg : WorkflowConfig) :
    Attempt BuildError (BuiltWorkflow O) := do
  let builtSteps ← cfg.steps.mapM (buildStep (R.context cfg) depth)
  return { name := cfg.name, description := cfg.description, steps := builtSteps }

/-! ## A small set of registries -/

/-- Objects of which there is one of each kind. -/
abbrev plainObjects : Objects where
  Agent := Unit
  Team := Unit
  Callable := Unit
  StepExecutor := Unit

/-- One agent `worker` and one callable `check`; whatever is not an identifier is CEL. -/
def plainRegistries : Registries plainObjects where
  coercions := Coercions.exact
  isCelExpression value := !(value.toList.all fun c => c.isAlphanum || c == '_')
  agents name := if name = "worker" then some () else none
  teams _ := none
  callables name := if name = "check" then some () else none
  stepExecutor := none

end Workflow
end YamlAgno

import YamlAgno.Workflow.Execution

/-!
# What a workflow file means

The runs of a config, read off the file alone: a pipeline and a loop run their nested
steps in order, a parallel group side by side, a condition the step that its answer
refers to, a router the step of one of its cases.  Executors and expressions are what the
registries have under their names, and a reference stands for the top-level step it
names, however often it is followed.  A run can go through references that lead in a
circle, as long as it leaves it.  A condition's own nested `steps` are no part of this
meaning: only `if_true` and `if_false` are read, as in the factory.

An `Observation` shows all that a primitive was given: its place, name and description,
its executor, and the expression by which a condition, a router or a loop goes on, with
the branch it takes.  `runs_of_build` says that the factory keeps this meaning: a workflow
that is built has exactly the runs of its config.
-/

namespace YamlAgno
namespace Workflow

open Attempt TraceSets

variable {O : Objects}

/-- What a primitive is given to do. -/
inductive Job (O : Objects) where
  | execute (executor : Executor O)
  | inOrder
  | sideBySide
  | decide (evaluator : Option (CallableOrCel O.Callable))
  | select (selector : Option (CallableOrCel O.Callable))
  | iterate (maxIterations : ℕ+) (endCondition : Option (CallableOrCel O.Callable))

/-- A step of a run: a primitive starts, a condition answers, a router picks a case. -/
inductive Observation (O : Objects) where
  | starts (place : Place) (name : String) (description : Option String) (job : Job O)
  | takes (answer : Bool)
  | picks (choice : String)

/-- Sets of runs. -/
abbrev RunSet (O : Objects) := Set (List (Observation O))

/-! ## Runs of a built workflow -/

namespace BuiltStep

mutual

/-- The runs of a primitive in the given place. -/
def runs (place : Place) : BuiltStep O → RunSet O
  | step name executor description => {[.starts place name description (.execute executor)]}
  | steps name description kids =>
      after (.starts place name description .inOrder) (seq (childRuns .member kids))
  | parallel name description kids =>
      after (.starts place name description .sideBySide) (par (childRuns .member kids))
  | condition name description none kids _ =>
      after (.starts place name description (.decide none))
        (after (.takes true) (seq (childRuns .branch kids)))
  | condition name description (some evaluator) kids elseKids =>
      after (.starts place name description (.decide (some evaluator)))
        (after (.takes true) (seq (childRuns .branch kids)) ∪
          after (.takes false) (seq (elseRuns elseKids)))
  | router name description selector choices =>
      after (.starts place name description (.select selector)) (oneOf (choiceRuns choices))
  | loop name description kids maxIterations endCondition =>
      after (.starts place name description (.iterate maxIterations endCondition))
        (repeated (seq (childRuns .member kids)) maxIterations)

def childRuns (place : Place) : List (BuiltStep O) → List (RunSet O)
  | [] => []
  | kid :: kids => runs place kid :: childRuns place kids

def elseRuns : Option (List (BuiltStep O)) → List (RunSet O)
  | none => []
  | some kids => childRuns .branch kids

def choiceRuns : List (BuiltStep O) → List (RunSet O)
  | [] => []
  | choice :: choices => after (.picks choice.name) (runs .branch choice) :: choiceRuns choices

end

theorem childRuns_eq_map
    (place : Place)
    (kids : List (BuiltStep O)) :
    childRuns place kids = kids.map (runs place) := by
  induction kids with
  | nil =>
      rfl
  | cons kid kids ih =>
      simp only [childRuns, ih, List.map_cons]

/-- A missing else-branch holds nothing. -/
theorem elseRuns_eq_childRuns
    (elseKids : Option (List (BuiltStep O))) :
    elseRuns elseKids = childRuns .branch (elseKids.getD []) := by
  cases elseKids <;> rfl

theorem choiceRuns_eq_map
    (choices : List (BuiltStep O)) :
    choiceRuns choices = choices.map fun c => after (.picks c.name) (c.runs .branch) := by
  induction choices with
  | nil =>
      rfl
  | cons choice choices ih =>
      simp only [choiceRuns, ih, List.map_cons]

theorem rename_name
    (b : BuiltStep O) :
    b.rename b.name = b := by
  cases b <;> rfl

end BuiltStep

/-- The runs of a built workflow. -/
def BuiltWorkflow.runs (w : BuiltWorkflow O) : RunSet O :=
  seq (w.steps.map (BuiltStep.runs .topLevel))

/-! ## Runs of a config -/

section Source

variable (ctx : BuildContext O)

section Dispatch

variable (runs : Place → String → StepConfig → RunSet O)

/-- A nested step runs as a member, under its own id. -/
def rawRuns (raw : PyDict) : RunSet O :=
  {run | ∃ t, parseNested ctx raw = .ok t ∧ run ∈ runs .member t.step t}

/-- A reference runs the step it names, as a branch; one that names nothing runs nothing. -/
def targetRuns (ref : Option String) : RunSet O :=
  match branchTarget ctx ref with
  | none => {[]}
  | some target => runs .branch target.step target

/-- Without a condition the answer is always true. -/
def answerRuns
    (s : StepConfig)
    (evaluator : Option (CallableOrCel O.Callable)) :
    RunSet O :=
  match evaluator with
  | none => after (.takes true) (targetRuns ctx runs s.ifTrue)
  | some _ =>
      after (.takes true) (targetRuns ctx runs s.ifTrue) ∪
        after (.takes false) (targetRuns ctx runs s.ifFalse)

/-- The runs of a step in a place and under a name, given those of the steps it refers to.
The nested `steps` of a condition or a router are left out. -/
def stepRunsWith
    (place : Place)
    (name : String)
    (s : StepConfig) :
    RunSet O :=
  let starting := Observation.starts place name s.description
  match s.type with
  | .step | .function =>
      {run | ∃ executor, ExecutorOf ctx s executor ∧ run = [starting (.execute executor)]}
  | .workflow => ∅
  | .steps => after (starting .inOrder) (seq (s.steps.map (rawRuns ctx runs)))
  | .parallel => after (starting .sideBySide) (par (s.steps.map (rawRuns ctx runs)))
  | .condition =>
      {run | ∃ evaluator, resolveSlot ctx s.condition = .ok evaluator ∧
        run ∈ after (starting (.decide evaluator)) (answerRuns ctx runs s evaluator)}
  | .router =>
      {run | ∃ selector, resolveSlot ctx s.expression = .ok selector ∧
        run ∈ after (starting (.select selector))
          (oneOf ((caseTargets ctx s).map fun case =>
            after (.picks case.1) (runs .branch case.1 case.2)))}
  | .loop =>
      let most := s.maxIterations.getD defaultMaxIterations
      {run | ∃ endCondition, resolveSlot ctx s.endCondition = .ok endCondition ∧
        run ∈ after (starting (.iterate most endCondition))
          (repeated (seq (s.steps.map (rawRuns ctx runs))) most)}

end Dispatch

/-- The runs of a step that go no deeper than `depth` through nested steps and references. -/
def stepRuns : ℕ → Place → String → StepConfig → RunSet O
  | 0, _, _, _ => ∅
  | depth + 1, place, name, s => stepRunsWith ctx (stepRuns depth) place name s

end Source

/-- The runs of a config: its top-level steps in order, at any depth. -/
def WorkflowConfig.runs
    (R : Registries O)
    (cfg : WorkflowConfig) :
    RunSet O :=
  {run | ∃ depth, run ∈ seq (cfg.steps.map fun s =>
    stepRuns (R.context cfg) depth .topLevel s.step s)}

/-! ## More depth, more runs -/

section Depth

variable {ctx : BuildContext O}

theorem rawRuns_subset
    {runs runs' : Place → String → StepConfig → RunSet O}
    (h : ∀ place name s, runs place name s ⊆ runs' place name s)
    (raw : PyDict) :
    rawRuns ctx runs raw ⊆ rawRuns ctx runs' raw := by
  rintro run ⟨t, ht, hrun⟩
  exact ⟨t, ht, h _ _ _ hrun⟩

theorem map_subset
    {α : Type*}
    {f g : α → RunSet O}
    (h : ∀ x, f x ⊆ g x)
    (xs : List α) :
    List.Forall₂ (fun T U => T ⊆ U) (xs.map f) (xs.map g) := by
  induction xs with
  | nil =>
      exact .nil
  | cons x xs ih =>
      exact .cons (h x) ih

theorem targetRuns_subset
    {runs runs' : Place → String → StepConfig → RunSet O}
    (h : ∀ place name s, runs place name s ⊆ runs' place name s)
    (ref : Option String) :
    targetRuns ctx runs ref ⊆ targetRuns ctx runs' ref := by
  unfold targetRuns
  split
  · exact subset_rfl
  · exact h _ _ _

theorem answerRuns_subset
    {runs runs' : Place → String → StepConfig → RunSet O}
    (h : ∀ place name s, runs place name s ⊆ runs' place name s)
    (s : StepConfig)
    (evaluator : Option (CallableOrCel O.Callable)) :
    answerRuns ctx runs s evaluator ⊆ answerRuns ctx runs' s evaluator := by
  cases evaluator with
  | none =>
      exact after_subset (targetRuns_subset h _) _
  | some _ =>
      exact Set.union_subset_union (after_subset (targetRuns_subset h _) _)
        (after_subset (targetRuns_subset h _) _)

theorem stepRunsWith_subset
    {runs runs' : Place → String → StepConfig → RunSet O}
    (h : ∀ place name s, runs place name s ⊆ runs' place name s)
    (place : Place)
    (name : String)
    (s : StepConfig) :
    stepRunsWith ctx runs place name s ⊆ stepRunsWith ctx runs' place name s := by
  have hraw : ∀ raw, rawRuns ctx runs raw ⊆ rawRuns ctx runs' raw := rawRuns_subset h
  have hnested := map_subset hraw s.steps
  unfold stepRunsWith
  cases s.type with
  | step | function | workflow =>
      exact subset_rfl
  | steps =>
      exact after_subset (combine_subset hnested) _
  | parallel =>
      exact after_subset (combine_subset hnested) _
  | condition =>
      rintro run ⟨evaluator, hevaluator, hrun⟩
      exact ⟨evaluator, hevaluator, after_subset (answerRuns_subset h s evaluator) _ hrun⟩
  | router =>
      rintro run ⟨selector, hselector, hrun⟩
      refine ⟨selector, hselector, after_subset (oneOf_subset fun T hT => ?_) _ hrun⟩
      obtain ⟨case, hcase, rfl⟩ := List.mem_map.mp hT
      exact ⟨_, List.mem_map_of_mem hcase, after_subset (h _ _ _) _⟩
  | loop =>
      rintro run ⟨endCondition, hendCondition, hrun⟩
      exact ⟨endCondition, hendCondition,
        after_subset (repeated_subset (combine_subset hnested) _) _ hrun⟩

theorem stepRuns_subset_succ
    (depth : ℕ)
    (place : Place)
    (name : String)
    (s : StepConfig) :
    stepRuns ctx depth place name s ⊆ stepRuns ctx (depth + 1) place name s := by
  induction depth generalizing place name s with
  | zero =>
      exact Set.empty_subset _
  | succ depth ih =>
      exact stepRunsWith_subset ih place name s

theorem stepRuns_subset
    {m n : ℕ}
    (hmn : m ≤ n)
    (place : Place)
    (name : String)
    (s : StepConfig) :
    stepRuns ctx m place name s ⊆ stepRuns ctx n place name s := by
  induction hmn with
  | refl =>
      exact subset_rfl
  | step _ ih =>
      exact ih.trans (stepRuns_subset_succ _ place name s)

end Depth

/-! ## The factory keeps the runs -/

section Preservation

variable {ctx : BuildContext O} {depth : ℕ}

/-- The registries give a step one executor. -/
theorem ExecutorOf.unique
    {s : StepConfig}
    {e e' : Executor O}
    (h : ExecutorOf ctx s e)
    (h' : ExecutorOf ctx s e') :
    e = e' := by
  have hsame : ∀ {name name' : String} {f f' : O.Callable}, s.function = some name →
      s.function = some name' → resolveCallableOrCel ctx name = .ok (.callable f) →
      resolveCallableOrCel ctx name' = .ok (.callable f') → f = f' := by
    intro name name' f f' hname hname' hf hf'
    cases hname.symm.trans hname'
    cases hf.symm.trans hf'
    rfl
  cases e with
  | agent a =>
      obtain ⟨name, hname, ha⟩ := h
      cases e' with
      | agent a' =>
          obtain ⟨name', hname', ha'⟩ := h'
          cases hname.symm.trans hname'
          cases ha.symm.trans ha'
          rfl
      | team _ | callable _ | resilient _ _ =>
          cases h'.1.symm.trans hname
  | team t =>
      obtain ⟨hagent, name, hname, ht⟩ := h
      cases e' with
      | agent _ =>
          obtain ⟨name', hname', -⟩ := h'
          cases hagent.symm.trans hname'
      | team t' =>
          obtain ⟨-, name', hname', ht'⟩ := h'
          cases hname.symm.trans hname'
          cases ht.symm.trans ht'
          rfl
      | callable _ | resilient _ _ =>
          cases h'.2.1.symm.trans hname
  | callable f =>
      obtain ⟨hagent, hteam, hplain, name, hname, hf⟩ := h
      cases e' with
      | agent _ =>
          obtain ⟨name', hname', -⟩ := h'
          cases hagent.symm.trans hname'
      | team _ =>
          obtain ⟨-, name', hname', -⟩ := h'
          cases hteam.symm.trans hname'
      | callable f' =>
          obtain ⟨-, -, -, name', hname', hf'⟩ := h'
          rw [hsame hname hname' hf hf']
      | resilient _ _ =>
          cases hplain.symm.trans h'.2.2.1
  | resilient stepExecutor f =>
      obtain ⟨hagent, hteam, hwrapped, name, hname, hf⟩ := h
      cases e' with
      | agent _ =>
          obtain ⟨name', hname', -⟩ := h'
          cases hagent.symm.trans hname'
      | team _ =>
          obtain ⟨-, name', hname', -⟩ := h'
          cases hteam.symm.trans hname'
      | callable _ =>
          cases hwrapped.symm.trans h'.2.2.1
      | resilient stepExecutor' f' =>
          obtain ⟨-, -, hwrapped', name', hname', hf'⟩ := h'
          cases hwrapped.symm.trans hwrapped'
          rw [hsame hname hname' hf hf']

/-- A nested step is read and then built. -/
theorem buildNested_item_iff
    {build : StepConfig → Attempt BuildError (BuiltStep O)}
    {raw : PyDict}
    {b : BuiltStep O} :
    (ofExcept (parseNested ctx raw) >>= build) = returned b ↔
      ∃ t, parseNested ctx raw = .ok t ∧ build t = returned b := by
  cases parseNested ctx raw with
  | error error =>
      simp
  | ok t =>
      simp

/-- What the induction over the depth has shown of all steps. -/
def Kept (ctx : BuildContext O) (depth : ℕ) : Prop :=
  ∀ s b, buildStep ctx depth s = returned b → ∀ place name,
    stepRuns ctx depth place name s = (b.rename name).runs place

/-- A step that runs under its own id is built under it. -/
theorem Kept.own
    (h : Kept ctx depth)
    {s : StepConfig}
    {b : BuiltStep O}
    (hb : buildStep ctx depth s = returned b)
    (place : Place) :
    stepRuns ctx depth place s.step s = b.runs place := by
  have hname : b.name = s.step := (BuildsTo.name_kind ⟨depth, hb⟩).1
  rw [h s b hb place s.step, ← hname, BuiltStep.rename_name]

/-- Nested steps keep their runs, one by one. -/
theorem Kept.nested
    (h : Kept ctx depth)
    {s : StepConfig}
    {kids : List (BuiltStep O)}
    (hkids : buildNested ctx (buildStep ctx depth) s = returned kids) :
    s.steps.map (rawRuns ctx (stepRuns ctx depth)) = BuiltStep.childRuns .member kids := by
  rw [BuiltStep.childRuns_eq_map]
  have hall := mapM_eq_returned_iff.mp hkids
  generalize s.steps = raws at hall
  clear hkids
  induction hall with
  | nil =>
      rfl
  | @cons raw b raws kids hraw _ ih =>
      obtain ⟨t, ht, hb⟩ := buildNested_item_iff.mp hraw
      have hruns : rawRuns ctx (stepRuns ctx depth) raw = b.runs .member := by
        rw [← h.own hb]
        ext run
        constructor
        · rintro ⟨t', ht', hrun⟩
          rw [ht] at ht'
          cases ht'
          exact hrun
        · exact fun hrun => ⟨t, ht, hrun⟩
      rw [List.map_cons, List.map_cons, hruns, ih]

/-- What the builder of a condition has done: first the branches, then the evaluator. -/
theorem buildConditionGroup_eq_returned
    {build : StepConfig → Attempt BuildError (BuiltStep O)}
    {s : StepConfig}
    {b : BuiltStep O}
    (h : buildConditionGroup ctx build s = returned b) :
    ∃ evaluator ifSteps elseSteps, resolveSlot ctx s.condition = .ok evaluator ∧
      List.Forall₂ (fun t c => build t = returned c)
        (branchTarget ctx s.ifTrue).toList ifSteps ∧
      List.Forall₂ (fun t c => build t = returned c)
        (branchTarget ctx s.ifFalse).toList (elseSteps.getD []) ∧
      b = .condition s.step s.description evaluator ifSteps elseSteps := by
  unfold buildConditionGroup at h
  cases hif : branchTarget ctx s.ifTrue with
  | none =>
      cases helse : branchTarget ctx s.ifFalse with
      | none =>
          simp only [hif, helse, pure_bind] at h
          obtain ⟨evaluator, heval, h⟩ := bind_eq_returned_iff.mp h
          cases h
          exact ⟨evaluator, [], none, ofExcept_eq_returned_iff.mp heval, .nil, .nil, rfl⟩
      | some target =>
          simp only [hif, helse, pure_bind] at h
          obtain ⟨c, hc, h⟩ := bind_eq_returned_iff.mp h
          obtain ⟨evaluator, heval, h⟩ := bind_eq_returned_iff.mp h
          cases h
          exact ⟨evaluator, [], some [c], ofExcept_eq_returned_iff.mp heval, .nil,
            .cons hc .nil, rfl⟩
  | some target =>
      simp only [hif, pure_bind] at h
      obtain ⟨c, hc, h⟩ := bind_eq_returned_iff.mp h
      cases helse : branchTarget ctx s.ifFalse with
      | none =>
          simp only [helse] at h
          obtain ⟨evaluator, heval, h⟩ := bind_eq_returned_iff.mp h
          cases h
          exact ⟨evaluator, [c], none, ofExcept_eq_returned_iff.mp heval, .cons hc .nil,
            .nil, rfl⟩
      | some elseTarget =>
          simp only [helse] at h
          obtain ⟨d, hd, h⟩ := bind_eq_returned_iff.mp h
          obtain ⟨evaluator, heval, h⟩ := bind_eq_returned_iff.mp h
          cases h
          exact ⟨evaluator, [c], some [d], ofExcept_eq_returned_iff.mp heval, .cons hc .nil,
            .cons hd .nil, rfl⟩

/-- A reference runs what its branch is built of. -/
theorem Kept.target
    (h : Kept ctx depth)
    {ref : Option String}
    {kids : List (BuiltStep O)}
    (hkids : List.Forall₂ (fun t b => buildStep ctx depth t = returned b)
      (branchTarget ctx ref).toList kids) :
    targetRuns ctx (stepRuns ctx depth) ref = seq (BuiltStep.childRuns .branch kids) := by
  unfold targetRuns
  cases htarget : branchTarget ctx ref with
  | none =>
      rw [htarget] at hkids
      cases hkids
      rfl
  | some target =>
      rw [htarget] at hkids
      cases hkids with
      | cons hb hrest =>
          cases hrest
          exact (h.own hb .branch).trans (seq_singleton _).symm

/-- Choices keep the runs of their cases, under the case keys. -/
theorem Kept.choices
    (h : Kept ctx depth)
    {targets : List (String × StepConfig)}
    {choices : List (BuiltStep O)}
    (hchoices : (targets.mapM fun case => do
      let builtChoice ← buildStep ctx depth case.2
      pure (builtChoice.rename case.1)) = (returned choices : Attempt BuildError _)) :
    (targets.map fun case =>
        after (.picks case.1) (stepRuns ctx depth .branch case.1 case.2)) =
      BuiltStep.choiceRuns choices := by
  rw [BuiltStep.choiceRuns_eq_map]
  have hall := mapM_eq_returned_iff.mp hchoices
  clear hchoices
  induction hall with
  | nil =>
      rfl
  | @cons case c targets choices hcase _ ih =>
      obtain ⟨b, hb, hc⟩ := bind_eq_returned_iff.mp hcase
      cases hc
      rw [List.map_cons, List.map_cons, h _ b hb, BuiltStep.name_rename, ih]

/-- An expression slot that resolves has one value. -/
theorem runs_of_slot
    {value : Option String}
    {slot : Option (CallableOrCel O.Callable)}
    (h : resolveSlot ctx value = .ok slot)
    (runs : Option (CallableOrCel O.Callable) → RunSet O) :
    {run | ∃ slot, resolveSlot ctx value = .ok slot ∧ run ∈ runs slot} = runs slot := by
  ext run
  constructor
  · rintro ⟨slot', hslot', hrun⟩
    cases h.symm.trans hslot'
    exact hrun
  · exact fun hrun => ⟨slot, h, hrun⟩

/-- One more level of depth: a case for each type of step. -/
theorem kept_succ
    (h : Kept ctx depth) :
    Kept ctx (depth + 1) := by
  intro s b hb place name
  simp only [buildStep, buildStepWith] at hb
  simp only [stepRuns, stepRunsWith]
  cases ht : s.type with
  | step | function =>
      simp only [ht] at hb ⊢
      cases hexec : buildStepExecutor ctx s with
      | error error =>
          rw [hexec] at hb
          cases hb
      | ok built =>
          rw [hexec] at hb
          cases hb
          obtain ⟨executor, rfl, hof⟩ := buildStepExecutor_eq_ok hexec
          ext run
          constructor
          · rintro ⟨executor', hof', rfl⟩
            rw [hof'.unique hof]
            rfl
          · intro hrun
            exact ⟨executor, hof, hrun⟩
  | workflow =>
      simp only [ht] at hb
      cases hb
  | steps =>
      simp only [ht] at hb ⊢
      obtain ⟨kids, hkids, hb⟩ := bind_eq_returned_iff.mp hb
      cases hb
      rw [h.nested hkids]
      rfl
  | parallel =>
      simp only [ht] at hb ⊢
      obtain ⟨kids, hkids, hb⟩ := bind_eq_returned_iff.mp hb
      cases hb
      rw [h.nested hkids]
      rfl
  | loop =>
      simp only [ht] at hb ⊢
      obtain ⟨kids, hkids, hb⟩ := bind_eq_returned_iff.mp hb
      obtain ⟨endCondition, hend, hb⟩ := bind_eq_returned_iff.mp hb
      cases hb
      rw [runs_of_slot (ofExcept_eq_returned_iff.mp hend), h.nested hkids]
      rfl
  | router =>
      simp only [ht] at hb ⊢
      obtain ⟨choices, hchoices, hb⟩ := bind_eq_returned_iff.mp hb
      obtain ⟨selector, hselector, hb⟩ := bind_eq_returned_iff.mp hb
      cases hb
      rw [runs_of_slot (ofExcept_eq_returned_iff.mp hselector), h.choices hchoices]
      rfl
  | condition =>
      simp only [ht] at hb ⊢
      obtain ⟨evaluator, ifSteps, elseSteps, hevaluator, hif, helse, rfl⟩ :=
        buildConditionGroup_eq_returned hb
      rw [runs_of_slot hevaluator]
      cases evaluator with
      | none =>
          rw [answerRuns, h.target hif]
          rfl
      | some evaluator =>
          rw [answerRuns, h.target hif, h.target helse, ← BuiltStep.elseRuns_eq_childRuns]
          rfl

theorem kept (ctx : BuildContext O) (depth : ℕ) :
    Kept ctx depth := by
  induction depth with
  | zero =>
      intro s b hb
      cases hb
  | succ depth ih =>
      exact kept_succ ih

end Preservation

/-- More depth does not change a workflow that is built. -/
theorem build_of_le
    {R : Registries O}
    {cfg : WorkflowConfig}
    {w : BuiltWorkflow O}
    {m n : ℕ}
    (h : build R m cfg = returned w)
    (hmn : m ≤ n) :
    build R n cfg = returned w := by
  have hbelow : Below (build R m cfg) (build R n cfg) := by
    rw [build_eq_walkList, build_eq_walkList]
    exact (Plan.walkList_below _ hmn _).bind fun _ => Below.refl _
  have hne : build R m cfg ≠ exhausted := by simp [h]
  rw [← hbelow.eq_of_ne hne, h]

/-- At a depth at which the workflow is built, its runs are those of the config. -/
theorem runs_at_depth
    {R : Registries O}
    {cfg : WorkflowConfig}
    {w : BuiltWorkflow O}
    {depth : ℕ}
    (h : build R depth cfg = returned w) :
    (cfg.steps.map fun s => stepRuns (R.context cfg) depth .topLevel s.step s) =
      w.steps.map (BuiltStep.runs .topLevel) := by
  obtain ⟨builtSteps, hsteps, hw⟩ := bind_eq_returned_iff.mp h
  cases hw
  have hall := mapM_eq_returned_iff.mp hsteps
  generalize R.context cfg = ctx at hall
  generalize cfg.steps = steps at hall
  clear h hsteps
  induction hall with
  | nil =>
      rfl
  | @cons s b _ _ hb _ ih =>
      rw [List.map_cons, List.map_cons, (kept ctx depth).own hb, ih]

/-- A workflow that is built runs as its config says, and in no other way. -/
theorem runs_of_build
    (R : Registries O)
    (cfg : WorkflowConfig)
    (w : BuiltWorkflow O)
    (depth : ℕ)
    (h : build R depth cfg = returned w) :
    w.runs = cfg.runs R := by
  ext run
  constructor
  · intro hrun
    refine ⟨depth, ?_⟩
    rwa [runs_at_depth h]
  · rintro ⟨depth', hrun⟩
    have hmore := runs_at_depth (build_of_le h (Nat.le_max_left depth depth'))
    rw [BuiltWorkflow.runs, ← hmore]
    exact combine_subset (map_subset (fun s =>
      stepRuns_subset (Nat.le_max_right depth depth') .topLevel s.step s) cfg.steps) hrun

/-- A condition and the step it names, built from two levels of the file. -/
theorem runs_of_build_gated :
    (⟨"gated", none, [.condition "gate" none none [.step "work" (.agent ()) none] none,
        .step "work" (.agent ()) none]⟩ : BuiltWorkflow plainObjects).runs =
      gatedConfig.runs plainRegistries :=
  runs_of_build plainRegistries gatedConfig _ 2 rfl

end Workflow
end YamlAgno

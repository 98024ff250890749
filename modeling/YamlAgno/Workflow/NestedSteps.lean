import YamlAgno.Workflow.BuiltTree

/-!
# Nested steps and branch references in the built tree

A position in a config is a path of indices through nested `steps`
(`ConfigAt`); a position in the built tree may also enter branches and choices
(`NodeAt`), and pairs the step with the primitive built for it.

Two laws about every config whose build returns:

* `nested_steps_built_iff`: every nested step is built, once and in order, as a
  child of its parent's primitive exactly when no condition carries nested
  steps.  The schema admits them there, and the condition builder ignores them.
* `branches_built_iff`: every branch reference yields a branch exactly when every
  step that sets one is outside such nested steps, and the references name
  existing steps.  The validator looks at top-level steps only and lets the
  empty reference pass; the builder skips what it cannot resolve.
-/

namespace YamlAgno
namespace Workflow

open Attempt

variable {O : Objects}

section Positions

variable (R : Registries O) (cfg : WorkflowConfig) (w : BuiltWorkflow O)

/-- The step at a path of indices, through nested steps at any depth. -/
inductive ConfigAt : List ℕ → StepConfig → Prop
  | top
      {i : ℕ} {s : StepConfig}
      (hs : cfg.steps[i]? = some s) :
      ConfigAt [i] s
  | nested
      {path : List ℕ} {i : ℕ} {s t : StepConfig} {raw : PyDict}
      (parent : ConfigAt path s)
      (hraw : s.steps[i]? = some raw)
      (hparse : parseNested (R.context cfg) raw = .ok t) :
      ConfigAt (path ++ [i]) t

/-- A way down in the built tree. -/
inductive Hop where
  | nested (i : ℕ)
  | ifTrue
  | ifFalse
  | case (i : ℕ)
deriving DecidableEq

/-- The children of a primitive that stand for its step's own nested steps.  For a
condition these are what its if-branch holds besides the step that `if_true` names. -/
def ownChildren
    (s : StepConfig)
    (b : BuiltStep O) :
    List (BuiltStep O) :=
  if s.type = .condition then
    b.ifBranch.drop (branchTarget (R.context cfg) s.ifTrue).toList.length
  else
    b.members

/-- The step and the primitive at a position of the built tree. -/
inductive NodeAt : List Hop → StepConfig → BuiltStep O → Prop
  | top
      {i : ℕ} {s : StepConfig} {b : BuiltStep O}
      (hs : cfg.steps[i]? = some s)
      (hb : w.steps[i]? = some b) :
      NodeAt [.nested i] s b
  | nested
      {path : List Hop} {i : ℕ} {s t : StepConfig} {b c : BuiltStep O} {raw : PyDict}
      (parent : NodeAt path s b)
      (hraw : s.steps[i]? = some raw)
      (hparse : parseNested (R.context cfg) raw = .ok t)
      (hc : (ownChildren R cfg s b)[i]? = some c) :
      NodeAt (path ++ [.nested i]) t c
  | ifTrue
      {path : List Hop} {s t : StepConfig} {b c : BuiltStep O}
      (parent : NodeAt path s b)
      (ht : branchTarget (R.context cfg) s.ifTrue = some t)
      (hc : b.ifBranch[0]? = some c) :
      NodeAt (path ++ [.ifTrue]) t c
  | ifFalse
      {path : List Hop} {s t : StepConfig} {b c : BuiltStep O}
      (parent : NodeAt path s b)
      (ht : branchTarget (R.context cfg) s.ifFalse = some t)
      (hc : b.elseBranch[0]? = some c) :
      NodeAt (path ++ [.ifFalse]) t c
  | case
      {path : List Hop} {i : ℕ} {s t : StepConfig} {b c : BuiltStep O} {key : String}
      (parent : NodeAt path s b)
      (ht : (caseTargets (R.context cfg) s)[i]? = some (key, t))
      (hc : b.choices[i]? = some c) :
      NodeAt (path ++ [.case i]) t c

/-- `c` is the build of `s`, under some name. -/
def BuiltAs
    (s : StepConfig)
    (c : BuiltStep O) : Prop :=
  ∃ b, BuildsTo (R.context cfg) s b ∧ b.SameButName c

end Positions

section Facts

variable {R : Registries O} {cfg : WorkflowConfig} {w : BuiltWorkflow O}

/-- The built workflow consists of the builds of the top-level steps. -/
theorem forall₂_of_build
    {depth : ℕ}
    (h : build R depth cfg = returned w) :
    List.Forall₂ (BuildsTo (R.context cfg)) cfg.steps w.steps := by
  rw [build, bind_eq_returned_iff] at h
  obtain ⟨builtSteps, hsteps, hw⟩ := h
  cases hw
  exact (mapM_eq_returned_iff.mp hsteps).imp (fun s b hb => ⟨depth, hb⟩)

theorem BuiltAs.of_buildsTo
    {s : StepConfig}
    {b : BuiltStep O}
    (h : BuildsTo (R.context cfg) s b) :
    BuiltAs R cfg s b :=
  ⟨b, h, BuiltStep.SameButName.refl b⟩

/-- A node is the primitive of its step's type. -/
theorem BuiltAs.kind_eq
    {s : StepConfig}
    {b : BuiltStep O}
    (h : BuiltAs R cfg s b) :
    b.kind = s.type.primitive := by
  obtain ⟨b', hb', hsame⟩ := h
  exact hsame.kind_eq.trans hb'.name_kind.2

/-- The children of its own, one by one: outside conditions they are the builds of
the nested steps, and a condition has none. -/
theorem BuiltAs.ownChildren
    {s : StepConfig}
    {b : BuiltStep O}
    (h : BuiltAs R cfg s b) :
    (s.type ≠ .condition →
        List.Forall₂ (NestedBuild (R.context cfg)) s.steps (ownChildren R cfg s b)) ∧
      (s.type = .condition → ownChildren R cfg s b = []) := by
  obtain ⟨b', hb', hsame⟩ := h
  constructor
  · intro ht
    simp only [Workflow.ownChildren, ht, if_false, hsame.members_eq]
    exact hb'.members ht
  · intro ht
    simp only [Workflow.ownChildren, ht, if_true, hsame.ifBranch_eq]
    rw [hb'.ifBranch.length_eq, List.drop_length]

/-- Every node of the built tree is the build of its step. -/
theorem NodeAt.builtAs
    {depth : ℕ}
    (h : build R depth cfg = returned w)
    {path : List Hop}
    {s : StepConfig}
    {b : BuiltStep O}
    (hnode : NodeAt R cfg w path s b) :
    BuiltAs R cfg s b := by
  induction hnode with
  | top hs hb =>
      exact .of_buildsTo (Paired.related_at (forall₂_of_build h) hs hb)
  | @nested _ _ s _ _ _ _ _ hraw hparse hc ih =>
      by_cases ht : s.type = .condition
      · rw [ih.ownChildren.2 ht] at hc
        simp at hc
      · obtain ⟨t', ht', hbuild⟩ := Paired.related_at (ih.ownChildren.1 ht) hraw hc
        rw [hparse] at ht'
        cases ht'
        exact .of_buildsTo hbuild
  | ifTrue _ ht hc ih =>
      obtain ⟨b', hb', hsame⟩ := ih
      rw [hsame.ifBranch_eq] at hc
      have hfirst := hb'.ifBranch
      rw [ht] at hfirst
      exact .of_buildsTo (Paired.related_at (i := 0) hfirst rfl hc)
  | ifFalse _ ht hc ih =>
      obtain ⟨b', hb', hsame⟩ := ih
      rw [hsame.elseBranch_eq] at hc
      have hfirst := hb'.elseBranch
      rw [ht] at hfirst
      exact .of_buildsTo (Paired.related_at (i := 0) hfirst rfl hc)
  | case _ ht hc ih =>
      obtain ⟨b', hb', hsame⟩ := ih
      rw [hsame.choices_eq] at hc
      obtain ⟨c', hc', rfl⟩ := Paired.related_at hb'.choices ht hc
      exact ⟨c', hc', _, rfl⟩

/-- Every top-level step is a node of the built tree. -/
theorem NodeAt.exists_top
    {depth : ℕ}
    (h : build R depth cfg = returned w)
    {i : ℕ}
    {s : StepConfig}
    (hs : cfg.steps[i]? = some s) :
    ∃ b, NodeAt R cfg w [.nested i] s b := by
  obtain ⟨b, hb, _⟩ := Paired.exists_at (forall₂_of_build h) hs
  exact ⟨b, .top hs hb⟩

/-- Where the nested steps are built one by one, each of them is a node. -/
theorem NodeAt.exists_nested
    {path : List Hop}
    {i : ℕ}
    {s t : StepConfig}
    {b : BuiltStep O}
    {raw : PyDict}
    (hnode : NodeAt R cfg w path s b)
    (hkids : List.Forall₂ (NestedBuild (R.context cfg)) s.steps (ownChildren R cfg s b))
    (hraw : s.steps[i]? = some raw)
    (hparse : parseNested (R.context cfg) raw = .ok t) :
    ∃ c, NodeAt R cfg w (path ++ [.nested i]) t c := by
  obtain ⟨c, hc, _⟩ := Paired.exists_at hkids hraw
  exact ⟨c, .nested hnode hraw hparse hc⟩

theorem ConfigAt.of_mem
    {s : StepConfig}
    (h : s ∈ cfg.steps) :
    ∃ path, ConfigAt R cfg path s := by
  obtain ⟨i, hi⟩ := List.mem_iff_getElem?.mp h
  exact ⟨[i], .top hi⟩

/-- The step at a node of the built tree stands somewhere in the config. -/
theorem NodeAt.configAt
    {path : List Hop}
    {s : StepConfig}
    {b : BuiltStep O}
    (hnode : NodeAt R cfg w path s b) :
    ∃ path', ConfigAt R cfg path' s := by
  induction hnode with
  | top hs _ =>
      exact ⟨_, .top hs⟩
  | nested _ hraw hparse _ ih =>
      obtain ⟨path', hat⟩ := ih
      exact ⟨_, .nested hat hraw hparse⟩
  | ifTrue _ ht _ _ =>
      exact ConfigAt.of_mem (mem_steps_of_branchTarget ht)
  | ifFalse _ ht _ _ =>
      exact ConfigAt.of_mem (mem_steps_of_branchTarget ht)
  | case _ ht _ _ =>
      exact ConfigAt.of_mem (mem_steps_of_caseTargets (List.mem_of_getElem? ht))

end Facts

/-! ## Nested steps -/

/-- The primitive is the one for the step's type, and its own children are the
builds of the step's nested steps: each of them once, in order. -/
def NestedStepsBuilt
    (R : Registries O)
    (cfg : WorkflowConfig)
    (s : StepConfig)
    (b : BuiltStep O) : Prop :=
  b.kind = s.type.primitive ∧
    List.Forall₂ (NestedBuild (R.context cfg)) s.steps (ownChildren R cfg s b)

/-- No nested step is lost: it holds at every position of the built tree whose step
may carry nested steps. -/
def NoNestedStepLost
    (R : Registries O)
    (cfg : WorkflowConfig)
    (w : BuiltWorkflow O) : Prop :=
  ∀ path s b, NodeAt R cfg w path s b → s.type.nestable → NestedStepsBuilt R cfg s b

/-- If no nested step is lost, every position of the config is one of the built tree. -/
theorem NoNestedStepLost.exists_node
    {R : Registries O}
    {cfg : WorkflowConfig}
    {w : BuiltWorkflow O}
    {depth : ℕ}
    (h : build R depth cfg = returned w)
    (hbuilt : NoNestedStepLost R cfg w)
    {path : List ℕ}
    {s : StepConfig}
    (hat : ConfigAt R cfg path s) :
    ∃ b, NodeAt R cfg w (path.map .nested) s b := by
  induction hat with
  | top hs =>
      exact NodeAt.exists_top h hs
  | @nested _ _ s _ _ _ hraw hparse ih =>
      obtain ⟨b, hb⟩ := ih
      have hnestable : s.type.nestable := by
        by_contra hne
        rw [s.steps_eq_nil hne] at hraw
        simp at hraw
      rw [List.map_append]
      exact hb.exists_nested (hbuilt _ _ _ hb hnestable).2 hraw hparse

/-- In a build that returns, no nested step is lost exactly when no condition, at
any depth of the config, carries nested steps. -/
theorem nested_steps_built_iff
    (R : Registries O)
    (cfg : WorkflowConfig)
    (w : BuiltWorkflow O)
    (depth : ℕ)
    (h : build R depth cfg = returned w) :
    NoNestedStepLost R cfg w ↔
      ∀ path s, ConfigAt R cfg path s → s.type = .condition → s.steps = [] := by
  constructor
  · intro hbuilt path s hat ht
    obtain ⟨b, hb⟩ := hbuilt.exists_node h hat
    have hkids := (hbuilt _ _ _ hb (by simp [StepType.nestable, ht])).2
    rw [(hb.builtAs h).ownChildren.2 ht] at hkids
    exact List.forall₂_nil_right_iff.mp hkids
  · intro hempty path s b hnode _
    have hbuilt := hnode.builtAs h
    refine ⟨hbuilt.kind_eq, ?_⟩
    by_cases ht : s.type = .condition
    · obtain ⟨path', hat⟩ := hnode.configAt
      rw [hempty path' s hat ht, hbuilt.ownChildren.2 ht]
      exact .nil
    · exact hbuilt.ownChildren.1 ht

/-- A raw step that the registries can build. -/
def workerRaw (step : String) : PyDict :=
  [("step", .str step), ("agent", .str "worker")]

/-- A workflow of one given step. -/
def singleStepConfig
    (s : StepConfig)
    (hrefs : validateStepsIntegrity [s] = .ok ()) :
    WorkflowConfig where
  name := "single"
  name_length := by decide
  description := none
  steps := [s]
  steps_nonempty := by simp
  integrity := hrefs

/-- A pipeline of two nested steps. -/
def pipelineStep : StepConfig where
  step := "pipeline"
  type := .steps
  steps := [workerRaw "first", workerRaw "second"]
  valid := rfl

theorem nested_steps_built_pipeline :
    NoNestedStepLost plainRegistries (singleStepConfig pipelineStep rfl)
        ⟨"single", none, [.steps "pipeline" none
          [.step "first" (.agent ()) none, .step "second" (.agent ()) none]]⟩ ↔
      ∀ path s, ConfigAt plainRegistries (singleStepConfig pipelineStep rfl) path s →
        s.type = .condition → s.steps = [] :=
  nested_steps_built_iff plainRegistries (singleStepConfig pipelineStep rfl) _ 2 rfl

/-- A condition with one nested step. -/
def nestingCondition : StepConfig where
  step := "gate"
  type := .condition
  steps := [workerRaw "inner"]
  valid := rfl

/-- The nested step of a condition is admitted, and it is not built. -/
theorem nested_step_of_condition_lost :
    ¬ ∀ (O : Objects) (R : Registries O) (cfg : WorkflowConfig) (w : BuiltWorkflow O)
        (depth : ℕ), build R depth cfg = returned w → NoNestedStepLost R cfg w := by
  intro hall
  let built : BuiltWorkflow plainObjects := ⟨"single", none, [.condition "gate" none none [] none]⟩
  have hbuild : build plainRegistries 2 (singleStepConfig nestingCondition rfl) =
      returned built := rfl
  have hlost := hall _ _ _ _ _ hbuild [.nested 0] nestingCondition _ (.top rfl rfl) rfl
  have hlen := hlost.2.length_eq
  cases hlen

/-! ## Branch references -/

/-- The step sets a branch reference: `if_true`, `if_false`, or a case. -/
def SetsRef (s : StepConfig) : Prop :=
  s.ifTrue ≠ none ∨ s.ifFalse ≠ none ∨ s.cases ≠ []

/-- Each reference that is set has its branch, and the choices are named exactly by
the case keys, in order. -/
def BranchesBuilt
    (s : StepConfig)
    (b : BuiltStep O) : Prop :=
  (s.ifTrue ≠ none → b.ifBranch ≠ []) ∧
    (s.ifFalse ≠ none → b.elseBranch ≠ []) ∧
      b.choices.map BuiltStep.name = s.cases.map Prod.fst

/-- No reference is dropped: a step that sets one, at any depth of the config, is
built with its branches, and so is every further copy in the built tree. -/
def NoReferenceDropped
    (R : Registries O)
    (cfg : WorkflowConfig)
    (w : BuiltWorkflow O) : Prop :=
  (∀ path s, ConfigAt R cfg path s → SetsRef s →
      ∃ b, NodeAt R cfg w (path.map .nested) s b ∧ BranchesBuilt s b) ∧
    ∀ hops s b, NodeAt R cfg w hops s b → BranchesBuilt s b

/-- `if_true` and `if_false`, when set, are non-empty ids of top-level steps, and so
is every case value, which may be the empty id. -/
def RefsExist
    (cfg : WorkflowConfig)
    (s : StepConfig) : Prop :=
  (∀ id, s.ifTrue = some id → id ≠ "" ∧ id ∈ cfg.stepIds) ∧
    (∀ id, s.ifFalse = some id → id ≠ "" ∧ id ∈ cfg.stepIds) ∧
      ∀ case ∈ s.cases, case.2 ∈ cfg.stepIds

/-- The step at a path on which no step passed is a condition. -/
inductive OutsideConditions
    (R : Registries O)
    (cfg : WorkflowConfig) : List ℕ → StepConfig → Prop
  | top
      {i : ℕ} {s : StepConfig}
      (hs : cfg.steps[i]? = some s) :
      OutsideConditions R cfg [i] s
  | nested
      {path : List ℕ} {i : ℕ} {s t : StepConfig} {raw : PyDict}
      (parent : OutsideConditions R cfg path s)
      (htype : s.type ≠ .condition)
      (hraw : s.steps[i]? = some raw)
      (hparse : parseNested (R.context cfg) raw = .ok t) :
      OutsideConditions R cfg (path ++ [i]) t

section BranchFacts

variable {R : Registries O} {cfg : WorkflowConfig} {w : BuiltWorkflow O}

theorem branchTarget_isSome_iff
    {id : String} :
    (branchTarget (R.context cfg) (some id)).isSome ↔ id ≠ "" ∧ id ∈ cfg.stepIds := by
  by_cases hid : id = ""
  · simp [branchTarget, hid]
  · simp only [branchTarget, hid, if_false, ne_eq, not_false_eq_true, true_and]
    exact WorkflowConfig.stepIndex_isSome_iff

/-- A branch is built for a reference that is set exactly when it names a step. -/
theorem branch_ne_nil_iff
    {ref : Option String}
    {kids : List (BuiltStep O)}
    (h : List.Forall₂ (BuildsTo (R.context cfg)) (branchTarget (R.context cfg) ref).toList kids) :
    (ref ≠ none → kids ≠ []) ↔ ∀ id, ref = some id → id ≠ "" ∧ id ∈ cfg.stepIds := by
  cases ref with
  | none =>
      simp
  | some id =>
      have hlen := h.length_eq
      simp only [ne_eq, reduceCtorEq, not_false_eq_true, forall_const, Option.some.injEq,
        forall_eq', ← branchTarget_isSome_iff (R := R)]
      cases htarget : branchTarget (R.context cfg) (some id) with
      | none =>
          simp only [htarget, Option.toList_none, List.length_nil] at hlen
          simp [List.eq_nil_of_length_eq_zero hlen.symm]
      | some t =>
          simp only [htarget, Option.toList_some, List.length_singleton] at hlen
          simp only [Option.isSome_some, iff_true]
          rintro rfl
          simp at hlen

theorem choices_map_name
    {s : StepConfig}
    {b : BuiltStep O}
    (h : BuildsTo (R.context cfg) s b) :
    b.choices.map BuiltStep.name = (caseTargets (R.context cfg) s).map Prod.fst := by
  have hchoices := h.choices
  generalize caseTargets (R.context cfg) s = targets at hchoices ⊢
  generalize b.choices = kids at hchoices ⊢
  induction hchoices with
  | nil =>
      rfl
  | cons hc _ ih =>
      obtain ⟨b, _, rfl⟩ := hc
      simp [ih]

/-- The choices bear the case keys exactly when every case names a step. -/
theorem choices_named_iff
    {s : StepConfig} :
    (caseTargets (R.context cfg) s).map Prod.fst = s.cases.map Prod.fst ↔
      ∀ case ∈ s.cases, case.2 ∈ cfg.stepIds := by
  unfold caseTargets
  induction s.cases with
  | nil =>
      simp
  | cons case rest ih =>
      cases href : (R.context cfg).stepIndex case.2 with
      | none =>
          have hmissing : case.2 ∉ cfg.stepIds := WorkflowConfig.stepIndex_eq_none_iff.mp href
          have hlen := List.length_filterMap_le
            (fun case : String × String =>
              ((R.context cfg).stepIndex case.2).map fun referenced => (case.1, referenced)) rest
          constructor
          · intro heq
            have hcount := congrArg List.length heq
            simp only [List.filterMap_cons, href, Option.map_none, List.length_map,
              List.length_cons] at hcount
            omega
          · intro hall
            exact absurd (hall case List.mem_cons_self) hmissing
      | some t =>
          have hfound : case.2 ∈ cfg.stepIds := by
            refine WorkflowConfig.stepIndex_isSome_iff.mp ?_
            have hindex : cfg.stepIndex case.2 = some t := href
            simp [hindex]
          simp [href, ih, hfound]

/-- For a node of the built tree: its branches are built exactly when its references
name existing steps. -/
theorem BuiltAs.branchesBuilt_iff
    {s : StepConfig}
    {b : BuiltStep O}
    (h : BuiltAs R cfg s b) :
    BranchesBuilt s b ↔ RefsExist cfg s := by
  obtain ⟨b', hb', hsame⟩ := h
  simp only [BranchesBuilt, RefsExist, hsame.ifBranch_eq, hsame.elseBranch_eq,
    hsame.choices_eq, branch_ne_nil_iff hb'.ifBranch, branch_ne_nil_iff hb'.elseBranch,
    choices_map_name hb', choices_named_iff]

/-- Outside conditions, every position of the config is one of the built tree. -/
theorem OutsideConditions.exists_node
    {depth : ℕ}
    (h : build R depth cfg = returned w)
    {path : List ℕ}
    {s : StepConfig}
    (hout : OutsideConditions R cfg path s) :
    ∃ b, NodeAt R cfg w (path.map .nested) s b := by
  induction hout with
  | top hs =>
      exact NodeAt.exists_top h hs
  | nested _ htype hraw hparse ih =>
      obtain ⟨b, hb⟩ := ih
      rw [List.map_append]
      exact hb.exists_nested ((hb.builtAs h).ownChildren.1 htype) hraw hparse

/-- The built tree has no position inside the nested steps of a condition. -/
theorem NodeAt.outsideConditions
    {depth : ℕ}
    (h : build R depth cfg = returned w)
    {hops : List Hop}
    {s : StepConfig}
    {b : BuiltStep O}
    (hnode : NodeAt R cfg w hops s b)
    {path : List ℕ}
    (hpath : hops = path.map .nested) :
    OutsideConditions R cfg path s := by
  induction hnode generalizing path with
  | top hs _ =>
      obtain ⟨i, rfl, hi⟩ := List.map_eq_singleton_iff.mp hpath.symm
      cases hi
      exact .top hs
  | @nested _ _ s _ b _ _ parent hraw hparse hc ih =>
      obtain ⟨before, last, rfl, hbefore, hlast⟩ := List.map_eq_append_iff.mp hpath.symm
      obtain ⟨i, rfl, hi⟩ := List.map_eq_singleton_iff.mp hlast
      cases hi
      have htype : s.type ≠ .condition := by
        intro ht
        rw [(parent.builtAs h).ownChildren.2 ht] at hc
        simp at hc
      exact .nested (ih hbefore.symm) htype hraw hparse
  | ifTrue | ifFalse | case =>
      obtain ⟨_, last, _, _, hlast⟩ := List.map_eq_append_iff.mp hpath.symm
      obtain ⟨_, _, hhop⟩ := List.map_eq_singleton_iff.mp hlast
      cases hhop

end BranchFacts

/-- In a build that returns, every branch reference of the config yields its branch
exactly when every step that sets one stands outside the nested steps of conditions
and its references exist. -/
theorem branches_built_iff
    (R : Registries O)
    (cfg : WorkflowConfig)
    (w : BuiltWorkflow O)
    (depth : ℕ)
    (h : build R depth cfg = returned w) :
    NoReferenceDropped R cfg w ↔
      ∀ path s, ConfigAt R cfg path s → SetsRef s →
        OutsideConditions R cfg path s ∧ RefsExist cfg s := by
  constructor
  · rintro ⟨hbuilt, _⟩ path s hat hsets
    obtain ⟨b, hnode, hbranches⟩ := hbuilt path s hat hsets
    exact ⟨hnode.outsideConditions h rfl, (hnode.builtAs h).branchesBuilt_iff.mp hbranches⟩
  · intro hcond
    refine ⟨fun path s hat hsets => ?_, fun hops s b hnode => ?_⟩
    · obtain ⟨hout, hrefs⟩ := hcond path s hat hsets
      obtain ⟨b, hnode⟩ := hout.exists_node h
      exact ⟨b, hnode, (hnode.builtAs h).branchesBuilt_iff.mpr hrefs⟩
    · refine (hnode.builtAs h).branchesBuilt_iff.mpr ?_
      by_cases hsets : SetsRef s
      · obtain ⟨path, hat⟩ := hnode.configAt
        exact (hcond path s hat hsets).2
      · simp only [SetsRef, not_or, not_not] at hsets
        obtain ⟨htrue, hfalse, hcases⟩ := hsets
        simp [RefsExist, htrue, hfalse, hcases]

/-- A condition, and the step its reference names. -/
def gatedConfig : WorkflowConfig where
  name := "gated"
  name_length := by decide
  description := none
  steps :=
    [{ step := "gate", type := .condition, ifTrue := some "work", valid := rfl },
      { step := "work", agent := some "worker", valid := rfl }]
  steps_nonempty := by simp
  integrity := rfl

theorem branches_built_gated :
    NoReferenceDropped plainRegistries gatedConfig
        ⟨"gated", none, [.condition "gate" none none [.step "work" (.agent ()) none] none,
          .step "work" (.agent ()) none]⟩ ↔
      ∀ path s, ConfigAt plainRegistries gatedConfig path s → SetsRef s →
        OutsideConditions plainRegistries gatedConfig path s ∧ RefsExist gatedConfig s :=
  branches_built_iff plainRegistries gatedConfig _ 2 rfl

/-- A pipeline around a condition whose reference names no step. -/
def danglingStep : StepConfig where
  step := "outer"
  type := .steps
  steps := [[("step", .str "gate"), ("type", .str "Condition"), ("if_true", .str "nowhere")]]
  valid := rfl

/-- A reference of a nested condition that names no step is accepted and dropped. -/
theorem nested_reference_dropped :
    ¬ ∀ (O : Objects) (R : Registries O) (cfg : WorkflowConfig) (w : BuiltWorkflow O)
        (depth : ℕ), build R depth cfg = returned w → NoReferenceDropped R cfg w := by
  intro hall
  let gate : BuiltStep plainObjects := .condition "gate" none none [] none
  let built : BuiltWorkflow plainObjects := ⟨"single", none, [.steps "outer" none [gate]]⟩
  have hbuild : build plainRegistries 3 (singleStepConfig danglingStep rfl) =
      returned built := rfl
  let gateConfig : StepConfig :=
    { step := "gate", type := .condition, ifTrue := some "nowhere", valid := rfl }
  have houter : NodeAt plainRegistries (singleStepConfig danglingStep rfl) built
      [.nested 0] danglingStep (.steps "outer" none [gate]) :=
    .top rfl rfl
  have hnode : NodeAt plainRegistries (singleStepConfig danglingStep rfl) built
      [.nested 0, .nested 0] gateConfig gate :=
    .nested houter rfl rfl rfl
  have hbranch := (hall _ _ _ _ _ hbuild).2 _ _ _ hnode
  exact hbranch.1 (by simp [gateConfig]) rfl

end Workflow
end YamlAgno

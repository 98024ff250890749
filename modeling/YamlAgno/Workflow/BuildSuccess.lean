import YamlAgno.Workflow.Termination
import YamlAgno.Workflow.NestedSteps

/-!
# When a build succeeds

A build visits the top-level steps, the nested raw steps of pipelines, parallel groups and
loops, and the steps that existing branch references name.  Each visited step adds its own
conditions: an executor that is registered, expression slots that are CEL or registered,
nested raw steps that are valid.

If no chain of references leads back to where it started, the build succeeds exactly when
every visited step meets its own conditions (`build_succeeds_iff`): what a step asks for
does not depend on how the build got to it.
-/

namespace YamlAgno
namespace Workflow

open Attempt Relation

variable {O : Objects}

/-! ## The steps a build visits -/

/-- The build of `s` asks for a build of `t`. -/
inductive AsksFor
    (R : Registries O)
    (cfg : WorkflowConfig)
    (s t : StepConfig) : Prop where
  | nested {raw : PyDict}
      (htype : s.type = .steps ∨ s.type = .parallel ∨ s.type = .loop)
      (hraw : raw ∈ s.steps)
      (hparse : StepConfig.parse R.coercions raw = .ok t)
  | branch {id : String}
      (htype : s.type = .condition)
      (href : s.ifTrue = some id ∨ s.ifFalse = some id)
      (hne : id ≠ "")
      (hindex : cfg.stepIndex id = some t)
  | case {key id : String}
      (htype : s.type = .router)
      (hcase : (key, id) ∈ s.cases)
      (hindex : cfg.stepIndex id = some t)

/-- The build visits `t`: a top-level step, or one that a visited step asks for. -/
def Visited
    (R : Registries O)
    (cfg : WorkflowConfig)
    (t : StepConfig) : Prop :=
  ∃ s ∈ cfg.steps, ReflTransGen (AsksFor R cfg) s t

/-- No step asks, directly or through others, for itself. -/
def Acyclic
    (R : Registries O)
    (cfg : WorkflowConfig) : Prop :=
  ∀ t ∈ cfg.steps, ¬ TransGen (AsksFor R cfg) t t

section Children

variable {R : Registries O} {cfg : WorkflowConfig} {s t : StepConfig}

theorem branchTarget_eq_some_iff
    {ref : Option String} :
    branchTarget (R.context cfg) ref = some t ↔
      ∃ id, ref = some id ∧ id ≠ "" ∧ cfg.stepIndex id = some t := by
  cases ref with
  | none =>
      simp [branchTarget]
  | some id =>
      by_cases hempty : id = ""
      · simp [branchTarget, hempty]
      · simp [branchTarget, hempty, Registries.context]

theorem ok_mem_nested_iff :
    .ok t ∈ s.steps.map (parseNested (R.context cfg)) ↔
      ∃ raw ∈ s.steps, StepConfig.parse R.coercions raw = .ok t := by
  rw [List.mem_map]
  exact exists_congr fun raw => and_congr_right fun _ => Fallible.mapError_eq_ok_iff

/-- The types whose nested steps are built. -/
def StepType.nests (t : StepType) : Prop :=
  t = .steps ∨ t = .parallel ∨ t = .loop

theorem stepChildren_of_nests
    (ctx : BuildContext O)
    (h : s.type.nests) :
    stepChildren ctx s = s.steps.map (parseNested ctx) := by
  rcases h with h | h | h <;> simp only [stepChildren, h]

/-- What a step asks for are its valid children in the plan of the build. -/
theorem asksFor_iff :
    AsksFor R cfg s t ↔ .ok t ∈ stepChildren (R.context cfg) s := by
  constructor
  · intro h
    cases h with
    | nested htype hraw hparse =>
        rw [stepChildren_of_nests _ htype]
        exact ok_mem_nested_iff.mpr ⟨_, hraw, hparse⟩
    | branch htype href hne hindex =>
        simp only [stepChildren, htype, List.mem_append, List.mem_map, Option.mem_toList,
          Except.ok.injEq, exists_eq_right, branchTarget_eq_some_iff]
        exact href.imp (fun h => ⟨_, h, hne, hindex⟩) (fun h => ⟨_, h, hne, hindex⟩)
    | case htype hcase hindex =>
        simp only [stepChildren, htype, caseTargets, List.mem_map, List.mem_filterMap]
        exact ⟨_, ⟨_, hcase, Option.map_eq_some_iff.mpr ⟨t, hindex, rfl⟩⟩, rfl⟩
  · intro h
    cases htype : s.type with
    | steps | parallel | loop =>
        have hnests : s.type.nests := by simp [StepType.nests, htype]
        rw [stepChildren_of_nests _ hnests] at h
        obtain ⟨raw, hraw, hparse⟩ := ok_mem_nested_iff.mp h
        exact .nested hnests hraw hparse
    | condition =>
        simp only [stepChildren, htype, List.mem_append, List.mem_map, Option.mem_toList,
          Except.ok.injEq, exists_eq_right, branchTarget_eq_some_iff] at h
        rcases h with ⟨id, href, hne, hindex⟩ | ⟨id, href, hne, hindex⟩
        · exact .branch htype (Or.inl href) hne hindex
        · exact .branch htype (Or.inr href) hne hindex
    | router =>
        simp only [stepChildren, htype, caseTargets, List.mem_map, List.mem_filterMap] at h
        obtain ⟨target, ⟨case, hcase, htarget⟩, hsame⟩ := h
        obtain ⟨t', hindex, rfl⟩ := Option.map_eq_some_iff.mp htarget
        cases hsame
        exact .case htype hcase hindex
    | step | function | workflow =>
        simp [stepChildren, htype] at h

end Children

/-! ## What a step needs itself -/

section Local

variable (R : Registries O) (identifier : String → Prop) (s : StepConfig)

/-- The first source that is set, of agent, team and function, is in its registry. -/
inductive ExecutorResolves : Prop where
  | agent {name : String}
      (hagent : s.agent = some name)
      (hregistered : (R.agents name).isSome)
  | team {name : String}
      (hagent : s.agent = none)
      (hteam : s.team = some name)
      (hregistered : (R.teams name).isSome)
  | function {name : String}
      (hagent : s.agent = none)
      (hteam : s.team = none)
      (hfunction : s.function = some name)
      (hidentifier : identifier name)
      (hregistered : (R.callables name).isSome)

/-- An expression that is a plain identifier is the name of a callable. -/
def SlotResolves (slot : Option String) : Prop :=
  ∀ value, slot = some value → identifier value → (R.callables value).isSome

/-- What a step needs, apart from the steps it asks for. -/
structure ResolvesLocally : Prop where
  not_workflow : s.type ≠ .workflow
  executor : s.type = .step ∨ s.type = .function → ExecutorResolves R identifier s
  condition : SlotResolves R identifier s.condition
  expression : SlotResolves R identifier s.expression
  endCondition : SlotResolves R identifier s.endCondition
  nested : s.type.nests →
    ∀ raw ∈ s.steps, ∃ t, StepConfig.parse R.coercions raw = .ok t

end Local

section LocalWork

variable {ctx : BuildContext O} {identifier : String → Prop} {s : StepConfig}

/-- The slots belong to one type of step each. -/
theorem slots_eq_none
    (s : StepConfig) :
    (s.type ≠ .condition → s.condition = none) ∧
      (s.type ≠ .router → s.expression = none) ∧
      (s.type ≠ .loop → s.endCondition = none) := by
  have hvalid := (validateTypeSpecificFields_eq_ok_iff _).mp s.valid
  refine ⟨fun h => ?_, fun h => ?_, fun h => ?_⟩
  · exact Option.not_isSome_iff_eq_none.mp fun hsome => h (hvalid.2.1 (Or.inl hsome))
  · exact Option.not_isSome_iff_eq_none.mp fun hsome => h (hvalid.2.2.1 (Or.inl hsome))
  · exact Option.not_isSome_iff_eq_none.mp fun hsome => h (hvalid.2.2.2 (Or.inl hsome))

theorem slotResolves_none
    (R : Registries O)
    (identifier : String → Prop) :
    SlotResolves R identifier none := by
  intro value h
  cases h

/-- An identifier is looked up. -/
theorem resolveCallableOrCel_of_identifier
    (hcel : ∀ value, ctx.isCelExpression value = true ↔ ¬ identifier value)
    {value : String}
    (h : identifier value) :
    (∃ f, ctx.callables value = some f ∧ resolveCallableOrCel ctx value = .ok (.callable f)) ∨
      (ctx.callables value = none ∧
        resolveCallableOrCel ctx value = .error (.unresolvableCallable value)) := by
  have hnot : ¬ ctx.isCelExpression value = true := fun hexpr => (hcel value).mp hexpr h
  rw [resolveCallableOrCel, if_neg hnot]
  cases ctx.callables value with
  | none => exact Or.inr ⟨rfl, rfl⟩
  | some f => exact Or.inl ⟨f, rfl, rfl⟩

/-- Anything else passes through. -/
theorem resolveCallableOrCel_of_not_identifier
    (hcel : ∀ value, ctx.isCelExpression value = true ↔ ¬ identifier value)
    {value : String}
    (h : ¬ identifier value) :
    resolveCallableOrCel ctx value = .ok (.cel value) := by
  rw [resolveCallableOrCel, if_pos ((hcel value).mpr h)]

/-- What resolves to a callable is an identifier that is registered. -/
theorem registered_of_resolved
    (hcel : ∀ value, ctx.isCelExpression value = true ↔ ¬ identifier value)
    {value : String}
    {f : O.Callable}
    (h : resolveCallableOrCel ctx value = .ok (.callable f)) :
    identifier value ∧ (ctx.callables value).isSome := by
  by_cases hidentifier : identifier value
  · rcases resolveCallableOrCel_of_identifier hcel hidentifier with
      ⟨g, hg, -⟩ | ⟨-, hrefused⟩
    · exact ⟨hidentifier, by rw [hg]; rfl⟩
    · rw [hrefused] at h
      cases h
  · rw [resolveCallableOrCel_of_not_identifier hcel hidentifier] at h
    cases h

theorem resolveSlot_isOk_iff
    (hcel : ∀ value, ctx.isCelExpression value = true ↔ ¬ identifier value)
    (slot : Option String) :
    (∃ x, resolveSlot ctx slot = .ok x) ↔ SlotResolves ctx.toRegistries identifier slot := by
  cases slot with
  | none =>
      exact iff_of_true ⟨_, rfl⟩ (slotResolves_none _ _)
  | some value =>
      simp only [SlotResolves, resolveSlot]
      by_cases hidentifier : identifier value
      · rcases resolveCallableOrCel_of_identifier hcel hidentifier with
          ⟨f, hf, hresolved⟩ | ⟨hnone, hrefused⟩
        · rw [hresolved]
          refine iff_of_true ⟨_, rfl⟩ ?_
          rintro _ ⟨⟩ -
          rw [hf]
          rfl
        · rw [hrefused]
          refine iff_of_false ?_ fun hall => ?_
          · rintro ⟨x, hx⟩
            cases hx
          · have hsome := hall value rfl hidentifier
            rw [hnone] at hsome
            cases hsome
      · rw [resolveCallableOrCel_of_not_identifier hcel hidentifier]
        refine iff_of_true ⟨_, rfl⟩ ?_
        rintro _ ⟨⟩ h
        exact absurd h hidentifier

/-- A step is built from its executor source exactly when that resolves. -/
theorem buildStepExecutor_isOk_iff
    (hcel : ∀ value, ctx.isCelExpression value = true ↔ ¬ identifier value)
    (s : StepConfig) :
    (∃ b, buildStepExecutor ctx s = .ok b) ↔
      ExecutorResolves ctx.toRegistries identifier s := by
  constructor
  · rintro ⟨b, hb⟩
    obtain ⟨executor, -, hexecutor⟩ := buildStepExecutor_eq_ok hb
    cases executor with
    | agent a =>
        obtain ⟨name, hagent, ha⟩ := hexecutor
        exact .agent hagent (Option.isSome_iff_exists.mpr ⟨a, ha⟩)
    | team t =>
        obtain ⟨hagent, name, hteam, ht⟩ := hexecutor
        exact .team hagent hteam (Option.isSome_iff_exists.mpr ⟨t, ht⟩)
    | callable f | resilient stepExecutor f =>
        obtain ⟨hagent, hteam, -, name, hfunction, hresolved⟩ := hexecutor
        obtain ⟨hidentifier, hregistered⟩ := registered_of_resolved hcel hresolved
        exact .function hagent hteam hfunction hidentifier hregistered
  · intro h
    unfold buildStepExecutor
    cases h with
    | agent hagent hregistered =>
        obtain ⟨a, ha⟩ := Option.isSome_iff_exists.mp hregistered
        simp only [hagent, ha]
        exact ⟨_, rfl⟩
    | team hagent hteam hregistered =>
        obtain ⟨t, ht⟩ := Option.isSome_iff_exists.mp hregistered
        simp only [hagent, hteam, ht]
        exact ⟨_, rfl⟩
    | function hagent hteam hfunction hidentifier hregistered =>
        rcases resolveCallableOrCel_of_identifier hcel hidentifier with
          ⟨f, hf, hresolved⟩ | ⟨hnone, hrefused⟩
        · simp only [hagent, hteam, hfunction, hresolved]
          cases ctx.stepExecutor with
          | none => exact ⟨_, rfl⟩
          | some stepExecutor => exact ⟨_, rfl⟩
        · rw [hnone] at hregistered
          cases hregistered

/-- The nested steps are all valid exactly when every child of the plan is a step. -/
theorem stepChildren_ok_iff
    (ctx : BuildContext O)
    (s : StepConfig) :
    (∀ c ∈ stepChildren ctx s, ∃ t, c = .ok t) ↔
      (s.type.nests → ∀ raw ∈ s.steps, ∃ t, StepConfig.parse ctx.coercions raw = .ok t) := by
  by_cases hnests : s.type.nests
  · rw [stepChildren_of_nests ctx hnests]
    simp only [hnests, forall_const, List.forall_mem_map]
    exact forall₂_congr fun raw _ => exists_congr fun t => Fallible.mapError_eq_ok_iff
  · refine iff_of_true (fun c hc => ?_) (fun h => absurd h hnests)
    cases htype : s.type with
    | steps | parallel | loop =>
        exact absurd (by simp [StepType.nests, htype]) hnests
    | condition =>
        simp only [stepChildren, htype, List.mem_append, List.mem_map] at hc
        rcases hc with ⟨t, -, rfl⟩ | ⟨t, -, rfl⟩ <;> exact ⟨t, rfl⟩
    | router =>
        simp only [stepChildren, htype, List.mem_map] at hc
        obtain ⟨case, -, rfl⟩ := hc
        exact ⟨case.2, rfl⟩
    | step | function | workflow =>
        simp [stepChildren, htype] at hc

/-- The work left after the children succeeds exactly when the executor or the slot of the
step resolves. -/
theorem stepFinish_isOk_iff
    (ctx : BuildContext O)
    (hcel : ∀ value, ctx.isCelExpression value = true ↔ ¬ identifier value)
    (s : StepConfig) :
    (∃ assemble, stepFinish ctx s = .ok assemble) ↔
      s.type ≠ .workflow ∧
        (s.type = .step ∨ s.type = .function →
          ExecutorResolves ctx.toRegistries identifier s) ∧
        SlotResolves ctx.toRegistries identifier s.condition ∧
        SlotResolves ctx.toRegistries identifier s.expression ∧
        SlotResolves ctx.toRegistries identifier s.endCondition := by
  obtain ⟨hcondition, hexpression, hend⟩ := slots_eq_none s
  have hnone := slotResolves_none ctx.toRegistries identifier
  unfold stepFinish
  cases htype : s.type with
  | step | function =>
      rw [hcondition (by simp [htype]), hexpression (by simp [htype]), hend (by simp [htype])]
      simp [Fallible.map_isOk_iff, buildStepExecutor_isOk_iff hcel, hnone]
  | workflow =>
      simp
  | steps | parallel =>
      rw [hcondition (by simp [htype]), hexpression (by simp [htype]), hend (by simp [htype])]
      simp [hnone]
  | condition =>
      rw [hexpression (by simp [htype]), hend (by simp [htype])]
      simp [Fallible.map_isOk_iff, resolveSlot_isOk_iff hcel, hnone]
  | router =>
      rw [hcondition (by simp [htype]), hend (by simp [htype])]
      simp [Fallible.map_isOk_iff, resolveSlot_isOk_iff hcel, hnone]
  | loop =>
      rw [hcondition (by simp [htype]), hexpression (by simp [htype])]
      simp [Fallible.map_isOk_iff, resolveSlot_isOk_iff hcel, hnone]

end LocalWork

/-! ## The whole build -/

section Whole

variable (R : Registries O) (cfg : WorkflowConfig) (identifier : String → Prop)

/-- A step is built with its children exactly when it resolves locally and they do. -/
theorem resolves_iff_locally
    (hcel : ∀ value, R.isCelExpression value = true ↔ ¬ identifier value)
    (s : StepConfig) :
    (buildPlan (R.context cfg)).Resolves s ↔
      ResolvesLocally R identifier s ∧
        ∀ t, AsksFor R cfg s t → (buildPlan (R.context cfg)).Resolves t := by
  have hchildren := stepChildren_ok_iff (R.context cfg) s
  have hfinish := stepFinish_isOk_iff (R.context cfg) hcel s
  rw [Plan.resolves_iff]
  constructor
  · rintro ⟨hkids, hwork⟩
    obtain ⟨hworkflow, hexecutor, hcondition, hexpression, hend⟩ := hfinish.mp hwork
    refine ⟨⟨hworkflow, hexecutor, hcondition, hexpression, hend, hchildren.mp ?_⟩, ?_⟩
    · intro c hc
      obtain ⟨t, rfl, -⟩ := hkids c hc
      exact ⟨t, rfl⟩
    · intro t ht
      obtain ⟨t', hsame, hresolves⟩ := hkids _ (asksFor_iff.mp ht)
      cases hsame
      exact hresolves
  · rintro ⟨hlocal, hkids⟩
    refine ⟨fun c hc => ?_, hfinish.mpr ⟨hlocal.not_workflow, hlocal.executor,
      hlocal.condition, hlocal.expression, hlocal.endCondition⟩⟩
    obtain ⟨t, rfl⟩ := hchildren.mpr hlocal.nested c hc
    exact ⟨t, rfl, hkids t (asksFor_iff.mpr hc)⟩

/-- Without cycles, asking for further steps comes to an end. -/
theorem acc_of_acyclic
    (hacyclic : Acyclic R cfg)
    (s : StepConfig) :
    Acc (Function.swap (AsksFor R cfg)) s := by
  have hfinite : {t | t ∈ cfg.steps}.Finite := cfg.steps.finite_toSet
  have hstep : ∀ t s, Function.swap (AsksFor R cfg) t s →
      t ∈ {t | t ∈ cfg.steps} ∨ t.nestedSize < s.nestedSize :=
    fun t s h => mem_steps_or_nestedSize_lt (asksFor_iff.mp h)
  refine (Descent.acc_iff_no_anchor_cycle hfinite hstep s).mpr fun t ht _ hcycle => ?_
  exact hacyclic t ht (transGen_swap.mp hcycle)

/-- Without cycles, a step has a build exactly when all it leads to resolve locally. -/
theorem resolves_iff_visited
    (hcel : ∀ value, R.isCelExpression value = true ↔ ¬ identifier value)
    (hacyclic : Acyclic R cfg)
    (s : StepConfig) :
    (buildPlan (R.context cfg)).Resolves s ↔
      ∀ t, ReflTransGen (AsksFor R cfg) s t → ResolvesLocally R identifier t := by
  constructor
  · intro h t ht
    induction ht using ReflTransGen.head_induction_on with
    | refl =>
        exact ((resolves_iff_locally R cfg identifier hcel t).mp h).1
    | head hask _ ih =>
        exact ih (((resolves_iff_locally R cfg identifier hcel _).mp h).2 _ hask)
  · intro h
    induction acc_of_acyclic R cfg hacyclic s with
    | intro s _ ih =>
        refine (resolves_iff_locally R cfg identifier hcel s).mpr ⟨h s .refl, fun t ht => ?_⟩
        exact ih t ht fun u hu => h u (.head ht hu)

/-- The build returns a workflow exactly when every top-level step has a build. -/
theorem build_returned_iff :
    (∃ depth w, build R depth cfg = returned w) ↔
      ∀ s ∈ cfg.steps, (buildPlan (R.context cfg)).Resolves s := by
  have hwalk : (∃ depth w, build R depth cfg = returned w) ↔
      ∃ kids, (buildPlan (R.context cfg)).ReturnsAll (rootChildren cfg) kids := by
    simp only [build_eq_walkList, bind_eq_returned_iff]
    constructor
    · rintro ⟨depth, w, kids, hkids, -⟩
      exact ⟨kids, depth, hkids⟩
    · rintro ⟨kids, depth, hkids⟩
      exact ⟨depth, _, kids, hkids, rfl⟩
  rw [hwalk]
  constructor
  · rintro ⟨kids, hkids⟩ s hs
    rw [Plan.returnsAll_iff] at hkids
    obtain ⟨i, hi⟩ := List.mem_iff_getElem?.mp (List.mem_map_of_mem hs : .ok s ∈ rootChildren cfg)
    obtain ⟨b, -, s', hsame, hreturns⟩ := Paired.exists_at hkids hi
    cases hsame
    exact Plan.resolves_iff_exists_returns.mpr ⟨b, hreturns⟩
  · intro h
    have hall : ∀ c ∈ rootChildren cfg, ∃ b, ∃ s, c = .ok s ∧
        (buildPlan (R.context cfg)).Returns s b := by
      intro c hc
      obtain ⟨s, hs, rfl⟩ := List.mem_map.mp hc
      obtain ⟨b, hb⟩ := (h s hs).exists_returns
      exact ⟨b, s, rfl, hb⟩
    obtain ⟨kids, hkids⟩ := Paired.exists_list hall
    exact ⟨kids, Plan.returnsAll_iff.mpr hkids⟩

/-- Without cycles the build comes to a result. -/
theorem terminates_of_acyclic
    (hacyclic : Acyclic R cfg) :
    Terminates R cfg := by
  have hstep : ∀ t s, (buildPlan (R.context cfg)).LiveChild t s →
      t ∈ {t | t ∈ cfg.steps} ∨ t.nestedSize < s.nestedSize :=
    fun t s h => mem_steps_or_nestedSize_lt h.mem
  rw [terminates_iff_settlesAll,
    Plan.settlesAll_iff_no_live_cycle cfg.steps.finite_toSet hstep]
  intro t ht _ _ _ hcycle
  have hask : ∀ s t, LeadsTo R cfg s t → AsksFor R cfg s t := fun s t h => asksFor_iff.mpr h.mem
  exact hacyclic t ht (TransGen.mono hask _ _ (transGen_swap.mp hcycle))

/--
Without cycles, the build returns a workflow exactly when every step it visits resolves
locally; else it raises one of the documented exceptions, and returns no workflow.
-/
theorem build_succeeds_iff
    (hcel : ∀ value, R.isCelExpression value = true ↔ ¬ identifier value)
    (hacyclic : Acyclic R cfg) :
    ((∃ depth w, build R depth cfg = returned w) ↔
      ∀ t, Visited R cfg t → ResolvesLocally R identifier t) ∧
    ((¬ ∀ t, Visited R cfg t → ResolvesLocally R identifier t) →
      ∃ depth error, build R depth cfg = raised error ∧
        (error.errorClass = .valueError ∨ error.errorClass = .notImplementedError) ∧
        ∀ deeper w, build R deeper cfg ≠ returned w) := by
  have hiff : (∃ depth w, build R depth cfg = returned w) ↔
      ∀ t, Visited R cfg t → ResolvesLocally R identifier t := by
    rw [build_returned_iff]
    constructor
    · rintro h t ⟨s, hs, hst⟩
      exact (resolves_iff_visited R cfg identifier hcel hacyclic s).mp (h s hs) t hst
    · intro h s hs
      exact (resolves_iff_visited R cfg identifier hcel hacyclic s).mpr
        fun t ht => h t ⟨s, hs, ht⟩
  refine ⟨hiff, fun hnot => ?_⟩
  have hnone : ∀ depth w, build R depth cfg ≠ returned w :=
    fun depth w h => hnot (hiff.mp ⟨depth, w, h⟩)
  obtain ⟨depth, result, hresult⟩ := terminates_of_acyclic R cfg hacyclic
  cases result with
  | ok w => exact absurd hresult (hnone depth w)
  | error error =>
      refine ⟨depth, error, hresult, ?_, hnone⟩
      cases error.errorClass with
      | valueError => exact Or.inl rfl
      | notImplementedError => exact Or.inr rfl

end Whole

/-- What counts as an identifier among the small registries. -/
def plainIdentifier (value : String) : Prop :=
  value.toList.all (fun c => c.isAlphanum || c == '_') = true

/-- The reference of the gated workflow leads to a step that leads nowhere. -/
theorem acyclic_gated : Acyclic plainRegistries gatedConfig := by
  let gate : StepConfig :=
    { step := "gate", type := .condition, ifTrue := some "work", valid := rfl }
  let work : StepConfig := { step := "work", agent := some "worker", valid := rfl }
  have hwork : ∀ t, ¬ AsksFor plainRegistries gatedConfig work t := by
    intro t h
    have hmem := asksFor_iff.mp h
    have hchildren : stepChildren (plainRegistries.context gatedConfig) work = [] := rfl
    rw [hchildren] at hmem
    cases hmem
  have hgate : ∀ t, AsksFor plainRegistries gatedConfig gate t → t = work := by
    intro t h
    have hmem := asksFor_iff.mp h
    have hchildren : stepChildren (plainRegistries.context gatedConfig) gate = [.ok work] := rfl
    rw [hchildren, List.mem_singleton] at hmem
    exact Except.ok.inj hmem
  have hends : ∀ t u, ReflTransGen (AsksFor plainRegistries gatedConfig) work t →
      AsksFor plainRegistries gatedConfig t u → False := by
    intro t u htrans hask
    rcases ReflTransGen.cases_head htrans with rfl | ⟨v, hv, -⟩
    · exact hwork u hask
    · exact hwork v hv
  intro t ht hcycle
  obtain ⟨u, htu, hut⟩ := TransGen.head'_iff.mp hcycle
  have hsteps : gatedConfig.steps = [gate, work] := rfl
  rw [hsteps, List.mem_cons, List.mem_singleton] at ht
  rcases ht with rfl | rfl
  · rw [hgate u htu] at hut
    exact hends _ _ hut htu
  · exact hwork u htu

theorem build_succeeds_gated :
    ((∃ depth w, build plainRegistries depth gatedConfig = returned w) ↔
      ∀ t, Visited plainRegistries gatedConfig t →
        ResolvesLocally plainRegistries plainIdentifier t) ∧
    ((¬ ∀ t, Visited plainRegistries gatedConfig t →
        ResolvesLocally plainRegistries plainIdentifier t) →
      ∃ depth error, build plainRegistries depth gatedConfig = raised error ∧
        (error.errorClass = .valueError ∨ error.errorClass = .notImplementedError) ∧
        ∀ deeper w, build plainRegistries deeper gatedConfig ≠ returned w) :=
  build_succeeds_iff plainRegistries gatedConfig plainIdentifier
    (fun value => by simp [plainRegistries, plainIdentifier]) acyclic_gated

end Workflow
end YamlAgno

import YamlAgno.Library.PyValue
import Mathlib.Data.PNat.Notation
import Mathlib.Data.List.Nodup
import Mathlib.Algebra.Order.BigOperators.Group.List

/-!
# Workflow configuration: the schema of the workflow file

`StepConfig` unifies the seven workflow primitives in one shape; which fields it
may carry depends on its `type`, and `validateTypeSpecificFields` is the check.
Nested steps are kept as raw dictionaries and are read only when they are built
(`StepConfig.parse`).  `WorkflowConfig` adds the two checks made across the
top-level steps: unique ids, and branch references that point to one of them.

A validated value carries the outcome of its check as a field, so every
`StepConfig` and every `WorkflowConfig` is an accepted one.
-/

namespace YamlAgno
namespace Workflow

/-- The members of the step type enumeration. -/
inductive StepType where
  | function
  | step
  | steps
  | loop
  | parallel
  | condition
  | router
  | workflow
deriving DecidableEq, Repr

/-- The member with the given (capitalized) value. -/
def StepType.ofValue : String → Option StepType
  | "Function" => some .function
  | "Step" => some .step
  | "Steps" => some .steps
  | "Loop" => some .loop
  | "Parallel" => some .parallel
  | "Condition" => some .condition
  | "Router" => some .router
  | "Workflow" => some .workflow
  | _ => none

/-- One step entry of a workflow, field by field. -/
structure StepFields where
  step : String
  type : StepType := .step
  description : Option String := none
  agent : Option String := none
  team : Option String := none
  function : Option String := none
  workflow : Option String := none
  execute : Bool := true
  finally_ : Bool := false
  humanReview : Option PyDict := none
  steps : List PyDict := []
  condition : Option String := none
  ifTrue : Option String := none
  ifFalse : Option String := none
  expression : Option String := none
  cases : List (String × String) := []
  endCondition : Option String := none
  maxIterations : Option ℕ+ := none

/-- The types that may carry nested steps. -/
def StepType.nestable (t : StepType) : Bool :=
  t = .parallel ∨ t = .steps ∨ t = .condition ∨ t = .loop

/-- Type-specific fields are only set for the matching step type. -/
def validateTypeSpecificFields
    (self : StepFields) :
    Except String Unit :=
  if self.steps ≠ [] ∧ ¬ self.type.nestable then
    .error "Nested steps only allowed for Parallel/Steps/Condition/Loop types."
  else if (self.condition.isSome ∨ self.ifTrue.isSome ∨ self.ifFalse.isSome)
      ∧ self.type ≠ .condition then
    .error "condition/if_true/if_false only allowed for Condition type."
  else if (self.expression.isSome ∨ self.cases ≠ []) ∧ self.type ≠ .router then
    .error "expression/cases only allowed for Router type."
  else if (self.endCondition.isSome ∨ self.maxIterations.isSome) ∧ self.type ≠ .loop then
    .error "end_condition/max_iterations only allowed for Loop type."
  else
    .ok ()

/-- A step entry that its validator accepts. -/
structure StepConfig extends StepFields where
  valid : validateTypeSpecificFields toStepFields = .ok ()

/-- Why a raw step is refused: one of its fields, or the check across them. -/
inductive ValidationError where
  | field
  | model (message : String)
deriving DecidableEq

/-! ## Reading a raw step -/

/-- Field names and aliases of the schema; any other key is forbidden. -/
def stepKeys : List String :=
  ["step", "type", "description", "agent", "team", "function", "workflow", "execute",
    "finally", "finally_", "human_review", "steps", "condition", "if_true", "if_false",
    "expression", "cases", "end_condition", "max_iterations"]

/-- The key that holds `finally_`: its alias, else its own name. -/
def finallyKey (raw : PyDict) : String :=
  if (raw.lookup "finally").isSome then "finally" else "finally_"

/-- No key is left over once the fields have taken theirs. -/
def noExtraKeys (raw : PyDict) : Bool :=
  raw.all fun entry =>
    stepKeys.contains entry.1 &&
      !(entry.1 == "finally_" && finallyKey raw == "finally")

variable (C : Coercions)

/-- A dictionary with string keys and any values. -/
def readDict : PyValue → Option PyDict :=
  PyField.dictOf C.str some

/-- An iteration count: an integer that is at least one. -/
def readCount (value : PyValue) : Option ℕ+ := do
  let count ← C.int value
  if h : 0 < count.toNat then some ⟨count.toNat, h⟩ else none

/-- The fields of a raw step, when each of them is acceptable by itself. -/
def readFields (raw : PyDict) : Option StepFields := do
  guard (noExtraKeys raw)
  return {
    step := ← PyField.required C.str raw "step"
    type := ← PyField.withDefault .step (fun v => C.str v >>= StepType.ofValue) raw "type"
    description := ← PyField.optional C.str raw "description"
    agent := ← PyField.optional C.str raw "agent"
    team := ← PyField.optional C.str raw "team"
    function := ← PyField.optional C.str raw "function"
    workflow := ← PyField.optional C.str raw "workflow"
    execute := ← PyField.withDefault true C.bool raw "execute"
    finally_ := ← PyField.withDefault false C.bool raw (finallyKey raw)
    humanReview := ← PyField.optional (readDict C) raw "human_review"
    steps := ← PyField.withDefault [] (PyField.listOf (readDict C)) raw "steps"
    condition := ← PyField.optional C.str raw "condition"
    ifTrue := ← PyField.optional C.str raw "if_true"
    ifFalse := ← PyField.optional C.str raw "if_false"
    expression := ← PyField.optional C.str raw "expression"
    cases := ← PyField.withDefault [] (PyField.dictOf C.str C.str) raw "cases"
    endCondition := ← PyField.optional C.str raw "end_condition"
    maxIterations := ← PyField.optional (readCount C) raw "max_iterations" }

/-- Runs the check across the fields. -/
def StepConfig.ofFields
    (fields : StepFields) :
    Except ValidationError StepConfig :=
  match h : validateTypeSpecificFields fields with
  | .error message => .error (.model message)
  | .ok () => .ok ⟨fields, h⟩

/-- `StepConfig(**raw)`. -/
def StepConfig.parse
    (raw : PyDict) :
    Except ValidationError StepConfig :=
  match readFields C raw with
  | none => .error .field
  | some fields => StepConfig.ofFields fields

/-! ## What validation guarantees -/

theorem validateTypeSpecificFields_eq_ok_iff
    (s : StepFields) :
    validateTypeSpecificFields s = .ok () ↔
      (s.steps ≠ [] → s.type.nestable) ∧
        ((s.condition.isSome ∨ s.ifTrue.isSome ∨ s.ifFalse.isSome) → s.type = .condition) ∧
        ((s.expression.isSome ∨ s.cases ≠ []) → s.type = .router) ∧
        ((s.endCondition.isSome ∨ s.maxIterations.isSome) → s.type = .loop) := by
  simp only [validateTypeSpecificFields]
  split_ifs <;> simp_all

namespace StepConfig

variable (s : StepConfig)

theorem steps_eq_nil
    (h : ¬ s.type.nestable) :
    s.steps = [] := by
  by_contra hne
  exact h ((validateTypeSpecificFields_eq_ok_iff _).mp s.valid |>.1 hne)

theorem ifTrue_eq_none
    (h : s.type ≠ .condition) :
    s.ifTrue = none := by
  by_contra hne
  have hsome : s.ifTrue.isSome := Option.isSome_iff_ne_none.mpr hne
  exact h ((validateTypeSpecificFields_eq_ok_iff _).mp s.valid |>.2.1 (Or.inr (Or.inl hsome)))

theorem ifFalse_eq_none
    (h : s.type ≠ .condition) :
    s.ifFalse = none := by
  by_contra hne
  have hsome : s.ifFalse.isSome := Option.isSome_iff_ne_none.mpr hne
  exact h ((validateTypeSpecificFields_eq_ok_iff _).mp s.valid |>.2.1 (Or.inr (Or.inr hsome)))

theorem cases_eq_nil
    (h : s.type ≠ .router) :
    s.cases = [] := by
  by_contra hne
  exact h ((validateTypeSpecificFields_eq_ok_iff _).mp s.valid |>.2.2.1 (Or.inr hne))

/-- Room taken by the nested steps that are still to be read. -/
noncomputable def nestedSize : ℕ :=
  (s.steps.map fun raw => PyField.valuesSize raw + 1).sum

end StepConfig

variable {C}

theorem StepConfig.ofFields_eq_ok_iff
    {fields : StepFields}
    {s : StepConfig} :
    StepConfig.ofFields fields = .ok s ↔ s.toStepFields = fields := by
  unfold StepConfig.ofFields
  split
  · rename_i message hmessage
    constructor
    · intro h
      cases h
    · rintro rfl
      rw [s.valid] at hmessage
      cases hmessage
  · rename_i hvalid
    constructor
    · intro h
      cases h
      rfl
    · rintro rfl
      rfl

/-- Where the nested steps of the fields come from. -/
theorem steps_of_readFields
    {raw : PyDict}
    {fields : StepFields}
    (h : readFields C raw = some fields) :
    PyField.withDefault [] (PyField.listOf (readDict C)) raw "steps" = some fields.steps := by
  unfold readFields at h
  -- The check of the keys and ten fields are read first, seven fields afterwards.
  iterate 11 obtain ⟨_, _, h⟩ := Option.bind_eq_some_iff.mp h
  obtain ⟨nested, hnested, h⟩ := Option.bind_eq_some_iff.mp h
  iterate 7 obtain ⟨_, _, h⟩ := Option.bind_eq_some_iff.mp h
  cases h
  exact hnested

/-- A nested step has less left to be read than the raw step it came from. -/
theorem nestedSize_lt_of_parse
    {raw : PyDict}
    {s : StepConfig}
    (h : StepConfig.parse C raw = .ok s) :
    s.nestedSize < PyField.valuesSize raw + 1 := by
  unfold StepConfig.parse at h
  cases hfields : readFields C raw with
  | none =>
      simp [hfields] at h
  | some fields =>
      simp only [hfields] at h
      have hs := StepConfig.ofFields_eq_ok_iff.mp h
      have hsteps :
          PyField.withDefault [] (PyField.listOf (readDict C)) raw "steps" =
            some s.steps := by
        rw [hs]
        exact steps_of_readFields hfields
      cases hlookup : raw.lookup "steps" with
      | none =>
          simp only [PyField.withDefault, hlookup, Option.some.injEq] at hsteps
          simp [StepConfig.nestedSize, ← hsteps]
      | some value =>
          simp only [PyField.withDefault, hlookup] at hsteps
          have hlt := PyField.valuesSize_sum_le_of_listOf hsteps
          have hle := PyField.sizeOf_le_valuesSize hlookup
          simp only [StepConfig.nestedSize]
          omega

/-- A step that is read out of another step's nested steps has less left to be read. -/
theorem nestedSize_lt_of_mem
    {s s' : StepConfig}
    {raw : PyDict}
    (hraw : raw ∈ s.steps)
    (h : StepConfig.parse C raw = .ok s') :
    s'.nestedSize < s.nestedSize := by
  have hlt := nestedSize_lt_of_parse h
  have hle := List.single_le_sum (by simp) _
    (List.mem_map_of_mem (f := fun raw => PyField.valuesSize raw + 1) hraw)
  simp only [StepConfig.nestedSize] at *
  omega

/-! ## The workflow -/

/-- `if_true`, `if_false` and every value of `cases`. -/
def StepFields.branchRefs (s : StepFields) : List (Option String) :=
  [s.ifTrue, s.ifFalse] ++ s.cases.map fun case => some case.2

/-- A set, non-empty reference to an id that does not exist. -/
def dangling
    (valid : List String)
    (ref : Option String) :
    Option String :=
  ref.filter fun id => id ≠ "" ∧ id ∉ valid

/-- Step ids are unique and branch references are valid. -/
def validateStepsIntegrity
    (steps : List StepConfig) :
    Except String Unit :=
  let stepIds := steps.map fun s => s.step
  if ¬ stepIds.Nodup then
    .error "Duplicate step ids detected in workflow."
  else
    match (steps.flatMap fun s => s.branchRefs).findSome? (dangling stepIds) with
    | some ref => .error s!"Branch references non-existent step: {ref}"
    | none => .ok ()

/-- An accepted workflow configuration. -/
structure WorkflowConfig where
  name : String
  name_length : 1 ≤ name.length ∧ name.length ≤ 100
  description : Option String
  steps : List StepConfig
  steps_nonempty : steps ≠ []
  integrity : validateStepsIntegrity steps = .ok ()

theorem dangling_eq_none_iff
    {valid : List String}
    {ref : Option String} :
    dangling valid ref = none ↔ ∀ id, ref = some id → id ≠ "" → id ∈ valid := by
  cases ref with
  | none =>
      simp [dangling]
  | some id =>
      simp [dangling]

theorem validateStepsIntegrity_eq_ok_iff
    (steps : List StepConfig) :
    validateStepsIntegrity steps = .ok () ↔
      (steps.map fun s => s.step).Nodup ∧
        ∀ s ∈ steps, ∀ id, some id ∈ s.branchRefs → id ≠ "" →
          id ∈ steps.map fun s => s.step := by
  unfold validateStepsIntegrity
  simp only
  split_ifs with hnodup
  · cases hfind : (steps.flatMap fun s => s.branchRefs).findSome?
        (dangling (steps.map fun s => s.step)) with
    | some ref =>
        simp only [reduceCtorEq, false_iff, not_and]
        intro _ hrefs
        obtain ⟨_, ref', _, hmem, hdangling, _⟩ := List.findSome?_eq_some_iff.mp hfind
        have hmem' : ref' ∈ steps.flatMap fun s => s.branchRefs := by simp [hmem]
        obtain ⟨s, hs, href⟩ := List.mem_flatMap.mp hmem'
        have hnone : dangling (steps.map fun s => s.step) ref' = none :=
          dangling_eq_none_iff.mpr (fun id hid hne => hrefs s hs id (hid ▸ href) hne)
        rw [hnone] at hdangling
        cases hdangling
    | none =>
        simp only [true_iff]
        refine ⟨hnodup, fun s hs id hid hne => ?_⟩
        have hall := List.findSome?_eq_none_iff.mp hfind
        have hnone := hall (some id) (List.mem_flatMap.mpr ⟨s, hs, hid⟩)
        exact dangling_eq_none_iff.mp hnone id rfl hne
  · simp [hnodup]

namespace WorkflowConfig

variable (cfg : WorkflowConfig)

/-- Ids of the top-level steps. -/
def stepIds : List String :=
  cfg.steps.map fun s => s.step

/-- `{s.step: s for s in cfg.steps}`. -/
def stepIndex (id : String) : Option StepConfig :=
  cfg.steps.reverse.find? fun s => s.step == id

theorem stepIds_nodup : cfg.stepIds.Nodup :=
  ((validateStepsIntegrity_eq_ok_iff cfg.steps).mp cfg.integrity).1

/-- A top-level step's branch references exist, unless they are empty. -/
theorem mem_stepIds_of_branchRef
    {s : StepConfig}
    (hs : s ∈ cfg.steps)
    {id : String}
    (hid : some id ∈ s.branchRefs)
    (hne : id ≠ "") :
    id ∈ cfg.stepIds :=
  ((validateStepsIntegrity_eq_ok_iff cfg.steps).mp cfg.integrity).2 s hs id hid hne

variable {cfg}

theorem mem_of_stepIndex
    {id : String}
    {s : StepConfig}
    (h : cfg.stepIndex id = some s) :
    s ∈ cfg.steps ∧ s.step = id := by
  refine ⟨List.mem_reverse.mp (List.mem_of_find?_eq_some h), ?_⟩
  simpa using List.find?_some h

/-- The index knows exactly the top-level ids. -/
theorem stepIndex_isSome_iff
    {id : String} :
    (cfg.stepIndex id).isSome ↔ id ∈ cfg.stepIds := by
  simp [stepIndex, stepIds]

theorem stepIndex_eq_none_iff
    {id : String} :
    cfg.stepIndex id = none ↔ id ∉ cfg.stepIds := by
  simp [stepIndex, stepIds]

/-- Each top-level step is found under its id. -/
theorem stepIndex_of_mem
    {s : StepConfig}
    (hs : s ∈ cfg.steps) :
    cfg.stepIndex s.step = some s := by
  have hid : s.step ∈ cfg.stepIds := List.mem_map_of_mem hs
  obtain ⟨t, ht⟩ := Option.isSome_iff_exists.mp (stepIndex_isSome_iff.mpr hid)
  obtain ⟨htmem, htstep⟩ := mem_of_stepIndex ht
  rw [ht, List.inj_on_of_nodup_map cfg.stepIds_nodup htmem hs htstep]

end WorkflowConfig

end Workflow
end YamlAgno

import YamlAgno.Library.PyText
import YamlAgno.Workflow.NestedSteps

/-!
# The two readings of an expression

An expression of the workflow file is read in two places.  The factory hands it
to the built condition, router or loop as it stands, once it has been told apart
from a callable's name.  `ConditionEvaluator` first strips surrounding whitespace
and the `$`-and-braces delimiters of a template, and evaluates what is left.

The two texts are the same exactly for expressions that have nothing to strip
(`handed_text_eq_evaluated_iff`).
-/

namespace YamlAgno
namespace Workflow

open Attempt Fallible PyText

variable {O : Objects}

namespace ConditionEvaluator

/-- `ConditionEvaluator()`, which wants the CEL package. -/
def create (celAvailable : Bool) : Except String Unit :=
  if celAvailable then .ok ()
  else .error "cel-python is not installed. Install with: pip install cel-python"

/-- `expr.startswith` and `expr.endswith` the template delimiters. -/
def isTemplate (expr : List Char) : Bool :=
  "$\x7b".toList.isPrefixOf expr && "\x7d".toList.isSuffixOf expr

/-- `_strip_template`, on the characters. -/
def stripDelimiters (expr : List Char) : List Char :=
  let expr := strip expr
  strip (if isTemplate expr then (expr.drop 2).dropLast else expr)

/-- `_strip_template`. -/
def stripTemplate (expr : String) : String :=
  String.ofList (stripDelimiters expr.toList)

/-- `evaluate`, given Agno's evaluation of a CEL text in a context. -/
def evaluate
    {M : Type → Type}
    (evaluateCel : String → PyDict → M Bool)
    (expression : String)
    (context : PyDict) :
    M Bool :=
  evaluateCel (stripTemplate expression)
    [("input", .dict (context.map fun entry => (.str entry.1, entry.2)))]

/-- The expression has nothing to strip. -/
def Bare (expr : String) : Prop :=
  Trimmed expr.toList ∧ isTemplate expr.toList = false

instance (expr : String) : Decidable (Bare expr) :=
  inferInstanceAs (Decidable (_ ∧ _))

/-- Without its delimiters a template is shorter. -/
theorem length_of_isTemplate
    {expr : List Char}
    (h : isTemplate expr = true) :
    ((expr.drop 2).dropLast).length < expr.length := by
  have hprefix : "$\x7b".toList <+: expr :=
    List.isPrefixOf_iff_prefix.mp (Bool.and_eq_true_iff.mp h).1
  have hlength := hprefix.length_le
  simp only [List.length_dropLast, List.length_drop]
  simp at hlength
  omega

/-- Nothing is stripped exactly from bare text. -/
theorem stripDelimiters_eq_self_iff
    (expr : List Char) :
    stripDelimiters expr = expr ↔ Trimmed expr ∧ isTemplate expr = false := by
  rw [← strip_eq_self_iff]
  constructor
  · intro h
    have hlength := congrArg List.length h
    cases htemplate : isTemplate (strip expr) with
    | true =>
        simp only [stripDelimiters, htemplate, if_true] at hlength
        have hinner := strip_length_le ((strip expr).drop 2).dropLast
        have hshorter := length_of_isTemplate htemplate
        have hle := strip_length_le expr
        omega
    | false =>
        simp only [stripDelimiters, htemplate, Bool.false_eq_true, if_false] at hlength
        have hinner := strip_length_le (strip expr)
        have hstrip : strip expr = expr :=
          (strip_sublist expr).eq_of_length_le (by omega)
        rw [hstrip] at htemplate
        exact ⟨hstrip, htemplate⟩
  · rintro ⟨hstrip, htemplate⟩
    simp [stripDelimiters, hstrip, htemplate]

theorem stripTemplate_eq_self_iff
    (expr : String) :
    stripTemplate expr = expr ↔ Bare expr := by
  rw [Bare, ← stripDelimiters_eq_self_iff]
  constructor
  · intro h
    have hchars := congrArg String.toList h
    simpa [stripTemplate] using hchars
  · intro h
    simp [stripTemplate, h]

end ConditionEvaluator

/-! ## The expression slots -/

/-- The expression of a step: `condition`, `expression` or `end_condition`. -/
def StepConfig.slot (s : StepConfig) : Option String :=
  match s.type with
  | .condition => s.condition
  | .router => s.expression
  | .loop => s.endCondition
  | _ => none

/-- What the primitive got for it: evaluator, selector or end condition. -/
def BuiltStep.slot : BuiltStep O → Option (CallableOrCel O.Callable)
  | condition _ _ evaluator _ _ => evaluator
  | router _ _ selector _ => selector
  | loop _ _ _ _ endCondition => endCondition
  | _ => none

theorem BuiltStep.SameButName.slot_eq
    {b c : BuiltStep O}
    (h : b.SameButName c) :
    c.slot = b.slot := by
  obtain ⟨newName, rfl⟩ := h
  cases b <;> rfl

/-- The slot of a built primitive is the resolved expression of its step. -/
theorem BuildsTo.resolveSlot_eq
    {ctx : BuildContext O}
    {s : StepConfig}
    {b : BuiltStep O}
    (h : BuildsTo ctx s b) :
    resolveSlot ctx s.slot = .ok b.slot := by
  unfold StepConfig.slot
  cases ht : s.type with
  | step =>
      obtain ⟨_, rfl, _⟩ := h.of_step (Or.inl ht)
      rfl
  | function =>
      obtain ⟨_, rfl, _⟩ := h.of_step (Or.inr ht)
      rfl
  | steps =>
      obtain ⟨_, _, rfl⟩ := h.of_steps ht
      rfl
  | parallel =>
      obtain ⟨_, _, rfl⟩ := h.of_parallel ht
      rfl
  | workflow =>
      exact absurd h (not_buildsTo_of_workflow ht)
  | condition | router | loop =>
      obtain ⟨kids, assemble, _, hfinish, rfl⟩ := h.parts
      simp only [stepFinish, ht] at hfinish
      obtain ⟨slot, hslot, rfl⟩ := map_eq_ok_iff.mp hfinish
      exact hslot

section Handed

variable {R : Registries O} {cfg : WorkflowConfig} {w : BuiltWorkflow O}

/-- An expression that is no callable's name is handed on as it stands. -/
theorem BuiltAs.slot_of_cel
    {s : StepConfig}
    {b : BuiltStep O}
    (h : BuiltAs R cfg s b)
    {e : String}
    (hslot : s.slot = some e)
    (hcel : R.isCelExpression e = true) :
    b.slot = some (.cel e) := by
  obtain ⟨b', hb', hsame⟩ := h
  have hresolve := hb'.resolveSlot_eq
  rw [hslot] at hresolve
  simp only [resolveSlot, resolveCallableOrCel, Registries.context, hcel, if_true,
    Except.map, Except.ok.injEq] at hresolve
  rw [hsame.slot_eq, hresolve]

/--
At every node of a built workflow, the CEL text it was handed is the text that
`ConditionEvaluator` evaluates exactly when the expression is bare.
-/
theorem handed_text_eq_evaluated_iff
    (R : Registries O)
    (cfg : WorkflowConfig)
    {depth : ℕ}
    (h : build R depth cfg = returned w)
    {path : List Hop}
    {s : StepConfig}
    {b : BuiltStep O}
    (hnode : NodeAt R cfg w path s b)
    {e : String}
    (hslot : s.slot = some e)
    (hcel : R.isCelExpression e = true) :
    b.slot = some (.cel (ConditionEvaluator.stripTemplate e)) ↔ ConditionEvaluator.Bare e := by
  rw [(hnode.builtAs h).slot_of_cel hslot hcel, ← ConditionEvaluator.stripTemplate_eq_self_iff]
  simp [eq_comm]

end Handed

/-- A condition on the amount of the input, given as it stands. -/
def bareCondition : StepConfig where
  step := "gate"
  type := .condition
  condition := some "input.amount > 1000"
  valid := rfl

/-- The same condition, in the template form. -/
def templateCondition : StepConfig where
  step := "gate"
  type := .condition
  condition := some "$\x7binput.amount > 1000\x7d"
  valid := rfl

theorem handed_text_eq_evaluated_bare :
    (BuiltStep.condition (O := plainObjects) "gate" none
        (some (.cel "input.amount > 1000")) [] none).slot =
      some (.cel (ConditionEvaluator.stripTemplate "input.amount > 1000")) ↔
    ConditionEvaluator.Bare "input.amount > 1000" :=
  handed_text_eq_evaluated_iff plainRegistries (singleStepConfig bareCondition rfl)
    (w := ⟨"single", none, [_]⟩) (s := bareCondition)
    (show build plainRegistries 1 _ = _ from rfl) (.top (i := 0) rfl rfl) rfl
    (by decide +kernel)

/-- A template is handed on with its delimiters, and evaluated without. -/
theorem template_handed_with_delimiters :
    ¬ ∀ (O : Objects) (R : Registries O) (cfg : WorkflowConfig) (w : BuiltWorkflow O)
        (depth : ℕ) (path : List Hop) (s : StepConfig) (b : BuiltStep O) (e : String),
      build R depth cfg = returned w → NodeAt R cfg w path s b → s.slot = some e →
        R.isCelExpression e = true →
        b.slot = some (.cel (ConditionEvaluator.stripTemplate e)) := by
  intro hall
  let gate : BuiltStep plainObjects :=
    .condition "gate" none (some (.cel "$\x7binput.amount > 1000\x7d")) [] none
  have hslot := hall plainObjects plainRegistries (singleStepConfig templateCondition rfl)
    ⟨"single", none, [gate]⟩ 1 [.nested 0] templateCondition gate _ rfl (.top rfl rfl) rfl
    (by decide +kernel)
  have htext : ConditionEvaluator.stripTemplate "$\x7binput.amount > 1000\x7d" =
      "input.amount > 1000" := by
    decide +kernel
  rw [htext] at hslot
  simp [gate, BuiltStep.slot] at hslot

end Workflow
end YamlAgno

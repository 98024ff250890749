import YamlAgno.Models.ModelSpec
import YamlAgno.Library.PyValue
import Mathlib.Algebra.Order.Ring.Rat

/-!
# Expanded model specifications

`ModelExpandedSpec` and `FallbackConfig` of `models/model_spec.py` with all their fields, and how
they are validated from a mapping.  A fallback model is kept as it is written, a model string or
a mapping, until the chain is built.

The bounds of the schema are fields, so that a specification that violates it cannot be built.
-/

namespace YamlAgno

/-- An entry of `fallback_models`. -/
inductive FallbackEntry where
  | str (text : String)
  | dict (fields : PyDict)

/-- The routing strategies of a fallback configuration. -/
def routings : List String :=
  ["retry_only", "route_fallback", "retry_then_fallback", "fail"]

/-- The strategy for errors of the provider's limits. -/
def routeFallback : {text // text ∈ routings} :=
  ⟨"route_fallback", by decide⟩

/-- The strategy for other errors. -/
def retryThenFallback : {text // text ∈ routings} :=
  ⟨"retry_then_fallback", by decide⟩

/-- The hop budget of a configuration that states none. -/
def defaultHops : {n : ℤ // 1 ≤ n} :=
  ⟨3, by decide⟩

/-- `FallbackConfig`. -/
structure FallbackConfig where
  fallbackModels : List FallbackEntry
  onRateLimit : {text // text ∈ routings} := routeFallback
  onContextOverflow : {text // text ∈ routings} := routeFallback
  onError : {text // text ∈ routings} := retryThenFallback
  fallbackCallback : Option String := none
  maxFallbackHops : {n : ℤ // 1 ≤ n} := defaultHops
  propagateSession : Bool := true
  length_le : 1 ≤ fallbackModels.length ∧ fallbackModels.length ≤ 10

/-- How pydantic takes values for the fields of a specification: a string is taken as it is, and
an object may be a fallback configuration already. -/
structure SpecCoercions (F : Type) extends Coercions where
  str_str : ∀ s, str (.str s) = some s
  float : PyValue → Option F
  atLeast : ℚ → F → Bool
  atMost : ℚ → F → Bool
  fallbackObject : ℕ → Option FallbackConfig

/-- The coercions that take a value of the very type only, and an integer for a float. -/
def SpecCoercions.exact : SpecCoercions ℚ where
  toCoercions := Coercions.exact
  str_str _ := rfl
  float
    | .int value => some value
    | _ => none
  atLeast bound x := bound ≤ x
  atMost bound x := x ≤ bound
  fallbackObject _ := none

/-- `ModelExpandedSpec`, with all its fields. -/
structure FullModelSpec {F : Type} (P : SpecCoercions F) extends ModelExpandedSpec where
  name : Option String := none
  modelType : Option String := none
  supportsNativeStructuredOutputs : Option Bool := none
  supportsJsonSchemaOutputs : Option Bool := none
  temperature : Option {x : F // P.atLeast 0 x = true ∧ P.atMost 2 x = true} := none
  maxTokens : Option {n : ℤ // 1 ≤ n} := none
  topP : Option {x : F // P.atLeast 0 x = true ∧ P.atMost 1 x = true} := none
  topK : Option {n : ℤ // 0 ≤ n} := none
  stopSequences : Option (List String) := none
  seed : Option ℤ := none
  reasoningEffort : Option {text // text ∈ ["minimal", "low", "medium", "high"]} := none
  thinking : Option Bool := none
  cacheResponse : Option Bool := none
  cacheTtl : Option {n : ℤ // 0 ≤ n} := none
  cacheDir : Option String := none
  retries : Option {n : ℤ // 0 ≤ n ∧ n ≤ 10} := none
  delayBetweenRetries : Option {x : F // P.atLeast 0 x = true} := none
  exponentialBackoff : Option Bool := none
  retryWithGuidance : Option Bool := none
  retryWithGuidanceLimit : Option {n : ℤ // 0 ≤ n} := none
  fallback : Option FallbackConfig := none

section Validation

open PyField

variable {F : Type} (P : SpecCoercions F)

/-- A `Literal`, which takes none but its own strings. -/
def literal (texts : List String) : PyValue → Option {text // text ∈ texts} :=
  checked (fun text => text ∈ texts) Coercions.exact.str

/-- An entry of `fallback_models`: a string, or a dictionary with string keys. -/
def FallbackEntry.read (value : PyValue) : Option FallbackEntry :=
  match P.str value with
  | some text => some (.str text)
  | none => (dictOf P.str some value).map .dict

/-- The keys that `FallbackConfig` allows. -/
def FallbackConfig.keys : List String :=
  ["fallback_models", "on_rate_limit", "on_context_overflow", "on_error", "fallback_callback",
    "max_fallback_hops", "propagate_session"]

/-- The fields of `FallbackConfig`. -/
def FallbackConfig.read (raw : PyDict) : Option FallbackConfig := do
  let fallbackModels ← required (checked (fun entries => 1 ≤ entries.length ∧ entries.length ≤ 10)
    (listOf (FallbackEntry.read P))) raw "fallback_models"
  let onRateLimit ← withDefault routeFallback (literal routings) raw "on_rate_limit"
  let onContextOverflow ← withDefault routeFallback (literal routings) raw "on_context_overflow"
  let onError ← withDefault retryThenFallback (literal routings) raw "on_error"
  let fallbackCallback ← optional P.str raw "fallback_callback"
  let maxFallbackHops ← withDefault defaultHops (checked (fun n => 1 ≤ n) P.int) raw
    "max_fallback_hops"
  let propagateSession ← withDefault true P.bool raw "propagate_session"
  if raw.all (fun entry => keys.contains entry.1) = true then
    some ⟨fallbackModels.1, onRateLimit, onContextOverflow, onError, fallbackCallback,
      maxFallbackHops, propagateSession, fallbackModels.2⟩
  else none

/-- A value for the field `fallback`. -/
def FallbackConfig.ofValue : PyValue → Option FallbackConfig
  | .object identity _ => P.fallbackObject identity
  | value => (dictOf Coercions.exact.str some value).bind (FallbackConfig.read P)

/-- The keys that `ModelExpandedSpec` allows. -/
def FullModelSpec.keys : List String :=
  ["provider", "id", "name", "model_type", "supports_native_structured_outputs",
    "supports_json_schema_outputs", "temperature", "max_tokens", "top_p", "top_k",
    "stop_sequences", "seed", "reasoning_effort", "thinking", "cache_response", "cache_ttl",
    "cache_dir", "retries", "delay_between_retries", "exponential_backoff",
    "retry_with_guidance", "retry_with_guidance_limit", "fallback"]

/-- `ModelExpandedSpec.model_validate` of a mapping. -/
def FullModelSpec.modelValidate (raw : PyDict) : Option (FullModelSpec P) := do
  let provider ← required (checked (fun text => text ∈ supportedProviders) P.str) raw "provider"
  let id ← required (checked (fun text => text ≠ "") P.str) raw "id"
  let name ← optional P.str raw "name"
  let modelType ← optional P.str raw "model_type"
  let supportsNativeStructuredOutputs ←
    optional P.bool raw "supports_native_structured_outputs"
  let supportsJsonSchemaOutputs ← optional P.bool raw "supports_json_schema_outputs"
  let temperature ←
    optional (checked (fun x => P.atLeast 0 x = true ∧ P.atMost 2 x = true) P.float) raw
      "temperature"
  let maxTokens ← optional (checked (fun n => 1 ≤ n) P.int) raw "max_tokens"
  let topP ←
    optional (checked (fun x => P.atLeast 0 x = true ∧ P.atMost 1 x = true) P.float) raw "top_p"
  let topK ← optional (checked (fun n => 0 ≤ n) P.int) raw "top_k"
  let stopSequences ← optional (listOf P.str) raw "stop_sequences"
  let seed ← optional P.int raw "seed"
  let reasoningEffort ← optional (literal ["minimal", "low", "medium", "high"]) raw
    "reasoning_effort"
  let thinking ← optional P.bool raw "thinking"
  let cacheResponse ← optional P.bool raw "cache_response"
  let cacheTtl ← optional (checked (fun n => 0 ≤ n) P.int) raw "cache_ttl"
  let cacheDir ← optional P.str raw "cache_dir"
  let retries ← optional (checked (fun n => 0 ≤ n ∧ n ≤ 10) P.int) raw "retries"
  let delayBetweenRetries ←
    optional (checked (fun x => P.atLeast 0 x = true) P.float) raw "delay_between_retries"
  let exponentialBackoff ← optional P.bool raw "exponential_backoff"
  let retryWithGuidance ← optional P.bool raw "retry_with_guidance"
  let retryWithGuidanceLimit ← optional (checked (fun n => 0 ≤ n) P.int) raw
    "retry_with_guidance_limit"
  let fallback ← optional (FallbackConfig.ofValue P) raw "fallback"
  if raw.all (fun entry => keys.contains entry.1) = true then
    some
      { provider := provider.1, id := id.1, provider_mem := provider.2, id_ne := id.2
        name, modelType, supportsNativeStructuredOutputs, supportsJsonSchemaOutputs, temperature
        maxTokens, topP, topK, stopSequences, seed, reasoningEffort, thinking, cacheResponse
        cacheTtl, cacheDir, retries, delayBetweenRetries, exponentialBackoff, retryWithGuidance
        retryWithGuidanceLimit, fallback }
  else none

end Validation

/-- A specification with a provider, by an alias of it, and an id. -/
def FullModelSpec.gpt4o : FullModelSpec SpecCoercions.exact where
  provider := "openai"
  id := "gpt-4o"
  provider_mem := by decide
  id_ne := by decide

variable {F : Type} {P : SpecCoercions F}

/-- A mapping with a supported provider and an id only. -/
theorem FullModelSpec.modelValidate_pair
    {provider id : String}
    (hprovider : provider ∈ supportedProviders)
    (hid : id ≠ "") :
    modelValidate P [("provider", .str provider), ("id", .str id)] =
      some { provider := provider, id := id, provider_mem := hprovider, id_ne := hid } := by
  have hmissing : ∀ {α : Type} (read : PyValue → Option α) (key : String),
      key ≠ "provider" → key ≠ "id" →
      PyField.optional read [("provider", .str provider), ("id", .str id)] key = some none := by
    intro α read key hp hi
    rw [PyField.optional, PyField.withDefault, List.lookup_cons, beq_false_of_ne hp,
      List.lookup_cons, beq_false_of_ne hi]
    rfl
  have hp : PyField.required (PyField.checked (fun text => text ∈ supportedProviders) P.str)
      [("provider", .str provider), ("id", .str id)] "provider" = some ⟨provider, hprovider⟩ := by
    have hlookup : List.lookup "provider" [("provider", PyValue.str provider), ("id", .str id)] =
        some (.str provider) := rfl
    rw [PyField.required, hlookup, Option.bind_some, PyField.checked, P.str_str]
    exact dif_pos hprovider
  have hi : PyField.required (PyField.checked (fun text => text ≠ "") P.str)
      [("provider", .str provider), ("id", .str id)] "id" = some ⟨id, hid⟩ := by
    have hlookup : List.lookup "id" [("provider", PyValue.str provider), ("id", .str id)] =
        some (.str id) := rfl
    rw [PyField.required, hlookup, Option.bind_some, PyField.checked, P.str_str]
    exact dif_pos hid
  have hkeys : List.all [("provider", PyValue.str provider), ("id", .str id)]
      (fun entry => keys.contains entry.1) = true := by
    simp [keys]
  rw [modelValidate, hp, hi]
  simp (disch := decide) only [hmissing, Option.bind_eq_bind, Option.bind_some, hkeys, if_true]

end YamlAgno

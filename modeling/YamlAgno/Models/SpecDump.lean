import YamlAgno.Models.ExpandedSpec

/-!
# The dump of a model specification

`ModelExpandedSpec.model_dump(exclude_none=True)`: the fields of the class in their order, without
those that are `None`.
-/

namespace YamlAgno

/-- A value of a field that is not `None`. -/
inductive SpecValue (F : Type) where
  | str (text : String)
  | bool (value : Bool)
  | int (value : ℤ)
  | float (value : F)
  | texts (texts : List String)
  | fallback (config : FallbackConfig)

namespace FullModelSpec

variable {F : Type} {P : SpecCoercions F}

/-- The fields in the order of the class. -/
def fields (spec : FullModelSpec P) : List (String × Option (SpecValue F)) :=
  [("provider", some (.str spec.provider)),
   ("id", some (.str spec.id)),
   ("name", spec.name.map .str),
   ("model_type", spec.modelType.map .str),
   ("supports_native_structured_outputs", spec.supportsNativeStructuredOutputs.map .bool),
   ("supports_json_schema_outputs", spec.supportsJsonSchemaOutputs.map .bool),
   ("temperature", spec.temperature.map fun x => .float x.1),
   ("max_tokens", spec.maxTokens.map fun n => .int n.1),
   ("top_p", spec.topP.map fun x => .float x.1),
   ("top_k", spec.topK.map fun n => .int n.1),
   ("stop_sequences", spec.stopSequences.map .texts),
   ("seed", spec.seed.map .int),
   ("reasoning_effort", spec.reasoningEffort.map fun text => .str text.1),
   ("thinking", spec.thinking.map .bool),
   ("cache_response", spec.cacheResponse.map .bool),
   ("cache_ttl", spec.cacheTtl.map fun n => .int n.1),
   ("cache_dir", spec.cacheDir.map .str),
   ("retries", spec.retries.map fun n => .int n.1),
   ("delay_between_retries", spec.delayBetweenRetries.map fun x => .float x.1),
   ("exponential_backoff", spec.exponentialBackoff.map .bool),
   ("retry_with_guidance", spec.retryWithGuidance.map .bool),
   ("retry_with_guidance_limit", spec.retryWithGuidanceLimit.map fun n => .int n.1),
   ("fallback", spec.fallback.map .fallback)]

/-- `model_dump(exclude_none=True)`. -/
def dump (spec : FullModelSpec P) : List (String × SpecValue F) :=
  spec.fields.filterMap fun field => field.2.map fun value => (field.1, value)

theorem keys_fields (spec : FullModelSpec P) :
    spec.fields.map Prod.fst = keys :=
  rfl

/-- The keys of the dump are those of the class, less some. -/
theorem keys_dump_sublist (spec : FullModelSpec P) :
    (spec.dump.map Prod.fst).Sublist keys := by
  have hfilter : ∀ fields : List (String × Option (SpecValue F)),
      ((fields.filterMap fun field => field.2.map fun value => (field.1, value)).map
        Prod.fst).Sublist (fields.map Prod.fst) := by
    intro fields
    induction fields with
    | nil => exact .slnil
    | cons field fields ih =>
        obtain ⟨key, value⟩ := field
        cases value with
        | none => exact ih.cons key
        | some value => exact ih.cons_cons key
  exact keys_fields spec ▸ hfilter spec.fields

theorem nodup_keys_dump (spec : FullModelSpec P) :
    (spec.dump.map Prod.fst).Nodup :=
  spec.keys_dump_sublist.nodup (by decide)

end FullModelSpec
end YamlAgno

import YamlAgno.Models.FallbackChain
import YamlAgno.Models.SpecDump
import Mathlib.Data.Rat.Denumerable

/-!
# Specifications written out and read again

`model_dump(exclude_none=True)` of a specification is a dictionary of plain values, and
`model_validate` reads it back (`modelValidate_document`).  What pydantic does to a value of the
very type of a field is given, with what a float looks like (`TakesOwn`).

So whatever `parse_model_spec` returns can be written out and is parsed again to the same
specification, and the entries of a fallback chain can be written so without a change to the
models that are built (`entry_written`).
-/

namespace YamlAgno

open Fallible PyField PyText

/-- A value of the type of a field is taken as it is; `ofFloat` is the float as a value. -/
structure SpecCoercions.TakesOwn {F : Type} (P : SpecCoercions F) (ofFloat : F → PyValue) :
    Prop where
  bool : ∀ b, P.bool (.bool b) = some b
  int : ∀ n, P.int (.int n) = some n
  float : ∀ x, P.float (ofFloat x) = some x
  float_ne : ∀ x, ofFloat x ≠ .none
  str_dict : ∀ entries, P.str (.dict entries) = none

/-! ## What is written -/

/-- An entry of `fallback_models`, which is dumped as it is. -/
def FallbackEntry.value : FallbackEntry → PyValue
  | .str text => .str text
  | .dict fields => .ofDict fields

namespace FallbackConfig

/-- The fields in the order of the class. -/
def fields (config : FallbackConfig) : List (String × Option PyValue) :=
  [("fallback_models", some (.list (config.fallbackModels.map FallbackEntry.value))),
   ("on_rate_limit", some (.str config.onRateLimit)),
   ("on_context_overflow", some (.str config.onContextOverflow)),
   ("on_error", some (.str config.onError)),
   ("fallback_callback", config.fallbackCallback.map .str),
   ("max_fallback_hops", some (.int config.maxFallbackHops)),
   ("propagate_session", some (.bool config.propagateSession))]

/-- `model_dump(exclude_none=True)`. -/
def document (config : FallbackConfig) : PyDict :=
  present id config.fields

end FallbackConfig

section Document

variable {F : Type} {P : SpecCoercions F} (ofFloat : F → PyValue)

/-- A dumped value. -/
def SpecValue.value : SpecValue F → PyValue
  | .str text => .str text
  | .bool value => .bool value
  | .int value => .int value
  | .float value => ofFloat value
  | .texts items => .list (items.map .str)
  | .fallback config => .ofDict config.document

/-- `model_dump(exclude_none=True)`, as a dictionary of values. -/
def FullModelSpec.document (spec : FullModelSpec P) : PyDict :=
  spec.dump.map fun field => (field.1, field.2.value ofFloat)

end Document

/-! ## What is read -/

theorem literal_str
    {texts : List String}
    (text : {text // text ∈ texts}) :
    literal texts (.str text) = some text :=
  checked_of_eq rfl

section Reading

variable {F : Type} {P : SpecCoercions F} {ofFloat : F → PyValue}

theorem FallbackEntry.read_value
    (hP : P.TakesOwn ofFloat)
    (entry : FallbackEntry) :
    FallbackEntry.read P entry.value = some entry := by
  cases entry with
  | str text =>
      rw [FallbackEntry.value, FallbackEntry.read, P.str_str]
  | dict fields =>
      have hrefused : P.str (.ofDict fields) = none := hP.str_dict _
      rw [FallbackEntry.value, FallbackEntry.read, hrefused]
      change (dictOf P.str some (.ofDict fields)).map FallbackEntry.dict = _
      rw [dictOf_ofDict P.str_str]
      rfl

namespace FallbackConfig

variable (config : FallbackConfig)

theorem nodup_keys_fields : (config.fields.map Prod.fst).Nodup := by
  have hkeys : config.fields.map Prod.fst = keys := rfl
  rw [hkeys]
  decide

theorem read_document
    (hP : P.TakesOwn ofFloat) :
    FallbackConfig.read P config.document = some config := by
  have hnodup := config.nodup_keys_fields
  have hmodels : required (checked (fun entries => 1 ≤ entries.length ∧ entries.length ≤ 10)
      (listOf (FallbackEntry.read P))) config.document "fallback_models" =
        some ⟨config.fallbackModels, config.length_le⟩ :=
    required_present hnodup rfl (checked_of_eq (listOf_map (FallbackEntry.read_value hP) _))
  have hrate : withDefault routeFallback (literal routings) config.document "on_rate_limit" =
      some config.onRateLimit :=
    withDefault_present hnodup rfl (literal_str _)
  have hcontext : withDefault routeFallback (literal routings) config.document
      "on_context_overflow" = some config.onContextOverflow :=
    withDefault_present hnodup rfl (literal_str _)
  have herror : withDefault retryThenFallback (literal routings) config.document "on_error" =
      some config.onError :=
    withDefault_present hnodup rfl (literal_str _)
  have hcallback : optional P.str config.document "fallback_callback" =
      some config.fallbackCallback :=
    optional_present hnodup rfl P.str_str fun _ h => by cases h
  have hhops : withDefault defaultHops (checked (fun n => 1 ≤ n) P.int) config.document
      "max_fallback_hops" = some config.maxFallbackHops :=
    withDefault_present hnodup rfl (checked_of_eq (hP.int _))
  have hsession : withDefault true P.bool config.document "propagate_session" =
      some config.propagateSession :=
    withDefault_present hnodup rfl (hP.bool _)
  have hkeys : config.document.all (fun entry => keys.contains entry.1) = true := by
    rw [List.all_eq_true]
    intro entry hentry
    exact List.contains_iff_mem.mpr
      ((keys_present_sublist id config.fields).subset (List.mem_map_of_mem hentry))
  simp only [FallbackConfig.read, hmodels, hrate, hcontext, herror, hcallback, hhops, hsession,
    Option.bind_eq_bind, Option.bind_some, hkeys, if_true]

end FallbackConfig

namespace FullModelSpec

variable (spec : FullModelSpec P)

theorem document_eq_present :
    spec.document ofFloat = present (SpecValue.value ofFloat) spec.fields := by
  rw [document, dump, present, List.map_filterMap]
  refine List.filterMap_congr fun field _ => ?_
  rw [Option.map_map]
  rfl

theorem nodup_keys_fields : (spec.fields.map Prod.fst).Nodup := by
  rw [keys_fields]
  decide

/-- An optional field of a specification is read as it was written. -/
theorem optional_document
    {α : Type} {key : String} {a? : Option α}
    (write : α → SpecValue F)
    (hfield : spec.fields.lookup key = some (a?.map write))
    {read : PyValue → Option α}
    (hread : ∀ a, read ((write a).value ofFloat) = some a)
    (hne : ∀ a, (write a).value ofFloat ≠ .none) :
    optional read (spec.document ofFloat) key = some a? := by
  rw [document_eq_present]
  exact optional_present spec.nodup_keys_fields hfield hread hne

theorem keys_document :
    (spec.document ofFloat).all (fun entry => keys.contains entry.1) = true := by
  rw [document_eq_present, List.all_eq_true]
  intro entry hentry
  have hmem := (keys_present_sublist (SpecValue.value ofFloat) spec.fields).subset
    (List.mem_map_of_mem hentry)
  rw [keys_fields] at hmem
  exact List.contains_iff_mem.mpr hmem

theorem optional_str
    {key : String} {a? : Option String}
    (hfield : spec.fields.lookup key = some (a?.map .str)) :
    optional P.str (spec.document ofFloat) key = some a? :=
  optional_document spec .str hfield P.str_str fun _ h => by cases h

section Fields

variable (hP : P.TakesOwn ofFloat) {key : String}
include hP

theorem optional_bool
    {a? : Option Bool}
    (hfield : spec.fields.lookup key = some (a?.map .bool)) :
    optional P.bool (spec.document ofFloat) key = some a? :=
  optional_document spec .bool hfield hP.bool fun _ h => by cases h

theorem optional_int
    {p : ℤ → Prop} [DecidablePred p] {a? : Option {n // p n}}
    (hfield : spec.fields.lookup key = some (a?.map fun n => .int n.1)) :
    optional (checked p P.int) (spec.document ofFloat) key = some a? :=
  optional_document spec (fun n : {n // p n} => .int n.1) hfield
    (fun n => checked_of_eq (hP.int n.1)) fun _ h => by cases h

theorem optional_float
    {p : F → Prop} [DecidablePred p] {a? : Option {x // p x}}
    (hfield : spec.fields.lookup key = some (a?.map fun x => .float x.1)) :
    optional (checked p P.float) (spec.document ofFloat) key = some a? :=
  optional_document spec (fun x : {x // p x} => .float x.1) hfield
    (fun x => checked_of_eq (hP.float x.1)) fun x => hP.float_ne x.1

/-- A dumped fallback configuration is validated again, an object would not be. -/
theorem ofValue_value
    (config : FallbackConfig) :
    FallbackConfig.ofValue P ((SpecValue.fallback config : SpecValue F).value ofFloat) =
      some config := by
  change (dictOf Coercions.exact.str some (.ofDict config.document)).bind
    (FallbackConfig.read P) = some config
  rw [dictOf_ofDict fun _ => rfl, Option.bind_some, FallbackConfig.read_document config hP]

end Fields

/-- What is written for a specification is read as the specification. -/
theorem modelValidate_document
    (hP : P.TakesOwn ofFloat) :
    modelValidate P (spec.document ofFloat) = some spec := by
  have hprovider : required (checked (fun text => text ∈ supportedProviders) P.str)
      (spec.document ofFloat) "provider" = some ⟨spec.provider, spec.provider_mem⟩ := by
    rw [document_eq_present]
    exact required_present spec.nodup_keys_fields rfl (checked_of_eq (P.str_str _))
  have hid : required (checked (fun text => text ≠ "") P.str) (spec.document ofFloat) "id" =
      some ⟨spec.id, spec.id_ne⟩ := by
    rw [document_eq_present]
    exact required_present spec.nodup_keys_fields rfl (checked_of_eq (P.str_str _))
  have hstops : optional (listOf P.str) (spec.document ofFloat) "stop_sequences" =
      some spec.stopSequences :=
    optional_document spec .texts rfl (listOf_map P.str_str) fun _ h => by cases h
  have hseed : optional P.int (spec.document ofFloat) "seed" = some spec.seed :=
    optional_document spec .int rfl hP.int fun _ h => by cases h
  have heffort : optional (literal ["minimal", "low", "medium", "high"]) (spec.document ofFloat)
      "reasoning_effort" = some spec.reasoningEffort :=
    optional_document spec (fun text => .str text.1) rfl literal_str fun _ h => by cases h
  have hfallback : optional (FallbackConfig.ofValue P) (spec.document ofFloat) "fallback" =
      some spec.fallback :=
    optional_document spec .fallback rfl (ofValue_value hP) fun _ h => by cases h
  have hname : optional P.str (spec.document ofFloat) "name" = some spec.name :=
    optional_str spec rfl
  have htype : optional P.str (spec.document ofFloat) "model_type" = some spec.modelType :=
    optional_str spec rfl
  have hdir : optional P.str (spec.document ofFloat) "cache_dir" = some spec.cacheDir :=
    optional_str spec rfl
  have hnative : optional P.bool (spec.document ofFloat) "supports_native_structured_outputs" =
      some spec.supportsNativeStructuredOutputs :=
    optional_bool spec hP rfl
  have hjson : optional P.bool (spec.document ofFloat) "supports_json_schema_outputs" =
      some spec.supportsJsonSchemaOutputs :=
    optional_bool spec hP rfl
  have hthinking : optional P.bool (spec.document ofFloat) "thinking" = some spec.thinking :=
    optional_bool spec hP rfl
  have hcache : optional P.bool (spec.document ofFloat) "cache_response" =
      some spec.cacheResponse :=
    optional_bool spec hP rfl
  have hbackoff : optional P.bool (spec.document ofFloat) "exponential_backoff" =
      some spec.exponentialBackoff :=
    optional_bool spec hP rfl
  have hguidance : optional P.bool (spec.document ofFloat) "retry_with_guidance" =
      some spec.retryWithGuidance :=
    optional_bool spec hP rfl
  have htokens : optional (checked (fun n => 1 ≤ n) P.int) (spec.document ofFloat) "max_tokens" =
      some spec.maxTokens :=
    optional_int spec hP rfl
  have htopK : optional (checked (fun n => 0 ≤ n) P.int) (spec.document ofFloat) "top_k" =
      some spec.topK :=
    optional_int spec hP rfl
  have httl : optional (checked (fun n => 0 ≤ n) P.int) (spec.document ofFloat) "cache_ttl" =
      some spec.cacheTtl :=
    optional_int spec hP rfl
  have hretries : optional (checked (fun n => 0 ≤ n ∧ n ≤ 10) P.int) (spec.document ofFloat)
      "retries" = some spec.retries :=
    optional_int spec hP rfl
  have hlimit : optional (checked (fun n => 0 ≤ n) P.int) (spec.document ofFloat)
      "retry_with_guidance_limit" = some spec.retryWithGuidanceLimit :=
    optional_int spec hP rfl
  have htemperature : optional (checked (fun x => P.atLeast 0 x = true ∧ P.atMost 2 x = true)
      P.float) (spec.document ofFloat) "temperature" = some spec.temperature :=
    optional_float spec hP rfl
  have htopP : optional (checked (fun x => P.atLeast 0 x = true ∧ P.atMost 1 x = true) P.float)
      (spec.document ofFloat) "top_p" = some spec.topP :=
    optional_float spec hP rfl
  have hdelay : optional (checked (fun x => P.atLeast 0 x = true) P.float)
      (spec.document ofFloat) "delay_between_retries" = some spec.delayBetweenRetries :=
    optional_float spec hP rfl
  simp only [modelValidate, hprovider, hid, hname, htype, hnative, hjson, htemperature, htokens,
    htopP, htopK, hstops, hseed, heffort, hthinking, hcache, httl, hdir, hretries, hdelay,
    hbackoff, hguidance, hlimit, hfallback, Option.bind_eq_bind, Option.bind_some,
    keys_document, if_true]

end FullModelSpec

end Reading

/-! ## Entries of a fallback chain -/

namespace FallbackChain

variable {F E Model : Type} {P : SpecCoercions F} {repr : String → String}
  {ofFloat : F → PyValue}

/-- A specification in its own form: a model string, or a dump. -/
def written (ofFloat : F → PyValue) : ParsedSpec P → FallbackEntry
  | .string spec => .str (spec.provider ++ ":" ++ spec.id)
  | .expanded spec => .dict (spec.document ofFloat)

/-- A model string is the provider and the id of its specification. -/
theorem eq_of_fromString
    {text : String} {spec : ModelStringSpec}
    (h : ModelStringSpec.fromString repr text = .ok spec) :
    spec.provider ++ ":" ++ spec.id = text := by
  obtain ⟨provider, id, hsplit, -, -, hprovider, hid⟩ := fromString_eq_ok_iff.mp h
  have htext := ((splitFirst_eq_some_iff ':' text.toList provider id).mp hsplit).1
  rw [hprovider, hid]
  apply String.toList_injective
  rw [htext]
  simp

/-- What is parsed and written out is parsed to the same specification. -/
theorem parse_written
    (hP : P.TakesOwn ofFloat)
    {entry : FallbackEntry} {parsed : ParsedSpec P}
    (h : parseModelSpec repr entry = (.ok parsed : Except (ChainError E) (ParsedSpec P))) :
    parseModelSpec repr (written ofFloat parsed) =
      (.ok parsed : Except (ChainError E) (ParsedSpec P)) := by
  cases parsed with
  | expanded spec =>
      rw [written, parseModelSpec, FullModelSpec.modelValidate_document spec hP]
  | string spec =>
      cases entry with
      | dict fields =>
          rw [parseModelSpec] at h
          split at h <;> cases h
      | str text =>
          have hspec : ModelStringSpec.fromString repr text = .ok spec := by
            rw [parseModelSpec, mapError_eq_ok_iff, map_eq_ok_iff] at h
            obtain ⟨spec', hspec, heq⟩ := h
            cases heq
            exact hspec
          rw [written, eq_of_fromString hspec]
          exact h

/-- A dictionary with a provider is no reference to an alias. -/
theorem isAliasRef_of_provider
    {fields : PyDict} {value : PyValue}
    (hmem : ("provider", value) ∈ fields) :
    isAliasRef (.dict fields) = false := by
  simp only [isAliasRef, Bool.decide_and, Bool.decide_eq_true, Bool.and_eq_false_iff]
  exact Or.inr (List.all_eq_false.mpr ⟨_, hmem, by simp⟩)

/-- A specification that is written out is no reference to an alias. -/
theorem isAliasRef_written
    (parsed : ParsedSpec P) :
    isAliasRef (written ofFloat parsed) = false := by
  cases parsed with
  | string spec =>
      rfl
  | expanded spec =>
      have hdump : ("provider", SpecValue.str spec.provider) ∈ spec.dump :=
        List.mem_filterMap.mpr ⟨("provider", some (.str spec.provider)), List.mem_cons_self, rfl⟩
      exact isAliasRef_of_provider (List.mem_map.mpr ⟨_, hdump, rfl⟩)

/-- A reference to an alias is not parsed: it has no provider. -/
theorem isAliasRef_of_parse
    {entry : FallbackEntry} {parsed : ParsedSpec P}
    (h : parseModelSpec repr entry = (.ok parsed : Except (ChainError E) (ParsedSpec P))) :
    isAliasRef entry = false := by
  cases entry with
  | str text =>
      rfl
  | dict fields =>
      cases hspec : FullModelSpec.modelValidate P fields with
      | none =>
          rw [parseModelSpec, hspec] at h
          cases h
      | some spec =>
          rw [FullModelSpec.modelValidate, Option.bind_eq_bind, Option.bind_eq_some_iff] at hspec
          obtain ⟨provider, hprovider, -⟩ := hspec
          obtain ⟨value, hlookup, -⟩ := required_eq_some_iff.mp hprovider
          obtain ⟨before, after, rfl, -⟩ := List.lookup_eq_some_iff.mp hlookup
          have hmem : ("provider", value) ∈ before ++ ("provider", value) :: after :=
            List.mem_append_right before List.mem_cons_self
          exact isAliasRef_of_provider hmem

/--
What an entry is parsed to, written out, is parsed to the same specification, and every factory
makes the same model of it, or fails in the same way.
-/
theorem entry_written
    (hP : P.TakesOwn ofFloat)
    {entry : FallbackEntry} {parsed : ParsedSpec P}
    (h : parseModelSpec repr entry = (.ok parsed : Except (ChainError E) (ParsedSpec P))) :
    parseModelSpec repr (written ofFloat parsed) =
        (.ok parsed : Except (ChainError E) (ParsedSpec P)) ∧
      ∀ (factory : ℕ → FullModelSpec P → Except E Model) (aliases : List (String × String))
          (call : ℕ),
        buildEntry repr factory aliases call (written ofFloat parsed) =
          buildEntry repr factory aliases call entry := by
  have hparse := parse_written hP h
  refine ⟨hparse, fun factory aliases call => ?_⟩
  rw [buildEntry, buildEntry, isAliasRef_of_parse h, isAliasRef_written, hparse, h]

/-- Rationals for floats, each an object of its own. -/
def ofRat (x : ℚ) : PyValue :=
  .object (Encodable.encode x) (x ≠ 0)

/-- The coercions that take values of the very type, with the rationals for floats. -/
def rationals : SpecCoercions ℚ :=
  { SpecCoercions.exact with
    float := fun
      | .object identity _ => Encodable.decode identity
      | .int value => some value
      | _ => none }

theorem rationals_takesOwn : rationals.TakesOwn ofRat where
  bool _ := rfl
  int _ := rfl
  float x := Encodable.encodek x
  float_ne _ h := by cases h
  str_dict _ := rfl

/-- A mapping with a whole number for the temperature, which is dumped as a float. -/
def warm : PyDict :=
  [("id", .str "gpt-4o"), ("temperature", .int 1), ("provider", .str "openai")]

/-- A factory whose models are the temperatures. -/
def temperatureFactory (_ : ℕ) (spec : FullModelSpec rationals) : Except Unit ℚ :=
  .ok (spec.temperature.elim 0 Subtype.val)

theorem entry_written_warm :
    ∃ parsed : ParsedSpec rationals,
      parseModelSpec id (.dict warm) = (.ok parsed : Except (ChainError Unit) _) ∧
      parseModelSpec id (written ofRat parsed) = (.ok parsed : Except (ChainError Unit) _) ∧
      buildEntry id temperatureFactory [] 1 (written ofRat parsed) =
        buildEntry id temperatureFactory [] 1 (.dict warm) := by
  have hsome : (FullModelSpec.modelValidate rationals warm).isSome = true := by
    decide +kernel
  obtain ⟨spec, hspec⟩ := Option.isSome_iff_exists.mp hsome
  have hparse : parseModelSpec id (.dict warm) =
      (.ok (.expanded spec) : Except (ChainError Unit) (ParsedSpec rationals)) := by
    rw [parseModelSpec, hspec]
  obtain ⟨hwritten, hbuild⟩ := entry_written rationals_takesOwn hparse
  exact ⟨.expanded spec, hparse, hwritten, hbuild temperatureFactory [] 1⟩

end FallbackChain

end YamlAgno

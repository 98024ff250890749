import YamlAgno.Models.ModelSpec

/-!
# The model of an agent

The part of `factories/agent_factory.py` that passes `cfg.model` on: as it is written, or,
with a provider factory, parsed to a specification and built.

The same string is read by the schema of the agent, by the specification and by the resolver
of Agno classes.  They cut it at the same colon, but the specification takes fewer ids than
the schema (`readersAgree_iff`).
-/

namespace YamlAgno

open Fallible PyRegex PyText

/-- The `model` argument of an agent. -/
inductive AgentModel (Model : Type) where
  | asWritten (model : String)
  | built (model : Model)

/-- What ends the build of a model: its parsing, or the provider factory. -/
inductive AgentModelFailure (E : Type) where
  | spec (error : SpecError)
  | propagated (error : E)

namespace AgentFactory

variable {E Model : Type} (repr : String → String)

/-- The specification that `build` hands to the provider factory. -/
def modelSpec (model : String) : Except SpecError ModelExpandedSpec := do
  match ← parseModelSpec repr model with
  | .expanded spec => return spec
  | .string spec => ModelExpandedSpec.modelValidate repr spec.provider spec.id

/-- The model that `build` passes to the agent. -/
def buildModel
    (providerFactory : Option (ModelExpandedSpec → Except E Model))
    (model : String) :
    Except (AgentModelFailure E) (AgentModel Model) :=
  match providerFactory with
  | none => .ok (.asWritten model)
  | some build => do
      let spec ← (modelSpec repr model).mapError .spec
      let built ← (build spec).mapError .propagated
      return .built built

/-- The schema lets the string through, and its provider half is supported. -/
def Declared (s : String) : Prop :=
  AgentConfig.validateModelFormat s = .ok s ∧ (partition s ':').1 ∈ supportedProviders

/-- The specification, the resolver and the factory read what the schema lets through. -/
structure ReadersAgree
    (E Model : Type)
    (repr : String → String)
    (s : String) :
    Prop where
  /-- After aliases, the specification and `resolve_model` have the same provider and id, and
  the provider is in the catalogue of models. -/
  same_pair : Declared s →
    ∃ spec canonical entry, parseModelSpec repr s = .ok spec ∧
      ProviderResolver.resolve repr providerAliases spec = .ok canonical ∧
      AgnoResolver.modelKey (E := E) repr s = .ok (canonical.provider, canonical.id) ∧
      modelRegistry.lookup canonical.provider = some entry
  /-- The build gets as far as the provider factory, whichever it is. -/
  reaches_factory : Declared s →
    ∃ spec : ModelExpandedSpec, ∀ build : ModelExpandedSpec → Except E Model,
      buildModel repr (some build) s = ((build spec).mapError .propagated).map .built
  /-- No other string is parsed. -/
  accepted_of_built : ∀ (build : ModelExpandedSpec → Except E Model) model,
    buildModel repr (some build) s = .ok model → AgentConfig.validateModelFormat s = .ok s

variable {repr} {s : String}

/-- The class of the catalogue is given the id of the specification. -/
theorem ReadersAgree.exists_resolveModel
    {Class : Type}
    (h : ReadersAgree E Model repr s)
    (hdeclared : Declared s) :
    ∃ canonical entry, modelRegistry.lookup (ModelSpec.provider canonical) = some entry ∧
      ∀ resolver : AgnoResolver E Class Model, resolver.models = modelRegistry →
        resolver.resolveModel repr s =
          ((resolver.resolveClass entry.1 entry.2).mapError .propagated >>= fun cls =>
            (resolver.construct cls canonical.id).mapError .propagated) := by
  obtain ⟨spec, canonical, entry, -, -, hkey, hentry⟩ := h.same_pair hdeclared
  refine ⟨canonical, entry, hentry, fun resolver hmodels => ?_⟩
  exact AgnoResolver.resolveModel_of_modelKey repr hkey (by rw [hmodels, hentry])

theorem declared_iff :
    Declared s ↔
      ∃ provider id, splitFirst ':' s.toList = some (provider, id) ∧ id ≠ [] ∧
        String.ofList provider ∈ supportedProviders := by
  rw [Declared, validateModelFormat_eq_ok_iff]
  constructor
  · rintro ⟨⟨provider, id, hsplit, -, hid⟩, hmem⟩
    rw [partition_of_splitFirst hsplit] at hmem
    exact ⟨provider, id, hsplit, hid, hmem⟩
  · rintro ⟨provider, id, hsplit, hid, hmem⟩
    refine ⟨⟨provider, id, hsplit, (run_of_supported hmem).1, hid⟩, ?_⟩
    rwa [partition_of_splitFirst hsplit]

/-- What is parsed is promoted to an expanded specification with the same fields. -/
theorem modelSpec_of_fromString
    {spec : ModelStringSpec}
    (h : ModelStringSpec.fromString repr s = .ok spec)
    (hmem : spec.provider ∈ supportedProviders) :
    modelSpec repr s = .ok ⟨spec.provider, spec.id, hmem, spec.id_ne⟩ := by
  rw [modelSpec, parseModelSpec, h]
  exact dif_pos ⟨hmem, spec.id_ne⟩

theorem buildModel_of_modelSpec
    {spec : ModelExpandedSpec}
    (h : modelSpec repr s = .ok spec)
    (build : ModelExpandedSpec → Except E Model) :
    buildModel repr (some build) s = ((build spec).mapError .propagated).map .built := by
  rw [buildModel, h]
  show ((build spec).mapError AgentModelFailure.propagated >>=
    fun built => .ok (AgentModel.built built)) = _
  cases build spec <;> rfl

/-- Only what the expression takes is built. -/
theorem exists_fromString_of_buildModel
    {build : ModelExpandedSpec → Except E Model}
    {model : AgentModel Model}
    (h : buildModel repr (some build) s = .ok model) :
    ∃ spec, ModelStringSpec.fromString repr s = .ok spec := by
  obtain ⟨expanded, hspec, -⟩ := bind_eq_ok_iff.mp h
  rw [mapError_eq_ok_iff] at hspec
  obtain ⟨parsed, hparsed, -⟩ := bind_eq_ok_iff.mp hspec
  obtain ⟨spec, hspec, -⟩ := map_eq_ok_iff.mp hparsed
  exact ⟨spec, hspec⟩

/--
The readers of a model string agree exactly when, in case the schema lets it through with a
supported provider, its id is a run of the characters `[A-Za-z0-9_./\-@]` up to the end of
the line.
-/
theorem readersAgree_iff :
    ReadersAgree E Model repr s ↔
      (Declared s → LineRun isModelIdChar (partition s ':').2.2.toList) := by
  constructor
  · intro hagree hdeclared
    obtain ⟨spec, canonical, entry, hparsed, -, -⟩ := hagree.same_pair hdeclared
    obtain ⟨stringSpec, hstring, -⟩ := map_eq_ok_iff.mp hparsed
    obtain ⟨provider, id, hsplit, -, hline, -⟩ := fromString_eq_ok_iff.mp hstring
    rwa [partition_of_splitFirst hsplit, String.toList_ofList]
  · intro hline
    -- A declared string is parsed, and its provider is the text before the first colon.
    have hparse : Declared s → ∃ provider id, splitFirst ':' s.toList = some (provider, id) ∧
        ∃ spec, ModelStringSpec.fromString repr s = .ok spec ∧
          spec.provider = String.ofList provider ∧ spec.id = String.ofList id ∧
          spec.provider ∈ supportedProviders := by
      intro hdeclared
      obtain ⟨provider, id, hsplit, hid, hmem⟩ := declared_iff.mp hdeclared
      have hrun := hline hdeclared
      rw [partition_of_splitFirst hsplit, String.toList_ofList] at hrun
      refine ⟨provider, id, hsplit, ⟨String.ofList provider, String.ofList id,
        ne_empty_of_supported hmem, ofList_ne_empty_iff.mpr hid⟩, ?_, rfl, rfl, hmem⟩
      exact fromString_eq_ok_iff.mpr ⟨provider, id, hsplit, hmem, hrun, rfl, rfl⟩
    refine ⟨fun hdeclared => ?_, fun hdeclared => ?_, fun build model hbuilt => ?_⟩
    · obtain ⟨provider, id, hsplit, spec, hspec, hprovider, hid, hmem⟩ := hparse hdeclared
      have hmem' : (ModelSpec.string spec).provider ∈ supportedProviders := hmem
      obtain ⟨canonical, hresolve, hprovider', hid'⟩ := exists_resolve repr hmem'
      obtain ⟨entry, hentry⟩ := exists_modelRegistry_of_supported spec.provider hmem
      refine ⟨.string spec, canonical, entry, map_eq_ok_iff.mpr ⟨spec, hspec, rfl⟩, hresolve,
        ?_, hprovider' ▸ hentry⟩
      rw [AgnoResolver.modelKey, hsplit, hprovider', hid']
      simp only [ModelSpec.provider, ModelSpec.id, hprovider, hid]
    · obtain ⟨provider, id, -, spec, hspec, -, -, hmem⟩ := hparse hdeclared
      exact ⟨_, buildModel_of_modelSpec (modelSpec_of_fromString hspec hmem)⟩
    · obtain ⟨spec, hspec⟩ := exists_fromString_of_buildModel hbuilt
      obtain ⟨provider, id, hsplit, hmem, -, -, hid⟩ := fromString_eq_ok_iff.mp hspec
      exact validateModelFormat_eq_ok_iff.mpr ⟨provider, id, hsplit, (run_of_supported hmem).1,
        ofList_ne_empty_iff.mp (hid ▸ spec.id_ne)⟩

/-- A tag of a local model has a colon of its own. -/
def taggedModel : String :=
  "ollama:llama3:8b"

/-- The schema and the resolver take the tag, the build with a provider factory fails. -/
theorem not_readersAgree_taggedModel :
    Declared taggedModel ∧
      AgnoResolver.modelKey (E := Unit) id taggedModel = .ok ("ollama", "llama3:8b") ∧
      buildModel id (some fun _ => Except.ok (ε := Unit) ()) taggedModel =
        .error (.spec (.valueError ("Invalid model string: ollama:llama3:8b" ++
          ". Expected 'provider:id' (e.g. 'openai:gpt-4o')."))) ∧
      ¬ ReadersAgree Unit Unit id taggedModel := by
  have hdeclared : Declared taggedModel := ⟨by rfl, by decide⟩
  refine ⟨hdeclared, by rfl, by rfl, fun hagree => ?_⟩
  obtain ⟨spec, canonical, entry, hparsed, -⟩ := hagree.same_pair hdeclared
  have herror : parseModelSpec id taggedModel = .error (.valueError
      ("Invalid model string: ollama:llama3:8b" ++
        ". Expected 'provider:id' (e.g. 'openai:gpt-4o').")) := by
    rfl
  rw [herror] at hparsed
  cases hparsed

end AgentFactory

end YamlAgno

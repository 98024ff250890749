import YamlAgno.Models.ExpandedSpec

/-!
# The fallback chain

`build_fallback_chain` of `models/fallback_chain.py`: the model of a primary specification, and
then the models of its fallback entries.  Every entry is built, and the chain is cut to the hop
budget afterwards, so an entry beyond the budget can make the whole chain fail.

The factory may answer each call as it likes.  `EntryBuilds` and `EntryFails` say what an entry
comes to without following the code, and `buildFallbackChain_exact` gives the chain, its length
and its error in their terms.
-/

namespace YamlAgno

open Fallible

/-- What `parse_model_spec` returns. -/
inductive ParsedSpec {F : Type} (P : SpecCoercions F) where
  | string (spec : ModelStringSpec)
  | expanded (spec : FullModelSpec P)

/-- What `build_fallback_chain` raises. -/
inductive ChainError (E : Type) where
  | notImplemented (message : String)
  | spec (error : SpecError)
  /-- The `ValidationError` of a mapping. -/
  | validation (fields : PyDict)
  | build (error : E)

namespace FallbackChain

section Building

variable {F E Model : Type} {P : SpecCoercions F} (repr : String → String)

/-- `parse_model_spec` of an entry. -/
def parseModelSpec : FallbackEntry → Except (ChainError E) (ParsedSpec P)
  | .str text => ((ModelStringSpec.fromString repr text).map .string).mapError .spec
  | .dict fields =>
      match FullModelSpec.modelValidate P fields with
      | some spec => .ok (.expanded spec)
      | none => .error (.validation fields)

/-- `ProviderResolver.resolve`. -/
def resolve
    (aliases : List (String × String)) :
    ParsedSpec P → Except (ChainError E) (ParsedSpec P)
  | .string spec => do
      let ⟨canonical, h⟩ ←
        (ProviderResolver.canonicalProvider repr aliases spec.provider).mapError .spec
      return .string { spec with provider := canonical, provider_ne := ne_empty_of_supported h }
  | .expanded spec => do
      let ⟨canonical, h⟩ ←
        (ProviderResolver.canonicalProvider repr aliases spec.provider).mapError .spec
      return .expanded { spec with provider := canonical, provider_mem := h }

/-- The expanded form of a specification; one from a string is validated again. -/
def expand : ParsedSpec P → Except (ChainError E) (FullModelSpec P)
  | .expanded spec => .ok spec
  | .string spec =>
      let dump := [("provider", .str spec.provider), ("id", .str spec.id)]
      match FullModelSpec.modelValidate P dump with
      | some spec => .ok spec
      | none => .error (.validation dump)

/-- The entry is a dictionary whose only key is `alias`. -/
def isAliasRef : FallbackEntry → Bool
  | .str _ => false
  | .dict fields => fields.any (·.1 = "alias") ∧ fields.all (·.1 = "alias")

/-- The message about alias references. -/
def aliasMessage : String :=
  "Alias-by-name fallback refs (\x7b'alias': ...\x7d) require a definitions registry " ++
    "(TASK_013, unshipped). Use inline 'provider:id' strings or \x7bprovider, id\x7d dicts " ++
    "instead."

variable (factory : ℕ → FullModelSpec P → Except E Model) (aliases : List (String × String))

/-- The body of the loop over the entries: the model that the given call of the factory makes
of an entry. -/
def buildEntry (call : ℕ) (entry : FallbackEntry) : Except (ChainError E) Model :=
  if isAliasRef entry = true then .error (.notImplemented aliasMessage)
  else do
    let parsed ← parseModelSpec repr entry
    let resolved ← resolve repr aliases parsed
    let expanded ← expand resolved
    (factory call expanded).mapError .build

/-- `build_fallback_chain`; the calls of the factory are numbered by the models there are. -/
def buildFallbackChain
    (primary : FullModelSpec P)
    (resolver : Option (List (String × String))) :
    Except (ChainError E) (List Model) := do
  let activeResolver := resolver.getD providerAliases
  let primaryModel ← (factory 0 primary).mapError .build
  match primary.fallback with
  | none => return [primaryModel]
  | some config => do
      let chain ← appendEach (buildEntry repr factory activeResolver) [primaryModel]
        config.fallbackModels
      return chain.take (config.maxFallbackHops.1 + 1).toNat

end Building

end FallbackChain

/-! ## What an entry comes to -/

namespace ParsedSpec

variable {F : Type} {P : SpecCoercions F}

def provider : ParsedSpec P → String
  | string spec => spec.provider
  | expanded spec => spec.provider

/-- The specification with another provider, all other fields as they are. -/
def withProvider
    (spec : ParsedSpec P)
    (canonical : String)
    (h : canonical ∈ supportedProviders) :
    FullModelSpec P :=
  match spec with
  | string spec =>
      { provider := canonical, id := spec.id, provider_mem := h, id_ne := spec.id_ne }
  | expanded spec => { spec with provider := canonical, provider_mem := h }

end ParsedSpec

namespace FallbackChain

section Entries

variable {F E Model : Type} {P : SpecCoercions F} (repr : String → String)
  (factory : ℕ → FullModelSpec P → Except E Model) (aliases : List (String × String))

/-- The message about a provider that stands for none in the catalogue. -/
def unsupportedMessage (provider : String) : String :=
  "Resolved provider " ++ repr (canonicalProvider aliases provider) ++ " (from " ++
    repr provider ++ ") is not in SUPPORTED_PROVIDERS."

/-- An entry that is parsed, and whose canonical provider the given call of the factory
builds. -/
inductive EntryBuilds (call : ℕ) : FallbackEntry → Model → Prop
  | built
      {entry : FallbackEntry}
      {parsed : ParsedSpec P}
      {model : Model}
      (notAlias : isAliasRef entry = false)
      (parses : parseModelSpec (E := E) repr entry = .ok parsed)
      (supported : canonicalProvider aliases parsed.provider ∈ supportedProviders)
      (builds : factory call (parsed.withProvider _ supported) = .ok model) :
      EntryBuilds call entry model

/-- An entry that is an alias reference, unparsable, unsupported or fails to build. -/
inductive EntryFails (call : ℕ) : FallbackEntry → ChainError E → Prop
  | aliasRef
      {entry : FallbackEntry}
      (isAlias : isAliasRef entry = true) :
      EntryFails call entry (.notImplemented aliasMessage)
  | unparsable
      {entry : FallbackEntry}
      {error : ChainError E}
      (notAlias : isAliasRef entry = false)
      (fails : parseModelSpec (P := P) repr entry = .error error) :
      EntryFails call entry error
  | unsupported
      {entry : FallbackEntry}
      {parsed : ParsedSpec P}
      (notAlias : isAliasRef entry = false)
      (parses : parseModelSpec (E := E) repr entry = .ok parsed)
      (notSupported : canonicalProvider aliases parsed.provider ∉ supportedProviders) :
      EntryFails call entry (.spec (.valueError (unsupportedMessage repr aliases parsed.provider)))
  | unbuilt
      {entry : FallbackEntry}
      {parsed : ParsedSpec P}
      {error : E}
      (notAlias : isAliasRef entry = false)
      (parses : parseModelSpec (E := E) repr entry = .ok parsed)
      (supported : canonicalProvider aliases parsed.provider ∈ supportedProviders)
      (fails : factory call (parsed.withProvider _ supported) = .error error) :
      EntryFails call entry (.build error)

variable {repr aliases} in
/-- The canonical provider of a specification, if the catalogue has it. -/
theorem canonicalProvider_of_mem
    {provider : String}
    (h : canonicalProvider aliases provider ∈ supportedProviders) :
    ProviderResolver.canonicalProvider repr aliases provider =
      .ok ⟨canonicalProvider aliases provider, h⟩ :=
  dif_pos h

variable {repr aliases} in
/-- It is an error if the catalogue does not have it. -/
theorem canonicalProvider_of_not_mem
    {provider : String}
    (h : canonicalProvider aliases provider ∉ supportedProviders) :
    ProviderResolver.canonicalProvider repr aliases provider =
      .error (.valueError (unsupportedMessage repr aliases provider)) :=
  dif_neg h

/-- Resolving and expanding a specification gives it its canonical provider, or fails over
it. -/
theorem resolve_bind_expand (parsed : ParsedSpec P) :
    (resolve (E := E) repr aliases parsed >>= expand) =
      if h : canonicalProvider aliases parsed.provider ∈ supportedProviders then
        .ok (parsed.withProvider _ h)
      else .error (.spec (.valueError (unsupportedMessage repr aliases parsed.provider))) := by
  split
  · next h =>
      cases parsed with
      | string spec =>
          -- The pair of a supported provider and an id is a valid mapping.
          have hvalid : FullModelSpec.modelValidate P
              [("provider", .str (canonicalProvider aliases spec.provider)),
                ("id", .str spec.id)] = some (ParsedSpec.withProvider (.string spec) _ h) :=
            FullModelSpec.modelValidate_pair h spec.id_ne
          rw [resolve, @canonicalProvider_of_mem repr aliases spec.provider h]
          simp only [Except.mapError, expand, bind, Except.bind, pure, Except.pure, hvalid]
      | expanded spec =>
          rw [resolve, @canonicalProvider_of_mem repr aliases spec.provider h]
          rfl
  · next h =>
      cases parsed with
      | string spec =>
          rw [resolve, @canonicalProvider_of_not_mem repr aliases spec.provider h]
          rfl
      | expanded spec =>
          rw [resolve, @canonicalProvider_of_not_mem repr aliases spec.provider h]
          rfl

/-- The body of the loop without its steps. -/
theorem buildEntry_eq
    {call : ℕ} {entry : FallbackEntry} {parsed : ParsedSpec P}
    (hinline : isAliasRef entry = false)
    (hparse : parseModelSpec (E := E) repr entry = .ok parsed) :
    buildEntry repr factory aliases call entry =
      if h : canonicalProvider aliases parsed.provider ∈ supportedProviders then
        (factory call (parsed.withProvider _ h)).mapError .build
      else .error (.spec (.valueError (unsupportedMessage repr aliases parsed.provider))) := by
  have hsteps := resolve_bind_expand (E := E) repr aliases parsed
  rw [buildEntry, if_neg (by simp [hinline]), hparse]
  change (resolve repr aliases parsed >>= fun resolved => expand resolved >>= _) = _
  rw [← bind_assoc, hsteps]
  split <;> rfl

theorem buildEntry_eq_ok_iff
    {call : ℕ} {entry : FallbackEntry} {model : Model} :
    buildEntry repr factory aliases call entry = .ok model ↔
      EntryBuilds repr factory aliases call entry model := by
  constructor
  · intro h
    cases halias : isAliasRef entry with
    | true =>
        rw [buildEntry, if_pos halias] at h
        cases h
    | false =>
        cases hparse : parseModelSpec (E := E) (P := P) repr entry with
        | error error =>
            rw [buildEntry, if_neg (by simp [halias]), hparse] at h
            cases h
        | ok parsed =>
            rw [buildEntry_eq repr factory aliases halias hparse] at h
            split_ifs at h with hsupported
            exact .built halias hparse hsupported (mapError_eq_ok_iff.mp h)
  · rintro ⟨halias, hparse, hsupported, hbuilds⟩
    rw [buildEntry_eq repr factory aliases halias hparse, dif_pos hsupported, hbuilds]
    rfl

theorem buildEntry_eq_error_iff
    {call : ℕ} {entry : FallbackEntry} {error : ChainError E} :
    buildEntry repr factory aliases call entry = .error error ↔
      EntryFails repr factory aliases call entry error := by
  constructor
  · intro h
    cases halias : isAliasRef entry with
    | true =>
        rw [buildEntry, if_pos halias] at h
        cases h
        exact .aliasRef halias
    | false =>
        cases hparse : parseModelSpec (E := E) (P := P) repr entry with
        | error error =>
            rw [buildEntry, if_neg (by simp [halias]), hparse] at h
            cases h
            exact .unparsable halias hparse
        | ok parsed =>
            rw [buildEntry_eq repr factory aliases halias hparse] at h
            split_ifs at h with hsupported
            · cases hbuild : factory call (parsed.withProvider _ hsupported) with
              | ok model =>
                  rw [hbuild] at h
                  cases h
              | error error =>
                  rw [hbuild] at h
                  cases h
                  exact .unbuilt halias hparse hsupported hbuild
            · cases h
              exact .unsupported halias hparse hsupported
  · intro h
    cases h with
    | aliasRef halias => exact if_pos halias
    | unparsable halias hfails =>
        rw [buildEntry, if_neg (by simp [halias]), hfails]
        rfl
    | unsupported halias hparse hnot =>
        rw [buildEntry_eq repr factory aliases halias hparse, dif_neg hnot]
    | unbuilt halias hparse hsupported hfails =>
        rw [buildEntry_eq repr factory aliases halias hparse, dif_pos hsupported, hfails]
        rfl

/-! ## The chain -/

/-- The hop budget. -/
def hops (config : FallbackConfig) : ℕ :=
  config.maxFallbackHops.1.toNat

/-- The result of `build_fallback_chain`, in terms of its entries.  The primary is built by
call 0 of the factory, and the entry at position `i` by call `i + 1`. -/
structure ExactChain
    (primary : FullModelSpec P)
    (result : Except (ChainError E) (List Model)) :
    Prop where
  /-- Without a fallback configuration, the primary's model alone. -/
  returns_primary : primary.fallback = none → ∀ chain,
    (result = .ok chain ↔ ∃ model, factory 0 primary = .ok model ∧ chain = [model])
  /-- The primary's model and those of the first entries. -/
  returns : ∀ config, primary.fallback = some config → ∀ chain,
    (result = .ok chain ↔
      ∃ model models, factory 0 primary = .ok model ∧
        List.Forall₂ (fun item model =>
          EntryBuilds repr factory aliases item.2 item.1 model)
          (config.fallbackModels.zipIdx 1) models ∧
        chain = model :: models.take (hops config))
  length_eq : ∀ config, primary.fallback = some config → ∀ chain, result = .ok chain →
    chain.length = min (1 + config.fallbackModels.length) (hops config + 1)
  /-- The error is that of the first to fail, in order. -/
  error_iff : ∀ error,
    (result = .error error ↔
      (∃ e, factory 0 primary = .error e ∧ error = .build e) ∨
      ∃ model config before entry after, factory 0 primary = .ok model ∧
        primary.fallback = some config ∧ config.fallbackModels = before ++ entry :: after ∧
        (∀ item ∈ before.zipIdx 1, ∃ m, EntryBuilds repr factory aliases item.2 item.1 m) ∧
        EntryFails repr factory aliases (1 + before.length) entry error)
  /-- It raises when the primary fails, or an entry at any position. -/
  raises_iff :
    (∃ error, result = .error error) ↔
      (∃ e, factory 0 primary = .error e) ∨
      ∃ config, primary.fallback = some config ∧ ∃ item ∈ config.fallbackModels.zipIdx 1,
        ∃ error, EntryFails repr factory aliases item.2 item.1 error

variable {repr factory aliases} {primary : FullModelSpec P} {config : FallbackConfig}
  {resolver : Option (List (String × String))}

theorem build_of_primary_error
    {error : E}
    (h : factory 0 primary = .error error) :
    buildFallbackChain repr factory primary resolver = .error (.build error) := by
  rw [buildFallbackChain, h]
  rfl

theorem build_of_no_fallback
    {model : Model}
    (h : factory 0 primary = .ok model)
    (hfallback : primary.fallback = none) :
    buildFallbackChain repr factory primary resolver = .ok [model] := by
  rw [buildFallbackChain, h]
  change (match primary.fallback with | none => _ | some config => _) = _
  rw [hfallback]
  rfl

/-- With a configuration, the loop over its entries decides. -/
theorem build_of_fallback
    {model : Model}
    (h : factory 0 primary = .ok model)
    (hfallback : primary.fallback = some config) :
    buildFallbackChain repr factory primary resolver =
      (appendEach (buildEntry repr factory (resolver.getD providerAliases)) [model]
        config.fallbackModels).map (fun chain => chain.take (hops config + 1)) := by
  rw [buildFallbackChain, h]
  change (match primary.fallback with | none => _ | some config => _) = _
  rw [hfallback]
  have hbudget : (config.maxFallbackHops.1 + 1).toNat = hops config + 1 :=
    Int.toNat_add (Int.le_trans (by decide) config.maxFallbackHops.2) (by decide)
  dsimp only
  rw [hbudget]
  rfl

/-- What the chain is, when the primary is built. -/
theorem build_eq_ok_iff
    {model : Model}
    (h : factory 0 primary = .ok model)
    (hfallback : primary.fallback = some config)
    {chain : List Model} :
    buildFallbackChain repr factory primary resolver = .ok chain ↔
      ∃ models, List.Forall₂ (fun item model =>
          EntryBuilds repr factory (resolver.getD providerAliases) item.2 item.1 model)
          (config.fallbackModels.zipIdx 1) models ∧
        chain = model :: models.take (hops config) := by
  rw [build_of_fallback h hfallback, map_eq_ok_iff]
  simp only [appendEach_eq_ok_iff, List.length_singleton, buildEntry_eq_ok_iff]
  constructor
  · rintro ⟨_, ⟨models, hmodels, rfl⟩, rfl⟩
    exact ⟨models, hmodels, rfl⟩
  · rintro ⟨models, hmodels, rfl⟩
    exact ⟨_, ⟨models, hmodels, rfl⟩, rfl⟩

/-- What the error is, when the primary is built. -/
theorem build_eq_error_iff
    {model : Model}
    (h : factory 0 primary = .ok model)
    (hfallback : primary.fallback = some config)
    {error : ChainError E} :
    buildFallbackChain repr factory primary resolver = .error error ↔
      ∃ before entry after, config.fallbackModels = before ++ entry :: after ∧
        (∀ item ∈ before.zipIdx 1, ∃ m,
          EntryBuilds repr factory (resolver.getD providerAliases) item.2 item.1 m) ∧
        EntryFails repr factory (resolver.getD providerAliases) (1 + before.length) entry
          error := by
  rw [build_of_fallback h hfallback, map_eq_error_iff, appendEach_eq_error_iff]
  simp only [List.length_singleton, buildEntry_eq_ok_iff, buildEntry_eq_error_iff]

theorem length_eq_of_ok
    {model : Model}
    (h : factory 0 primary = .ok model)
    (hfallback : primary.fallback = some config)
    {chain : List Model}
    (hchain : buildFallbackChain repr factory primary resolver = .ok chain) :
    chain.length = min (1 + config.fallbackModels.length) (hops config + 1) := by
  obtain ⟨models, hmodels, rfl⟩ := (build_eq_ok_iff h hfallback).mp hchain
  have hlength := hmodels.length_eq
  rw [List.length_zipIdx] at hlength
  rw [List.length_cons, List.length_take, ← hlength]
  omega

/-- An entry of the configuration that fails makes the chain fail. -/
theorem exists_error_iff
    {model : Model}
    (h : factory 0 primary = .ok model)
    (hfallback : primary.fallback = some config) :
    (∃ error, buildFallbackChain repr factory primary resolver = .error error) ↔
      ∃ item ∈ config.fallbackModels.zipIdx 1, ∃ error,
        EntryFails repr factory (resolver.getD providerAliases) item.2 item.1 error := by
  constructor
  · rintro ⟨error, herror⟩
    obtain ⟨before, entry, after, heq, -, hfails⟩ :=
      (build_eq_error_iff h hfallback).mp herror
    refine ⟨(entry, 1 + before.length), ?_, error, hfails⟩
    rw [heq, List.zipIdx_append, List.zipIdx_cons]
    exact List.mem_append_right _ List.mem_cons_self
  · rintro ⟨item, hitem, error, hfails⟩
    cases hresult : buildFallbackChain repr factory primary resolver with
    | error error => exact ⟨error, rfl⟩
    | ok chain =>
        obtain ⟨models, hmodels, -⟩ := (build_eq_ok_iff h hfallback).mp hresult
        have hall := ((List.forall₂_and_left _ _).mp
          (hmodels.imp fun _ model hbuilds => ⟨Exists.intro model hbuilds, hbuilds⟩)).1
        obtain ⟨m, hbuilds⟩ := hall item hitem
        have hok := (buildEntry_eq_ok_iff repr factory _).mpr hbuilds
        cases hok.symm.trans ((buildEntry_eq_error_iff repr factory _).mpr hfails)

variable (repr factory)

/--
`build_fallback_chain` returns the primary's model and those of the first entries, up to the hop
budget, and raises the error of the first that fails, wherever it stands in the list.
-/
theorem buildFallbackChain_exact
    (primary : FullModelSpec P)
    (resolver : Option (List (String × String))) :
    ExactChain repr factory (resolver.getD providerAliases) primary
      (buildFallbackChain repr factory primary resolver) where
  returns_primary hfallback chain := by
    cases hprimary : factory 0 primary with
    | error error =>
        rw [build_of_primary_error hprimary]
        simp
    | ok model =>
        rw [build_of_no_fallback hprimary hfallback]
        simp [eq_comm]
  returns config hfallback chain := by
    cases hprimary : factory 0 primary with
    | error error =>
        rw [build_of_primary_error hprimary]
        simp
    | ok model =>
        rw [build_eq_ok_iff hprimary hfallback]
        simp
  length_eq config hfallback chain hchain := by
    cases hprimary : factory 0 primary with
    | error error =>
        rw [build_of_primary_error hprimary] at hchain
        cases hchain
    | ok model => exact length_eq_of_ok hprimary hfallback hchain
  error_iff error := by
    cases hprimary : factory 0 primary with
    | error e =>
        rw [build_of_primary_error hprimary]
        simp [eq_comm]
    | ok model =>
        cases hfallback : primary.fallback with
        | none =>
            rw [build_of_no_fallback hprimary hfallback]
            simp
        | some config =>
            rw [build_eq_error_iff hprimary hfallback]
            simp
  raises_iff := by
    cases hprimary : factory 0 primary with
    | error e =>
        rw [build_of_primary_error hprimary]
        simp
    | ok model =>
        cases hfallback : primary.fallback with
        | none =>
            rw [build_of_no_fallback hprimary hfallback]
            simp
        | some config =>
            rw [exists_error_iff hprimary hfallback]
            simp

end Entries

end FallbackChain
end YamlAgno

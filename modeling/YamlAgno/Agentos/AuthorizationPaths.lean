import YamlAgno.Library.Journal
import YamlAgno.Agentos.SecretReferences

/-!
# The two authorization paths

Authorization settings become an authorization config in two places: through the
adapter, which has a secret manager, and through the factory's legacy path, which
has none.  Both end in the same mapping, and the factory adds a guard to each.

The mapping is given a second time here, with the calls of the secret manager
recorded; forgetting the record gives the mapping back
(`Recorded.result_mapAuthorizationConfig`).  Nothing is recorded before the checks have
passed.
-/

namespace YamlAgno
namespace Authorization

open Fallible

variable {E : Type}

/-! ## The mapping with its calls recorded -/

namespace Recorded

section Mapping

variable (unicodeAlnum : Char → Bool) (secretManager : SecretManager E)

/-- `_resolve_secret`; a call of the secret manager is recorded under its key. -/
def resolveSecret (key : String) : Journal String (MapFailure E) PyValue :=
  match secretManager with
  | none => .ofExcept (Authorization.resolveSecret none key)
  | some call => .reported key (Authorization.resolveSecret (some call) key)

mutual

/-- `_resolve_value`. -/
def resolveValue : PyValue → Journal String (MapFailure E) PyValue
  | .str value =>
      match secretKey unicodeAlnum value with
      | some key => resolveSecret secretManager key
      | none => pure (.str value)
  | .list items => do
      let resolved ← resolveItems items
      return .list resolved
  | value => pure value

def resolveItems : List PyValue → Journal String (MapFailure E) (List PyValue)
  | [] => pure []
  | item :: items => do
      let resolved ← resolveValue item
      let rest ← resolveItems items
      return resolved :: rest

end

def resolveEntry (entry : String × PyValue) :
    Journal String (MapFailure E) (String × PyValue) := do
  let value ← resolveValue unicodeAlnum secretManager entry.2
  return (entry.1, value)

/-- The checks that come before any resolution. -/
def checkSettings (settings : AuthorizationSettings) : Except (MapFailure E) Unit :=
  let config := settings.config.getD []
  if settings.basicAuth.isSome then
    .error (.authorizationBuildError
      ("AuthorizationSettings.basic_auth is UNSUPPORTED in agno 2.8.7: " ++
        "AuthorizationConfig has no basic_auth sink, so this value would " ++
        "be silently ignored (fail-open). The future sink is " ++
        "BasicAuthMiddleware (SPEC_19 §1.2, slice S5a.2)."))
  else if unknownKeys config ≠ [] then
    .error (.authorizationBuildError
      ("Unknown AuthorizationConfig key(s) '" ++
        ", ".intercalate ((unknownKeys config).mergeSort fun a b => a ≤ b) ++
        "'. agno 2.8.7 accepts exactly: " ++ ", ".intercalate supportedFields ++ "."))
  else if (config.map Prod.fst).contains "user_isolation" then
    .error (.authorizationBuildError
      ("user_isolation is a security invariant always set to True by the " ++
        "authorization adapter and is not settable from YAML."))
  else
    .ok ()

/-- The arguments handed to the authorization config. -/
def authorizationKwargs (settings : AuthorizationSettings) :
    Journal String (MapFailure E) PyDict := do
  Journal.ofExcept (checkSettings settings)
  let resolved ← settings.entries.mapM (resolveEntry unicodeAlnum secretManager)
  return resolved ++ [("user_isolation", .bool true)]

/-- `_map_authorization_config`. -/
def mapAuthorizationConfig
    (construct : PyDict → Except E AuthorizationConfig)
    (settings : AuthorizationSettings) :
    Journal String (MapFailure E) (Bool × Option AuthorizationConfig) :=
  if settings.enabled then do
    let kwargs ← authorizationKwargs unicodeAlnum secretManager settings
    let config ← Journal.ofExcept ((construct kwargs).mapError .propagated)
    return (true, some config)
  else
    pure (false, none)

end Mapping

section Erasure

variable {unicodeAlnum : Char → Bool} {secretManager : SecretManager E}
  {settings : AuthorizationSettings}

theorem resolveItems_eq_mapM
    (items : List PyValue) :
    resolveItems unicodeAlnum secretManager items =
      items.mapM (resolveValue unicodeAlnum secretManager) := by
  induction items with
  | nil =>
      rfl
  | cons item items ih =>
      simp only [resolveItems, ih, List.mapM_cons]

theorem result_resolveSecret
    (key : String) :
    (resolveSecret secretManager key).result =
      Authorization.resolveSecret secretManager key := by
  cases secretManager <;> rfl

theorem result_resolveValue
    (value : PyValue) :
    (resolveValue unicodeAlnum secretManager value).result =
      Authorization.resolveValue unicodeAlnum secretManager value := by
  induction value using PyValue.induction_items with
  | list items ih =>
      have hitems : (items.mapM (resolveValue unicodeAlnum secretManager)).result =
          items.mapM (Authorization.resolveValue unicodeAlnum secretManager) :=
        Journal.result_mapM ih
      simp only [resolveValue, Authorization.resolveValue, resolveItems_eq_mapM,
        Authorization.resolveItems_eq_mapM, Journal.result_bind, hitems, Journal.result_pure]
      rfl
  | other value hvalue =>
      cases value with
      | list items =>
          exact absurd rfl (hvalue items)
      | str text =>
          cases hkey : secretKey unicodeAlnum text with
          | none =>
              simp [resolveValue, Authorization.resolveValue, hkey]
          | some key =>
              simp [resolveValue, Authorization.resolveValue, hkey, result_resolveSecret]
      | none | bool _ | int _ | dict _ | object _ _ =>
          rfl

theorem result_resolveEntry
    (entry : String × PyValue) :
    (resolveEntry unicodeAlnum secretManager entry).result =
      Authorization.resolveEntry unicodeAlnum secretManager entry := by
  simp only [resolveEntry, Authorization.resolveEntry, Journal.result_bind, result_resolveValue]
  rfl

/-- The checks come first, then the resolution of the entries. -/
theorem authorizationKwargs_eq :
    Authorization.authorizationKwargs unicodeAlnum settings secretManager =
      (do
        checkSettings settings
        let resolved ←
          settings.entries.mapM (Authorization.resolveEntry unicodeAlnum secretManager)
        return resolved ++ [("user_isolation", .bool true)]) := by
  simp only [Authorization.authorizationKwargs, checkSettings]
  rw [check_bind, check_bind, check_bind]
  rfl

/-- The recorded checks and the recorded resolution are those of the mapping. -/
theorem result_authorizationKwargs :
    (authorizationKwargs unicodeAlnum secretManager settings).result =
      Authorization.authorizationKwargs unicodeAlnum settings secretManager := by
  have hentries : (settings.entries.mapM (resolveEntry unicodeAlnum secretManager)).result =
      settings.entries.mapM (Authorization.resolveEntry unicodeAlnum secretManager) :=
    Journal.result_mapM (fun entry _ => result_resolveEntry entry)
  simp only [authorizationKwargs, authorizationKwargs_eq, Journal.result_bind,
    Journal.result_ofExcept, hentries, Journal.result_pure]
  rfl

theorem result_mapAuthorizationConfig
    (construct : PyDict → Except E AuthorizationConfig) :
    (mapAuthorizationConfig unicodeAlnum secretManager construct settings).result =
      Authorization.mapAuthorizationConfig unicodeAlnum construct settings secretManager := by
  unfold mapAuthorizationConfig Authorization.mapAuthorizationConfig
  split_ifs
  · simp only [Journal.result_bind, result_authorizationKwargs, Journal.result_ofExcept,
      Journal.result_pure]
    rfl
  · rfl

/-- Settings are refused by the checks exactly when they are rejected. -/
theorem checkSettings_eq_ok_iff :
    checkSettings (E := E) settings = .ok () ↔ ¬ settings.Rejected := by
  unfold checkSettings AuthorizationSettings.Rejected AuthorizationSettings.entries
  rw [← unknownKeys_ne_nil_iff]
  dsimp only
  split_ifs with hbasic hunknown hisolation
  · simp [hbasic]
  · simp [hunknown]
  · simp_all
  · simp_all

/-! ### What is recorded -/

/-- Rejected settings are turned down before the secret manager is called. -/
theorem entries_authorizationKwargs_of_rejected
    (unicodeAlnum : Char → Bool)
    (secretManager : SecretManager E)
    (h : settings.Rejected) :
    (authorizationKwargs unicodeAlnum secretManager settings).entries = [] := by
  cases hcheck : checkSettings (E := E) settings with
  | ok _ =>
      exact absurd h (checkSettings_eq_ok_iff.mp hcheck)
  | error failure =>
      rw [authorizationKwargs, Journal.entries_bind_of_error hcheck]
      rfl

/-- The secret manager is called for enabled settings that pass the checks only. -/
theorem enabled_of_entries_ne_nil
    {construct : PyDict → Except E AuthorizationConfig}
    (h : (mapAuthorizationConfig unicodeAlnum secretManager construct settings).entries ≠ []) :
    settings.enabled = true ∧ ¬ settings.Rejected := by
  unfold mapAuthorizationConfig at h
  split_ifs at h with henabled
  · refine ⟨henabled, fun hrejected => h ?_⟩
    have hkwargs := entries_authorizationKwargs_of_rejected unicodeAlnum secretManager hrejected
    obtain ⟨message, herror⟩ :=
      authorizationKwargs_of_rejected unicodeAlnum secretManager hrejected
    rw [← result_authorizationKwargs] at herror
    rw [Journal.entries_bind_of_error herror, hkwargs]
  · exact absurd rfl h

end Erasure

end Recorded

/-! ## The paths -/

/-- The adapter, with its secret manager. -/
structure AuthorizationAdapter (E : Type) where
  secretManager : String → SecretOutcome E

/-- Exceptions of the factory: those of the mapping, and its own `ValueError`s. -/
inductive FactoryFailure (E : Type) where
  | mapping (failure : MapFailure E)
  | valueError (message : String)

section Paths

variable (unicodeAlnum : Char → Bool) (construct : PyDict → Except E AuthorizationConfig)

/-- `AuthorizationAdapter.build`. -/
def AuthorizationAdapter.build
    (adapter : AuthorizationAdapter E)
    (settings : AuthorizationSettings) :
    Except (MapFailure E) (Bool × Option AuthorizationConfig) :=
  mapAuthorizationConfig unicodeAlnum construct settings (some adapter.secretManager)

/-- `_build_authorization_config_legacy`. -/
def buildAuthorizationConfigLegacy
    (settings : AuthorizationSettings) :
    Except (FactoryFailure E) AuthorizationConfig := do
  let result ←
    (mapAuthorizationConfig unicodeAlnum construct settings none).mapError .mapping
  match result with
  | (true, some config) => return config
  | _ => throw (.valueError
      ("AgentOSFactory: legacy authorization path built a disabled/" ++
        "empty config while authorization is enabled."))

/-- `_build_authorization_config`; the adapter's path does not look at the config. -/
def buildAuthorizationConfig
    (adapter : Option (AuthorizationAdapter E))
    (settings : AuthorizationSettings) :
    Except (FactoryFailure E) (Option AuthorizationConfig) :=
  match adapter with
  | some adapter => do
      let result ← (adapter.build unicodeAlnum construct settings).mapError .mapping
      if result.1 then
        return result.2
      else
        throw (.valueError "AuthorizationAdapter returned disabled when config says enabled")
  | none => (buildAuthorizationConfigLegacy unicodeAlnum construct settings).map some

end Paths

/-- The secret manager returns a string or `None`, or raises a `KeyError`. -/
def AuthorizationAdapter.ReturnsStrings (adapter : AuthorizationAdapter E) : Prop :=
  ∀ key, (∃ text, adapter.secretManager key = .returned (.str text)) ∨
    adapter.secretManager key = .returned .none ∨
      ∃ text, adapter.secretManager key = .keyError text

/-- The authorization config takes the supported fields, and user isolation as given. -/
def AcceptsSupported (construct : PyDict → Except E AuthorizationConfig) : Prop :=
  ∀ kwargs : PyDict, (∀ entry ∈ kwargs, entry.1 ∈ supportedFields) →
    ∃ config, construct kwargs = .ok config ∧
      ∀ value, kwargs.lookup "user_isolation" = some value → config.userIsolation = value

/-- `value'` is `value` with the references it consists of, at any depth of lists,
replaced by what the secret manager returns. -/
inductive ResolvedAs
    (unicodeAlnum : Char → Bool)
    (call : String → SecretOutcome E) : PyValue → PyValue → Prop
  | reference
      {text : String} {key : String} {value : PyValue}
      (hkey : secretKey unicodeAlnum text = some key)
      (hcall : call key = .returned value) :
      ResolvedAs unicodeAlnum call (.str text) value
  | literal
      {text : String}
      (hkey : secretKey unicodeAlnum text = none) :
      ResolvedAs unicodeAlnum call (.str text) (.str text)
  | list
      {items items' : List PyValue}
      (hitems : List.Forall₂ (ResolvedAs unicodeAlnum call) items items') :
      ResolvedAs unicodeAlnum call (.list items) (.list items')
  | other
      {value : PyValue}
      (hstr : ∀ text, value ≠ .str text)
      (hlist : ∀ items, value ≠ .list items) :
      ResolvedAs unicodeAlnum call value value

section Contract

variable {unicodeAlnum : Char → Bool} {construct : PyDict → Except E AuthorizationConfig}
  {settings : AuthorizationSettings} {adapter : AuthorizationAdapter E}

theorem resolvedAs_of_resolveValue
    {call : String → SecretOutcome E}
    {value value' : PyValue}
    (h : resolveValue unicodeAlnum (some call) value = .ok value') :
    ResolvedAs unicodeAlnum call value value' := by
  induction value using PyValue.induction_items generalizing value' with
  | list items ih =>
      rw [resolveValue, resolveItems_eq_mapM, map_eq_ok_iff] at h
      obtain ⟨items', hitems, rfl⟩ := h
      exact .list (Paired.forall₂_of_mem (mapM_eq_ok_iff.mp hitems)
        (fun item item' hmem hitem => ih item hmem hitem))
  | other value hvalue =>
      cases value with
      | list items =>
          exact absurd rfl (hvalue items)
      | str text =>
          cases hkey : secretKey unicodeAlnum text with
          | none =>
              simp only [resolveValue, hkey, Except.ok.injEq] at h
              subst h
              exact .literal hkey
          | some key =>
              simp only [resolveValue, hkey, resolveSecret_eq_ok_iff] at h
              obtain ⟨call', hsome, hcall, -⟩ := h
              cases hsome
              exact .reference hkey hcall
      | none | bool _ | int _ | dict _ | object _ _ =>
          cases h
          exact .other (by simp) (by simp)

/-- What the secret manager does for a key ends in a value or in the build's own error. -/
def OwnErrors (secretManager : SecretManager E) : Prop :=
  ∀ key failure, resolveSecret secretManager key = .error failure →
    ∃ message, failure = .authorizationBuildError message

theorem ownErrors_none : OwnErrors (none : SecretManager E) := by
  intro key failure h
  cases h
  exact ⟨_, rfl⟩

theorem ownErrors_of_returnsStrings
    (h : adapter.ReturnsStrings) :
    OwnErrors (some adapter.secretManager) := by
  intro key failure hfailure
  rcases h key with ⟨text, hcall⟩ | hcall | ⟨text, hcall⟩
  · simp [resolveSecret, hcall] at hfailure
  · simp only [resolveSecret, hcall, Except.error.injEq] at hfailure
    exact ⟨_, hfailure.symm⟩
  · simp only [resolveSecret, hcall, Except.error.injEq] at hfailure
    exact ⟨_, hfailure.symm⟩

/-- What the mapping raises the build's own error for. -/
def Unbuildable
    (unicodeAlnum : Char → Bool)
    (settings : AuthorizationSettings)
    (secretManager : SecretManager E) : Prop :=
  settings.basicAuth.isSome ∨
    (∃ entry ∈ settings.entries, entry.1 ∉ supportedFields) ∨
    (∃ entry ∈ settings.entries, entry.1 = "user_isolation") ∨
    ∃ key ∈ settingsKeys unicodeAlnum settings, ¬ Resolves secretManager key

theorem unbuildable_iff
    {secretManager : SecretManager E} :
    Unbuildable unicodeAlnum settings secretManager ↔
      settings.Rejected ∨ ∃ key ∈ settingsKeys unicodeAlnum settings,
        ¬ Resolves secretManager key := by
  simp only [Unbuildable, AuthorizationSettings.Rejected, or_assoc]

theorem lookup_append_of_not_mem
    {kwargs : PyDict}
    {key : String}
    {value : PyValue}
    (h : ∀ entry ∈ kwargs, entry.1 ≠ key) :
    (kwargs ++ [(key, value)]).lookup key = some value := by
  induction kwargs with
  | nil =>
      simp
  | cons entry kwargs ih =>
      have hne : (key == entry.1) = false := by
        simpa using (h entry List.mem_cons_self).symm
      rw [List.cons_append, List.lookup_cons, hne]
      exact ih (fun e he => h e (List.mem_cons_of_mem entry he))

/--
The mapping of enabled settings: either something is wrong with them and it raises
its own error, or all references resolve and the config is constructed, isolated.
-/
theorem mapAuthorizationConfig_cases
    (unicodeAlnum : Char → Bool)
    {secretManager : SecretManager E}
    (hconstruct : AcceptsSupported construct)
    (hown : OwnErrors secretManager)
    (henabled : settings.enabled = true) :
    (Unbuildable unicodeAlnum settings secretManager ∧
      ∃ message, mapAuthorizationConfig unicodeAlnum construct settings secretManager =
        .error (.authorizationBuildError message)) ∨
    (¬ Unbuildable unicodeAlnum settings secretManager ∧
      ∃ resolved config,
        settings.entries.mapM (resolveEntry unicodeAlnum secretManager) = .ok resolved ∧
          construct (resolved ++ [("user_isolation", .bool true)]) = .ok config ∧
          config.userIsolation = .bool true ∧
          mapAuthorizationConfig unicodeAlnum construct settings secretManager =
            .ok (true, some config)) := by
  rw [unbuildable_iff, mapAuthorizationConfig_of_enabled henabled]
  by_cases hrejected : settings.Rejected
  · obtain ⟨message, hkwargs⟩ :=
      authorizationKwargs_of_rejected unicodeAlnum secretManager hrejected
    exact Or.inl ⟨Or.inl hrejected, message, by rw [hkwargs]; rfl⟩
  · rw [authorizationKwargs_of_not_rejected unicodeAlnum secretManager hrejected]
    cases hentries : settings.entries.mapM (resolveEntry unicodeAlnum secretManager) with
    | error failure =>
        left
        obtain ⟨before, key, after, hkeys, -, hkey⟩ := firstFailure_of_resolveEntries hentries
        obtain ⟨message, rfl⟩ := hown key failure hkey
        refine ⟨Or.inr ⟨key, by simp [hkeys], fun hresolves => ?_⟩, message, rfl⟩
        obtain ⟨value, hvalue⟩ := exists_resolveSecret_iff.mpr hresolves
        rw [hkey] at hvalue
        cases hvalue
    | ok resolved =>
        right
        have hsupported := supported_of_not_rejected hrejected hentries
        obtain ⟨config, hconfig, hisolation⟩ := hconstruct _ hsupported
        refine ⟨?_, resolved, config, rfl, hconfig, hisolation _ ?_, ?_⟩
        · rintro (h | ⟨key, hkey, hnot⟩)
          · exact hrejected h
          · exact hnot (exists_resolveEntries_iff.mp ⟨resolved, hentries⟩ key hkey)
        · refine lookup_append_of_not_mem (fun entry hentry hisolated => ?_)
          obtain ⟨i, source, hsource, hpair⟩ :=
            Paired.exists_of_mem_right (mapM_eq_ok_iff.mp hentries) hentry
          rw [(resolveEntry_eq_ok_iff.mp hpair).1] at hisolated
          exact hrejected
            (Or.inr (Or.inr ⟨source, List.mem_of_getElem? hsource, hisolated⟩))
        · simp only [bind, Except.bind, pure, Except.pure, hconfig, Except.mapError]

/-- The resolved entries have the keys of the settings and their values resolved. -/
theorem resolvedAs_of_resolveEntries
    {call : String → SecretOutcome E}
    {resolved : PyDict}
    (h : settings.entries.mapM (resolveEntry unicodeAlnum (some call)) = .ok resolved) :
    List.Forall₂ (fun entry entry' =>
        entry'.1 = entry.1 ∧ ResolvedAs unicodeAlnum call entry.2 entry'.2)
      settings.entries resolved := by
  refine (mapM_eq_ok_iff.mp h).imp (fun entry entry' hentry => ?_)
  obtain ⟨hkey, hvalue⟩ := resolveEntry_eq_ok_iff.mp hentry
  exact ⟨hkey, resolvedAs_of_resolveValue hvalue⟩

/-! ### Settings without references -/

/-- A value without references resolves to itself, whoever resolves it. -/
theorem resolveValue_of_no_keys
    {secretManager : SecretManager E}
    {value : PyValue}
    (h : keysOf unicodeAlnum value = []) :
    resolveValue unicodeAlnum secretManager value = .ok value := by
  induction value using PyValue.induction_items with
  | list items ih =>
      rw [keysOf_list, List.flatMap_eq_nil_iff] at h
      rw [resolveValue, resolveItems_eq_mapM]
      have hitems : items.mapM (resolveValue unicodeAlnum secretManager) = .ok items :=
        mapM_eq_ok_iff.mpr (List.forall₂_same.mpr (fun item hitem =>
          ih item hitem (h item hitem)))
      rw [hitems]
      rfl
  | other value hvalue =>
      cases value with
      | list items =>
          exact absurd rfl (hvalue items)
      | str text =>
          cases hkey : secretKey unicodeAlnum text with
          | none =>
              simp [resolveValue, hkey]
          | some key =>
              simp [keysOf, stringLeaves, hkey] at h
      | none | bool _ | int _ | dict _ | object _ _ =>
          rfl

/-- The mapping of settings without references is the same for every secret manager. -/
theorem mapAuthorizationConfig_of_no_keys
    (h : settingsKeys unicodeAlnum settings = [])
    (secretManager secretManager' : SecretManager E) :
    mapAuthorizationConfig unicodeAlnum construct settings secretManager =
      mapAuthorizationConfig unicodeAlnum construct settings secretManager' := by
  have hentries : ∀ manager : SecretManager E,
      settings.entries.mapM (resolveEntry unicodeAlnum manager) = .ok settings.entries := by
    intro manager
    refine mapM_eq_ok_iff.mpr (List.forall₂_same.mpr (fun entry hentry => ?_))
    rw [settingsKeys, List.flatMap_eq_nil_iff] at h
    exact resolveEntry_eq_ok_iff.mpr ⟨rfl, resolveValue_of_no_keys (h entry hentry)⟩
  simp only [mapAuthorizationConfig, Recorded.authorizationKwargs_eq, hentries]

/-- Enabled settings are never mapped to a disabled result. -/
theorem exists_config_of_enabled
    {secretManager : SecretManager E}
    {result : Bool × Option AuthorizationConfig}
    (henabled : settings.enabled = true)
    (h : mapAuthorizationConfig unicodeAlnum construct settings secretManager = .ok result) :
    ∃ config, result = (true, some config) := by
  rw [mapAuthorizationConfig_of_enabled henabled] at h
  obtain ⟨kwargs, -, h⟩ := bind_eq_ok_iff.mp h
  obtain ⟨config, -, h⟩ := bind_eq_ok_iff.mp h
  cases h
  exact ⟨config, rfl⟩

/-- The factory's paths agree where the mappings do. -/
theorem buildAuthorizationConfig_of_same
    (henabled : settings.enabled = true)
    (h : mapAuthorizationConfig unicodeAlnum construct settings none =
      adapter.build unicodeAlnum construct settings) :
    buildAuthorizationConfig unicodeAlnum construct none settings =
      buildAuthorizationConfig unicodeAlnum construct (some adapter) settings := by
  simp only [buildAuthorizationConfig, buildAuthorizationConfigLegacy, h]
  cases hresult : adapter.build unicodeAlnum construct settings with
  | error failure =>
      rfl
  | ok result =>
      obtain ⟨config, rfl⟩ := exists_config_of_enabled henabled hresult
      rfl

/-! ### The contract -/

/-- What the two paths promise. -/
structure PathsContract
    (unicodeAlnum : Char → Bool)
    (construct : PyDict → Except E AuthorizationConfig)
    (adapter : AuthorizationAdapter E)
    (settings : AuthorizationSettings) : Prop where
  disabled :
    settings.enabled = false →
      adapter.build unicodeAlnum construct settings = .ok (false, none)
  raises_iff :
    settings.enabled = true →
      ((∃ message, adapter.build unicodeAlnum construct settings =
          .error (.authorizationBuildError message)) ↔
        Unbuildable unicodeAlnum settings (some adapter.secretManager))
  raises_own :
    ∀ failure, adapter.build unicodeAlnum construct settings = .error failure →
      ∃ message, failure = .authorizationBuildError message
  succeeds :
    settings.enabled = true →
      ∀ result, adapter.build unicodeAlnum construct settings = .ok result →
        ∃ resolved config,
          List.Forall₂ (fun entry entry' => entry'.1 = entry.1 ∧
              ResolvedAs unicodeAlnum adapter.secretManager entry.2 entry'.2)
            settings.entries resolved ∧
          construct (resolved ++ [("user_isolation", .bool true)]) = .ok config ∧
          config.userIsolation = .bool true ∧
          result = (true, some config)
  recorded :
    (Recorded.mapAuthorizationConfig unicodeAlnum (some adapter.secretManager) construct
      settings).result = adapter.build unicodeAlnum construct settings
  calls_after_checks :
    (Recorded.mapAuthorizationConfig unicodeAlnum (some adapter.secretManager) construct
        settings).entries ≠ [] →
      settings.enabled = true ∧ ¬ settings.Rejected
  legacy_same :
    settings.enabled = true → settingsKeys unicodeAlnum settings = [] →
      buildAuthorizationConfig unicodeAlnum construct none settings =
        buildAuthorizationConfig unicodeAlnum construct (some adapter) settings
  legacy_raises :
    settings.enabled = true → settingsKeys unicodeAlnum settings ≠ [] →
      ∃ message, buildAuthorizationConfig unicodeAlnum construct none settings =
        .error (.mapping (.authorizationBuildError message))

/--
Both paths keep their contract, for every settings and every secret manager that
returns strings or `None` or raises a `KeyError`.
-/
theorem authorization_paths_contract
    (unicodeAlnum : Char → Bool)
    (construct : PyDict → Except E AuthorizationConfig)
    (hconstruct : AcceptsSupported construct)
    (adapter : AuthorizationAdapter E)
    (hmanager : adapter.ReturnsStrings)
    (settings : AuthorizationSettings) :
    PathsContract unicodeAlnum construct adapter settings where
  disabled hdisabled := by
    simp [AuthorizationAdapter.build, mapAuthorizationConfig, hdisabled]
  raises_iff henabled := by
    rcases mapAuthorizationConfig_cases unicodeAlnum hconstruct
        (ownErrors_of_returnsStrings hmanager) henabled with
      ⟨hbad, hraise⟩ | ⟨hgood, resolved, config, -, -, -, hok⟩
    · exact ⟨fun _ => hbad, fun _ => hraise⟩
    · refine ⟨?_, fun hbad => absurd hbad hgood⟩
      rintro ⟨message, hraise⟩
      rw [AuthorizationAdapter.build, hok] at hraise
      cases hraise
  raises_own failure hfailure := by
    cases henabled : settings.enabled with
    | false =>
        simp [AuthorizationAdapter.build, mapAuthorizationConfig, henabled] at hfailure
    | true =>
        rcases mapAuthorizationConfig_cases unicodeAlnum hconstruct
            (ownErrors_of_returnsStrings hmanager) henabled with
          ⟨-, message, hraise⟩ | ⟨-, _, _, -, -, -, hok⟩
        · rw [AuthorizationAdapter.build, hraise] at hfailure
          cases hfailure
          exact ⟨message, rfl⟩
        · rw [AuthorizationAdapter.build, hok] at hfailure
          cases hfailure
  succeeds henabled result hresult := by
    rcases mapAuthorizationConfig_cases unicodeAlnum hconstruct
        (ownErrors_of_returnsStrings hmanager) henabled with
      ⟨-, message, hraise⟩ | ⟨-, resolved, config, hentries, hconfig, hisolation, hok⟩
    · rw [AuthorizationAdapter.build, hraise] at hresult
      cases hresult
    · rw [AuthorizationAdapter.build, hok] at hresult
      cases hresult
      exact ⟨resolved, config, resolvedAs_of_resolveEntries hentries, hconfig, hisolation, rfl⟩
  recorded := Recorded.result_mapAuthorizationConfig construct
  calls_after_checks := Recorded.enabled_of_entries_ne_nil
  legacy_same henabled hkeys :=
    buildAuthorizationConfig_of_same henabled (mapAuthorizationConfig_of_no_keys hkeys _ _)
  legacy_raises henabled hkeys := by
    rcases mapAuthorizationConfig_cases unicodeAlnum hconstruct
        ownErrors_none henabled with
      ⟨-, message, hraise⟩ | ⟨hgood, -⟩
    · refine ⟨message, ?_⟩
      simp only [buildAuthorizationConfig, buildAuthorizationConfigLegacy, hraise]
      rfl
    · -- Without a secret manager no key resolves.
      obtain ⟨key, hkey⟩ := List.exists_mem_of_ne_nil _ hkeys
      refine absurd (unbuildable_iff.mpr (Or.inr ⟨key, hkey, ?_⟩)) hgood
      rintro ⟨call, _, hnone, -⟩
      cases hnone

theorem authorization_paths_contract_singleSecret :
    PathsContract (fun _ => false) constructConfig ⟨singleSecret⟩
      (settingsWithKey "$\x7bSECRET:jwt_public\x7d") := by
  refine authorization_paths_contract (fun _ => false) constructConfig ?_ ⟨singleSecret⟩ ?_ _
  · intro kwargs _
    refine ⟨_, rfl, fun value hvalue => ?_⟩
    simp [hvalue]
  · intro key
    by_cases hkey : key = "jwt_public"
    · exact Or.inl ⟨"pem", by simp [singleSecret, hkey]⟩
    · exact Or.inr (Or.inr ⟨key, by simp [singleSecret, hkey]⟩)

end Contract

end Authorization
end YamlAgno

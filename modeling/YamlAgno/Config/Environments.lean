import YamlAgno.Config.ConfigViews
import YamlAgno.Config.SecretManager

/-!
# The environments of a boot

`build_config_manager` of `config/bootstrap.py` is given an environment and reads another one:
its argument is checked by `normalize_env` and dropped, and `get_env` is the `app.env` of the
configuration.  The guard against basic authentication in production acts on the second,
`build_secret_manager` on the first.

`build_environments` says where each of them comes from, and when they are the same.
-/

namespace YamlAgno

open ConfigAdapter Fallible

/-- What `build_config_manager` raises: the `ValueError` of `normalize_env`, or what the
construction of the adapter raises. -/
inductive BootError (X V : Type) where
  | value (message : String)
  | config (error : ConfigError X V)
deriving DecidableEq

/-- `build_config_manager`; `openCore` is the constructor of the core's adapter. -/
def buildConfigManager
    {F Env X V σ : Type}
    (B : PyBuiltins F)
    (modelValidate : Env → PyDict → Except V σ)
    (openCore : Option String → Except X (CoreCall Env X))
    (env : String)
    (configPath : Option String) :
    Except (BootError X V) (ConfigAdapter σ) := do
  let _ ← (normalizeEnv B env).mapError .value
  let core ← (openCore configPath).mapError (fun error => .config (.core error))
  (construct modelValidate core).mapError .config

/-- The adapter of a secret manager. -/
def SecretManager.adapter {A : Type} : SecretManager A → SecretAdapter
  | plain adapter => adapter
  | audited adapter _ => adapter

section Environments

variable {F U Env X : Type} {P : SettingsCoercions F U} {B : PyBuiltins F}
  {sources : Env → PyDict → PyDict} {openCore : Option String → Except X (CoreCall Env X)}
  {env : String} {configPath : Option String}

/-- A manager is built from a core that opens, whatever the environment is. -/
theorem buildConfigManager_eq_ok_iff
    {V σ : Type}
    {modelValidate : Env → PyDict → Except V σ}
    {adapter : ConfigAdapter σ} :
    buildConfigManager B modelValidate openCore env configPath = .ok adapter ↔
      (∃ name, normalizeEnv B env = .ok name) ∧
        ∃ core, openCore configPath = .ok core ∧ construct modelValidate core = .ok adapter := by
  simp only [buildConfigManager, bind_eq_ok_iff, mapError_eq_ok_iff, exists_and_right]

/-- A field is read as one value. -/
theorem Reads.unique
    {α : Type}
    {raw : PyDict}
    {section_ field : String}
    {read : PyValue → Option α}
    {a b : α}
    (ha : Reads raw section_ field read a)
    (hb : Reads raw section_ field read b) :
    a = b := by
  obtain ⟨value, hvalue, ha⟩ := ha
  obtain ⟨value', hvalue', hb⟩ := hb
  cases hvalue.symm.trans hvalue'
  exact Option.some.inj (ha.symm.trans hb)

/-- The environment of an adapter is the one that the settings have read. -/
theorem reads_getEnv
    {core : CoreCall Env X}
    {adapter : ConfigAdapter (YamlAgnoSettings P)}
    (h : construct (settingsValidate P sources) core = .ok adapter) :
    Reads (sources core.environment adapter.snapshot) "app" "env" P.str adapter.getEnv := by
  obtain ⟨-, hvalid⟩ := (construct_eq_ok_iff _).mp h
  unfold settingsValidate at hvalid
  cases hsettings : YamlAgnoSettings.validate P (sources core.environment adapter.snapshot) with
  | none =>
      rw [hsettings] at hvalid
      cases hvalid
  | some settings =>
      rw [hsettings] at hvalid
      cases hvalid
      exact (YamlAgnoSettings.readFrom_of_validate hsettings).env

/-- Settings with basic authentication exist for every environment but production. -/
theorem exists_basic_iff (settings : YamlAgnoSettings P) :
    (∃ settings' : YamlAgnoSettings P, settings'.app = settings.app ∧
        settings'.security.authMode.1 = "basic") ↔
      settings.app.env.1 ≠ "prod" := by
  constructor
  · rintro ⟨settings', happ, hbasic⟩ hprod
    exact settings'.jwtRequiredInProd ⟨by rw [happ, hprod], hbasic⟩
  · intro hprod
    exact ⟨{ settings with
      security := { settings.security with authMode := ⟨"basic", by decide⟩ }
      jwtRequiredInProd := fun h => hprod h.1 }, rfl, rfl⟩

/-- In production the secrets are encrypted, elsewhere they are in memory. -/
theorem adapter_eq_inMemory_iff
    {A : Type}
    {config : ConfigManager}
    {auditor : Option A}
    {manager : SecretManager A}
    {name : EnvName}
    (hname : normalizeEnv B env = .ok name)
    (h : buildSecretManager B env config auditor = .ok manager) :
    manager.adapter = .inMemory ↔ name ≠ .prod := by
  have hadapter : ∀ adapter : SecretAdapter, (withAuditor auditor adapter).adapter = adapter := by
    intro adapter
    cases auditor <;> rfl
  obtain ⟨name', hname', h⟩ := bind_eq_ok_iff.mp h
  rw [hname] at hname'
  cases hname'
  dsimp only at h
  by_cases hprod : name = .prod
  · rw [if_pos hprod] at h
    obtain ⟨path, -, hchosen⟩ := bind_eq_ok_iff.mp h
    cases path with
    | none => cases hchosen
    | some path =>
        cases hchosen
        rw [hadapter]
        simp [hprod]
  · rw [if_neg hprod] at h
    cases h
    rw [hadapter]
    simp [hprod]

/-- A configuration for the environment `local` is refused, whatever the argument is. -/
theorem not_built_of_local
    {core : CoreCall Env X}
    (hcore : openCore configPath = .ok core)
    (hlocal : ∀ sections, readSections core = .ok sections →
      Reads (sources core.environment sections) "app" "env" P.str "local")
    (adapter : ConfigAdapter (YamlAgnoSettings P)) :
    buildConfigManager B (settingsValidate P sources) openCore env configPath ≠ .ok adapter := by
  intro h
  obtain ⟨-, core', hcore', hconstruct⟩ := buildConfigManager_eq_ok_iff.mp h
  cases hcore.symm.trans hcore'
  have hread := hlocal _ ((construct_eq_ok_iff _).mp hconstruct).1
  have henv := adapter.settings.app.env.2
  rw [show adapter.settings.app.env.1 = "local" from (reads_getEnv hconstruct).unique hread] at henv
  revert henv
  decide

/-- The environments of a boot with the argument `env`. -/
structure BootEnvironments
    (B : PyBuiltins F)
    (sources : Env → PyDict → PyDict)
    (openCore : Option String → Except X (CoreCall Env X))
    (env : String)
    (configPath : Option String)
    (adapter : ConfigAdapter (YamlAgnoSettings P))
    (core : CoreCall Env X)
    (name : EnvName) :
    Prop where
  opened : openCore configPath = .ok core
  normalized : normalizeEnv B env = .ok name
  /-- `get_env` is the environment that the settings read in the core's configuration. -/
  read : Reads (sources core.environment adapter.snapshot) "app" "env" P.str adapter.getEnv
  one_of : adapter.getEnv ∈ ["dev", "staging", "prod"]
  /-- The argument is checked, and does not matter otherwise. -/
  any_argument : ∀ env' name', normalizeEnv B env' = .ok name' →
    buildConfigManager B (settingsValidate P sources) openCore env' configPath = .ok adapter
  /-- The guard forbids basic authentication by `get_env`. -/
  guard :
    (∃ settings : YamlAgnoSettings P, settings.app = adapter.settings.app ∧
        settings.security.authMode.1 = "basic") ↔ adapter.getEnv ≠ "prod"
  /-- The adapter for the secrets is selected by the argument. -/
  selection : ∀ (A : Type) (config : ConfigManager) (auditor : Option A) manager,
    buildSecretManager B env config auditor = .ok manager →
      (manager.adapter = .inMemory ↔ name ≠ .prod)
  same_iff : adapter.getEnv = name.value ↔
    Reads (sources core.environment adapter.snapshot) "app" "env" P.str name.value

/--
When a manager is built, its environment is that of the configuration and not the argument, and
the guard and the selection of the secret manager act on the same one exactly when the
configuration has the normalized argument for its environment.
-/
theorem build_environments
    {adapter : ConfigAdapter (YamlAgnoSettings P)}
    (h : buildConfigManager B (settingsValidate P sources) openCore env configPath =
      .ok adapter) :
    ∃ core name, BootEnvironments B sources openCore env configPath adapter core name := by
  obtain ⟨⟨name, hname⟩, core, hcore, hconstruct⟩ := buildConfigManager_eq_ok_iff.mp h
  have hread := reads_getEnv hconstruct
  exact ⟨core, name,
    { opened := hcore
      normalized := hname
      read := hread
      one_of := adapter.settings.app.env.2
      any_argument := fun env' name' hname' =>
        buildConfigManager_eq_ok_iff.mpr ⟨⟨name', hname'⟩, core, hcore, hconstruct⟩
      guard := exists_basic_iff adapter.settings
      selection := fun A config auditor manager => adapter_eq_inMemory_iff hname
      same_iff := ⟨fun heq => heq ▸ hread, fun hname => hread.unique hname⟩ }⟩

end Environments

/-- A development configuration with basic authentication. -/
def basicSections : PyDict :=
  [("app", .ofDict [("name", .str "yaml-agno"), ("env", .str "dev")]),
    ("runtime", .ofDict [("max_concurrent_agents", .int 10), ("request_timeout_s", .int 30)]),
    ("persistence", .ofDict [("pool_size", .int 5), ("pool_max_overflow", .int 10),
      ("statement_timeout_ms", .int 5000)]),
    ("observability", .ofDict [("otlp_endpoint", .str "http://localhost:4317/"),
      ("sample_rate", .int 1)]),
    ("security", .ofDict [("auth_mode", .str "basic"), ("token_ttl_minutes", .int 60)]),
    ("flags", .ofDict [])]

/-- The settings that validate it. -/
def basicSettings : YamlAgnoSettings plainCoercions :=
  { devSettings "http://localhost:4317/" false with
    security :=
      { (devSettings "http://localhost:4317/" false).security with
        authMode := ⟨"basic", by decide⟩ }
    jwtRequiredInProd := by decide }

/-- The core that holds it. -/
def openBasic (_ : Option String) : Except String (CoreCall Unit String) :=
  .ok (coreOf (.ok ()) basicSections)

theorem build_environments_basic :
    ∃ core name, BootEnvironments plainBuiltins (fun (_ : Unit) raw => raw) openBasic "prod" none
      ⟨basicSections, basicSettings⟩ core name := by
  have hbuild : buildConfigManager plainBuiltins
      (settingsValidate plainCoercions fun (_ : Unit) raw => raw) openBasic "prod" none =
        .ok ⟨basicSections, basicSettings⟩ := rfl
  exact build_environments hbuild

/-- A boot for production with that configuration: its environment is `dev`, basic
authentication passes, and the secrets are those of production. -/
theorem production_boot_unguarded :
    buildConfigManager plainBuiltins
        (settingsValidate plainCoercions fun (_ : Unit) raw => raw) openBasic "prod" none =
      .ok ⟨basicSections, basicSettings⟩ ∧
    normalizeEnv plainBuiltins "prod" = .ok .prod ∧
    getEnv (⟨basicSections, basicSettings⟩ : ConfigAdapter (YamlAgnoSettings plainCoercions)) ≠
      EnvName.prod.value ∧
    basicSettings.security.authMode.1 = "basic" ∧
    buildSecretManager (A := Unit) plainBuiltins "prod"
        ⟨fun _ _ => .ok (some "secrets.bin"), fun _ => []⟩ none =
      .ok (.plain (.encrypted "secrets.bin")) := by
  refine ⟨rfl, rfl, ?_, rfl, rfl⟩
  decide

end YamlAgno

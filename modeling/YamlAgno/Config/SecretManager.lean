import YamlAgno.Config.Bootstrap

/-!
# The secret manager of an environment

`build_secret_manager` of `config/bootstrap.py`: encrypted storage in production, under
the path the configuration names, and memory elsewhere.  It reads any manager that
follows the protocol of the core, `ConfigManager`; the validated facade is one of them.
-/

namespace YamlAgno

/-- What consumers read of a configuration manager. -/
structure ConfigManager where
  getString : String → Option String → Except ValidationError (Option String)
  getSection : String → PyDict

/-- The items of a dictionary under string keys. -/
def stringItems (entries : List (PyValue × PyValue)) : PyDict :=
  entries.filterMap fun entry =>
    match entry.1 with
    | .str key => some (key, entry.2)
    | _ => none

/-- The facade as a manager. -/
def ConfigAdapter.toConfigManager
    {F σ : Type}
    (B : PyBuiltins F)
    (adapter : ConfigAdapter σ) :
    ConfigManager where
  getString key default := (adapter.getString B key default).map some
  getSection name := stringItems (adapter.getSection name)

/-- The adapters that store secrets. -/
inductive SecretAdapter where
  | encrypted (secretStoragePath : String)
  | inMemory
deriving DecidableEq

/-- A secret manager: an adapter, or `SecretAccessAuditor` around one. -/
inductive SecretManager (A : Type) where
  | plain (adapter : SecretAdapter)
  | audited (adapter : SecretAdapter) (auditor : A)
deriving DecidableEq

/-- The errors of `build_secret_manager`. -/
inductive SecretManagerError where
  | value (message : String)
  | validation (error : ValidationError)
deriving DecidableEq

section Build

variable {F A : Type}

/-- The wrapper for the audit trail. -/
def withAuditor
    (auditor : Option A)
    (adapter : SecretAdapter) :
    SecretManager A :=
  match auditor with
  | some auditor => .audited adapter auditor
  | none => .plain adapter

/-- `build_secret_manager`. -/
def buildSecretManager
    (B : PyBuiltins F)
    (env : String)
    (config : ConfigManager)
    (auditor : Option A) :
    Except SecretManagerError (SecretManager A) := do
  let normalized ← (normalizeEnv B env).mapError .value
  let adapter ←
    if normalized = .prod then do
      match ← (config.getString "secrets.storage_path" none).mapError .validation with
      | some storagePath => .ok (.encrypted storagePath)
      | none =>
          .error (.validation
            ⟨"secrets.storage_path is required in prod (EncryptedSecretAdapter)",
              [("env", "prod"), ("key", "secrets.storage_path")]⟩)
    else .ok .inMemory
  return withAuditor auditor adapter

/-- In production the path of the configuration decides. -/
theorem buildSecretManager_prod
    (B : PyBuiltins F)
    {config : ConfigManager}
    (auditor : Option A)
    {path : String}
    (h : config.getString "secrets.storage_path" none = .ok (some path)) :
    buildSecretManager B "prod" config auditor =
      .ok (withAuditor auditor (.encrypted path)) := by
  unfold buildSecretManager
  rw [h]
  rfl

/-- A configuration that does not know the path stops the boot. -/
theorem buildSecretManager_prod_of_error
    (B : PyBuiltins F)
    {config : ConfigManager}
    (auditor : Option A)
    {error : ValidationError}
    (h : config.getString "secrets.storage_path" none = .error error) :
    buildSecretManager B "prod" config auditor = .error (.validation error) := by
  unfold buildSecretManager
  rw [h]
  rfl

end Build

end YamlAgno

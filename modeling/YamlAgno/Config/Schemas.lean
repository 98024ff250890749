import YamlAgno.Library.PyBuiltins
import YamlAgno.Library.Fallible

/-!
# The strict settings

`config/schemas.py`: six sections of typed fields, each of which forbids other keys,
and the rule that keeps basic authentication out of production.  A settings object
carries its own bounds, so that one that violates the schema cannot be built.

How pydantic takes a scalar for a field is given by `SettingsCoercions`.  The model is
a `BaseSettings`: what it validates is not the given dictionary alone but that
dictionary over what the environment variables add, `sources`.
-/

namespace YamlAgno

open PyNumber

/-- How pydantic takes values for the fields of the settings. -/
structure SettingsCoercions (F U : Type) extends Coercions where
  float : PyValue → Option F
  /-- `0.0 <= x <= 1.0`. -/
  inUnitInterval : F → Bool
  httpUrl : PyValue → Option U
  urlStr : U → String

/-- The environments. -/
inductive EnvName where
  | dev
  | staging
  | prod
deriving DecidableEq

/-- The string of an environment. -/
def EnvName.value : EnvName → String
  | dev => "dev"
  | staging => "staging"
  | prod => "prod"

/-- `normalize_env`; the error is the text of its `ValueError`. -/
def normalizeEnv
    {F : Type}
    (B : PyBuiltins F)
    (env : String) :
    Except String EnvName :=
  if env = "local" then .ok .dev
  else if env = "dev" then .ok .dev
  else if env = "staging" then .ok .staging
  else if env = "prod" then .ok .prod
  else .error s!"Invalid environment: {B.repr (.str env)}. Expected dev|staging|prod."

/-- An integer between two bounds, both included. -/
abbrev Bounded (ge le : ℤ) : Type :=
  {n : ℤ // ge ≤ n ∧ n ≤ le}

/-- A text that is one of those a pattern lists. -/
abbrev OneOf (texts : List String) : Type :=
  {text : String // text ∈ texts}

/-- `AppConfig`. -/
structure AppConfig where
  name : {text : String // 1 ≤ text.length ∧ text.length ≤ 64}
  env : OneOf ["dev", "staging", "prod"]

/-- `RuntimeConfig`. -/
structure RuntimeConfig where
  maxConcurrentAgents : Bounded 1 500
  requestTimeoutS : Bounded 1 600

/-- `PersistenceConfig`. -/
structure PersistenceConfig where
  poolSize : Bounded 1 100
  poolMaxOverflow : Bounded 0 100
  statementTimeoutMs : Bounded 100 60000

/-- `ObservabilityConfig`. -/
structure ObservabilityConfig {F U : Type} (P : SettingsCoercions F U) where
  otlpEndpoint : U
  sampleRate : {x : F // P.inUnitInterval x = true}

/-- `SecurityConfig`. -/
structure SecurityConfig where
  authMode : OneOf ["basic", "jwt"]
  tokenTtlMinutes : Bounded 1 1440

/-- `FlagDefaults`. -/
structure FlagDefaults where
  enableExperimentalRag : Bool

/-- `YamlAgnoSettings`; the last field is `_jwt_required_in_prod`. -/
structure YamlAgnoSettings {F U : Type} (P : SettingsCoercions F U) where
  app : AppConfig
  runtime : RuntimeConfig
  persistence : PersistenceConfig
  observability : ObservabilityConfig P
  security : SecurityConfig
  flags : FlagDefaults
  jwtRequiredInProd : ¬ (app.env.1 = "prod" ∧ security.authMode.1 = "basic")

section Validation

variable {F U : Type} (P : SettingsCoercions F U)

/-- A section: a dictionary that has no key but the given ones. -/
def readSection
    {α : Type}
    (fields : List String)
    (read : PyDict → Option α)
    (value : PyValue) :
    Option α := do
  let raw ← PyField.dictOf Coercions.exact.str some value
  if raw.all (fun entry => fields.contains entry.1) = true then read raw else none

/-- A required text that passes a check. -/
def textField
    (p : String → Prop) [DecidablePred p]
    (raw : PyDict)
    (field : String) :
    Option {text // p text} :=
  PyField.required (PyField.checked p P.str) raw field

/-- A required integer between two bounds. -/
def intField
    (ge le : ℤ)
    (raw : PyDict)
    (field : String) :
    Option (Bounded ge le) :=
  PyField.required (PyField.checked (fun n => ge ≤ n ∧ n ≤ le) P.int) raw field

/-- The fields of `AppConfig`. -/
def AppConfig.read (raw : PyDict) : Option AppConfig := do
  let name ← textField P (fun text => 1 ≤ text.length ∧ text.length ≤ 64) raw "name"
  let env ← textField P (fun text => text ∈ ["dev", "staging", "prod"]) raw "env"
  return ⟨name, env⟩

/-- The fields of `RuntimeConfig`. -/
def RuntimeConfig.read (raw : PyDict) : Option RuntimeConfig := do
  let maxConcurrentAgents ← intField P 1 500 raw "max_concurrent_agents"
  let requestTimeoutS ← intField P 1 600 raw "request_timeout_s"
  return ⟨maxConcurrentAgents, requestTimeoutS⟩

/-- The fields of `PersistenceConfig`. -/
def PersistenceConfig.read (raw : PyDict) : Option PersistenceConfig := do
  let poolSize ← intField P 1 100 raw "pool_size"
  let poolMaxOverflow ← intField P 0 100 raw "pool_max_overflow"
  let statementTimeoutMs ← intField P 100 60000 raw "statement_timeout_ms"
  return ⟨poolSize, poolMaxOverflow, statementTimeoutMs⟩

/-- The fields of `ObservabilityConfig`. -/
def ObservabilityConfig.read (raw : PyDict) : Option (ObservabilityConfig P) := do
  let otlpEndpoint ← PyField.required P.httpUrl raw "otlp_endpoint"
  let sampleRate ←
    PyField.required (PyField.checked (P.inUnitInterval · = true) P.float) raw "sample_rate"
  return ⟨otlpEndpoint, sampleRate⟩

/-- The fields of `SecurityConfig`. -/
def SecurityConfig.read (raw : PyDict) : Option SecurityConfig := do
  let authMode ← textField P (fun text => text ∈ ["basic", "jwt"]) raw "auth_mode"
  let tokenTtlMinutes ← intField P 1 1440 raw "token_ttl_minutes"
  return ⟨authMode, tokenTtlMinutes⟩

/-- The fields of `FlagDefaults`. -/
def FlagDefaults.read (raw : PyDict) : Option FlagDefaults := do
  let enableExperimentalRag ←
    PyField.withDefault false P.bool raw "enable_experimental_rag"
  return ⟨enableExperimentalRag⟩

/-- A required section. -/
def sectionField
    {α : Type}
    (fields : List String)
    (read : PyDict → Option α)
    (raw : PyDict)
    (field : String) :
    Option α :=
  PyField.required (readSection fields read) raw field

/-- `YamlAgnoSettings.model_validate`, with the environment already merged in. -/
def YamlAgnoSettings.validate (raw : PyDict) : Option (YamlAgnoSettings P) := do
  let app ← sectionField ["name", "env"] (AppConfig.read P) raw "app"
  let runtime ← sectionField ["max_concurrent_agents", "request_timeout_s"]
    (RuntimeConfig.read P) raw "runtime"
  let persistence ← sectionField ["pool_size", "pool_max_overflow", "statement_timeout_ms"]
    (PersistenceConfig.read P) raw "persistence"
  let observability ← sectionField ["otlp_endpoint", "sample_rate"]
    (ObservabilityConfig.read P) raw "observability"
  let security ← sectionField ["auth_mode", "token_ttl_minutes"]
    (SecurityConfig.read P) raw "security"
  let flags ← sectionField ["enable_experimental_rag"] (FlagDefaults.read P) raw "flags"
  if raw.all (fun entry => ["app", "runtime", "persistence", "observability", "security",
      "flags"].contains entry.1) = true then
    if h : app.env.1 = "prod" ∧ security.authMode.1 = "basic" then none
    else some ⟨app, runtime, persistence, observability, security, flags, h⟩
  else none

end Validation

/-! ## What accepted settings have been read from -/

/-- `raw[section][field]`. -/
def fieldOf
    (raw : PyDict)
    (section_ field : String) :
    Option PyValue :=
  (raw.lookup section_).bind fun value => value.item field

section Reads

variable {F U : Type} {P : SettingsCoercions F U}

/-- A field that is there and has been read as `a`. -/
def Reads
    {α : Type}
    (raw : PyDict)
    (section_ field : String)
    (read : PyValue → Option α)
    (a : α) :
    Prop :=
  ∃ value, fieldOf raw section_ field = some value ∧ read value = some a

/-- The settings, field by field, as they have been read from the merged dictionary. -/
structure YamlAgnoSettings.ReadFrom
    (raw : PyDict)
    (settings : YamlAgnoSettings P) :
    Prop where
  name : Reads raw "app" "name" P.str settings.app.name.1
  env : Reads raw "app" "env" P.str settings.app.env.1
  maxConcurrentAgents :
    Reads raw "runtime" "max_concurrent_agents" P.int settings.runtime.maxConcurrentAgents.1
  requestTimeoutS :
    Reads raw "runtime" "request_timeout_s" P.int settings.runtime.requestTimeoutS.1
  poolSize : Reads raw "persistence" "pool_size" P.int settings.persistence.poolSize.1
  poolMaxOverflow :
    Reads raw "persistence" "pool_max_overflow" P.int settings.persistence.poolMaxOverflow.1
  statementTimeoutMs :
    Reads raw "persistence" "statement_timeout_ms" P.int settings.persistence.statementTimeoutMs.1
  otlpEndpoint :
    Reads raw "observability" "otlp_endpoint" P.httpUrl settings.observability.otlpEndpoint
  sampleRate :
    Reads raw "observability" "sample_rate" P.float settings.observability.sampleRate.1
  authMode : Reads raw "security" "auth_mode" P.str settings.security.authMode.1
  tokenTtlMinutes :
    Reads raw "security" "token_ttl_minutes" P.int settings.security.tokenTtlMinutes.1
  enableExperimentalRag :
    fieldOf raw "flags" "enable_experimental_rag" = none ∨
      Reads raw "flags" "enable_experimental_rag" P.bool settings.flags.enableExperimentalRag

/-- An accepted section has been read from a dictionary. -/
theorem sectionField_eq_some
    {α : Type}
    {fields : List String}
    {read : PyDict → Option α}
    {raw : PyDict}
    {section_ : String}
    {a : α}
    (h : sectionField fields read raw section_ = some a) :
    ∃ inner : PyDict, read inner = some a ∧
      ∀ field, fieldOf raw section_ field = inner.lookup field := by
  obtain ⟨value, hvalue, hread⟩ := PyField.required_eq_some_iff.mp h
  simp only [readSection, Option.bind_eq_bind, Option.bind_eq_some_iff] at hread
  obtain ⟨inner, hinner, hread⟩ := hread
  split_ifs at hread
  refine ⟨inner, hread, fun field => ?_⟩
  rw [fieldOf, hvalue, Option.bind_some, PyField.lookup_of_dictOf hinner]

/-- A required field of an accepted section. -/
theorem reads_of_required
    {α : Type}
    {raw inner : PyDict}
    {section_ field : String}
    {read : PyValue → Option α}
    {a : α}
    (hfields : ∀ field, fieldOf raw section_ field = inner.lookup field)
    (h : PyField.required read inner field = some a) :
    Reads raw section_ field read a := by
  obtain ⟨value, hvalue, hread⟩ := PyField.required_eq_some_iff.mp h
  exact ⟨value, by rw [hfields, hvalue], hread⟩

/-- A checked field of an accepted section. -/
theorem reads_of_checked
    {α : Type}
    {raw inner : PyDict}
    {section_ field : String}
    {p : α → Prop} [DecidablePred p]
    {read : PyValue → Option α}
    {a : {a // p a}}
    (hfields : ∀ field, fieldOf raw section_ field = inner.lookup field)
    (h : PyField.required (PyField.checked p read) inner field = some a) :
    Reads raw section_ field read a.1 := by
  obtain ⟨value, hvalue, hread⟩ := reads_of_required hfields h
  exact ⟨value, hvalue, PyField.checked_eq_some hread⟩

/-- Accepted settings have been read field by field. -/
theorem YamlAgnoSettings.readFrom_of_validate
    {raw : PyDict}
    {settings : YamlAgnoSettings P}
    (h : YamlAgnoSettings.validate P raw = some settings) :
    settings.ReadFrom raw := by
  simp only [validate, Option.bind_eq_bind, Option.bind_eq_some_iff] at h
  obtain ⟨app, happ, runtime, hruntime, persistence, hpersistence, observability, hobservability,
    security, hsecurity, flags, hflags, h⟩ := h
  split_ifs at h
  cases h
  obtain ⟨app', happ, hinApp⟩ := sectionField_eq_some happ
  obtain ⟨runtime', hruntime, hinRuntime⟩ := sectionField_eq_some hruntime
  obtain ⟨persistence', hpersistence, hinPersistence⟩ := sectionField_eq_some hpersistence
  obtain ⟨observability', hobservability, hinObservability⟩ :=
    sectionField_eq_some hobservability
  obtain ⟨security', hsecurity, hinSecurity⟩ := sectionField_eq_some hsecurity
  obtain ⟨flags', hflags, hinFlags⟩ := sectionField_eq_some hflags
  simp only [AppConfig.read, RuntimeConfig.read, PersistenceConfig.read,
    ObservabilityConfig.read, SecurityConfig.read, FlagDefaults.read, textField, intField,
    Option.bind_eq_bind, Option.bind_eq_some_iff, Option.pure_def, Option.some.injEq]
    at happ hruntime hpersistence hobservability hsecurity hflags
  obtain ⟨name, hname, env, henv, rfl⟩ := happ
  obtain ⟨agents, hagents, timeout, htimeout, rfl⟩ := hruntime
  obtain ⟨size, hsize, overflow, hoverflow, statement, hstatement, rfl⟩ := hpersistence
  obtain ⟨endpoint, hendpoint, rate, hrate, rfl⟩ := hobservability
  obtain ⟨mode, hmode, ttl, httl, rfl⟩ := hsecurity
  obtain ⟨rag, hrag, rfl⟩ := hflags
  exact
    { name := reads_of_checked hinApp hname
      env := reads_of_checked hinApp henv
      maxConcurrentAgents := reads_of_checked hinRuntime hagents
      requestTimeoutS := reads_of_checked hinRuntime htimeout
      poolSize := reads_of_checked hinPersistence hsize
      poolMaxOverflow := reads_of_checked hinPersistence hoverflow
      statementTimeoutMs := reads_of_checked hinPersistence hstatement
      otlpEndpoint := reads_of_required hinObservability hendpoint
      sampleRate := reads_of_checked hinObservability hrate
      authMode := reads_of_checked hinSecurity hmode
      tokenTtlMinutes := reads_of_checked hinSecurity httl
      enableExperimentalRag := by
        unfold PyField.withDefault at hrag
        unfold Reads
        rw [hinFlags]
        split at hrag
        · next hnone => exact Or.inl hnone
        · next value hvalue => exact Or.inr ⟨value, hvalue, hrag⟩ }

end Reads

/-! ## A configuration that is accepted -/

/-- Coercions that take plain values only; a URL without a path gets its slash. -/
def plainCoercions : SettingsCoercions ℚ String :=
  { Coercions.exact with
    float := fun
      | .int 0 => some 0
      | .int 1 => some 1
      | _ => none
    inUnitInterval := fun x => decide (0 ≤ x ∧ x ≤ 1)
    httpUrl := fun
      | .str value =>
          some (if value.toList.getLast? = some '/' then value else value ++ "/")
      | _ => none
    urlStr := id }

/-- The sections of a development configuration with the given endpoint and flags. -/
def devSections
    (endpoint : String)
    (flags : PyDict) :
    PyDict :=
  [("app", .ofDict [("name", .str "yaml-agno"), ("env", .str "dev")]),
    ("runtime", .ofDict [("max_concurrent_agents", .int 10), ("request_timeout_s", .int 30)]),
    ("persistence", .ofDict [("pool_size", .int 5), ("pool_max_overflow", .int 10),
      ("statement_timeout_ms", .int 5000)]),
    ("observability", .ofDict [("otlp_endpoint", .str endpoint), ("sample_rate", .int 1)]),
    ("security", .ofDict [("auth_mode", .str "jwt"), ("token_ttl_minutes", .int 60)]),
    ("flags", .ofDict flags)]

/-- The settings that validate it. -/
def devSettings
    (endpoint : String)
    (enableExperimentalRag : Bool) :
    YamlAgnoSettings plainCoercions where
  app := ⟨⟨"yaml-agno", by decide⟩, ⟨"dev", by decide⟩⟩
  runtime := ⟨⟨10, by decide⟩, ⟨30, by decide⟩⟩
  persistence := ⟨⟨5, by decide⟩, ⟨10, by decide⟩, ⟨5000, by decide⟩⟩
  observability := ⟨endpoint, ⟨1, by decide⟩⟩
  security := ⟨⟨"jwt", by decide⟩, ⟨60, by decide⟩⟩
  flags := ⟨enableExperimentalRag⟩
  jwtRequiredInProd := by decide

example :
    YamlAgnoSettings.validate plainCoercions (devSections "http://localhost:4317" []) =
      some (devSettings "http://localhost:4317/" false) := by
  rfl

end YamlAgno

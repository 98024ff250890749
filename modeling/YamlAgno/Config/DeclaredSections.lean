import YamlAgno.Persistence.RegistryBuilds

/-!
# What consumers see through the facade

The secret manager and the database registry read sections that are not among the six
of `SECTIONS`.  Given the core itself they see what it declares
(`consumers_see_core`).  The facade answers any other section with nothing
(`resolveDotted_of_foreign`), so that through it they see what the core declares only
if that is nothing (`facade_shows_declared_iff`).
-/

namespace YamlAgno

open Fallible

/-! ## Sections outside the snapshot -/

section Foreign

variable {Env X V σ : Type} {modelValidate : Env → PyDict → Except V σ}

/-- A key outside the six sections is missing, whatever the core says. -/
theorem ConfigAdapter.resolveDotted_of_foreign
    {call : CoreCall Env X}
    {adapter : ConfigAdapter σ}
    (hboot : construct modelValidate call = .ok adapter)
    {key name : String}
    {fields : List String}
    (hkey : PyValue.keyParts key = name :: fields)
    (hname : name ∉ SECTIONS) :
    adapter.resolveDotted key = .none := by
  obtain ⟨hsections, -⟩ := (construct_eq_ok_iff modelValidate).mp hboot
  have hnone : adapter.snapshot.lookup name = none := by
    rw [List.lookup_eq_none_iff]
    intro entry hentry
    have hmem : entry.1 ∈ SECTIONS :=
      keys_of_readSections hsections ▸ List.mem_map_of_mem hentry
    simpa using fun heq : name = entry.1 => hname (heq ▸ hmem)
  rw [resolveDotted, hkey, PyValue.resolve, PyValue.item_ofDict, hnone]

end Foreign

/-! ## Consumers -/

section Consumers

variable {F A D V X Y : Type} (B : PyBuiltins F) (getSecret : String → Except X String)
  (dbFactory : String → String → Except X D)
  (vectorDbFactory : String → String → String → Except X V) (auditor : Option A)

/--
Consumers that are given `config` see what `core` declares: the storage path of the
secrets in production, and the refs of the two sections of databases.
-/
structure SeesDeclared (core config : ConfigManager) : Prop where
  secrets : ∀ path, core.getString "secrets.storage_path" none = .ok (some path) → path ≠ "" →
    buildSecretManager B "prod" config auditor = .ok (withAuditor auditor (.encrypted path))
  registry : ∃ registry,
    buildDbRegistry B getSecret dbFactory vectorDbFactory config = .ok registry ∧ ∀ ref,
      (ref ∈ registry.dbs.map Prod.fst ↔ ref ∈ (core.getSection "databases").map Prod.fst) ∧
      (ref ∈ registry.vectorDbs.map Prod.fst ↔
        ref ∈ (core.getSection "vector_databases").map Prod.fst)

/-- Given the core itself, they see what it declares, unless an entry is refused. -/
theorem consumers_see_core
    (core : ConfigManager)
    (hbuilds : ∃ registry,
      buildDbRegistry B getSecret dbFactory vectorDbFactory core = .ok registry) :
    SeesDeclared B getSecret dbFactory vectorDbFactory auditor core core where
  secrets path hpath _ := buildSecretManager_prod B auditor hpath
  registry := by
    obtain ⟨registry, hregistry⟩ := hbuilds
    exact ⟨registry, hregistry, refs_of_buildDbRegistry core hregistry⟩

/-- The call of the core when the facade is constructed over it; `Y` are its exceptions. -/
def bootCall
    {Env : Type}
    (Y : Type)
    (core : ConfigManager)
    (environment : Env) :
    CoreCall Env Y where
  reload := .ok ()
  getSection name := .ok (.ofDict (core.getSection name))
  environment := environment

variable {Env W σ : Type} {modelValidate : Env → PyDict → Except W σ}

/-- The facade has neither a storage path nor databases. -/
theorem facade_hides
    {core : ConfigManager}
    {environment : Env}
    {facade : ConfigAdapter σ}
    (hboot : ConfigAdapter.construct modelValidate (bootCall Y core environment) = .ok facade) :
    (∃ error, (facade.toConfigManager B).getString "secrets.storage_path" none = .error error) ∧
      (facade.toConfigManager B).getSection "databases" = [] ∧
      (facade.toConfigManager B).getSection "vector_databases" = [] := by
  have hsecrets := ConfigAdapter.resolveDotted_of_foreign hboot
    (show PyValue.keyParts "secrets.storage_path" = ["secrets", "storage_path"] from rfl)
    (by decide)
  have hdbs := ConfigAdapter.resolveDotted_of_foreign hboot
    (show PyValue.keyParts "databases" = ["databases"] from rfl) (by decide)
  have hvectors := ConfigAdapter.resolveDotted_of_foreign hboot
    (show PyValue.keyParts "vector_databases" = ["vector_databases"] from rfl) (by decide)
  refine ⟨⟨⟨"Missing required config key: secrets.storage_path",
    [("key", "secrets.storage_path")]⟩, ?_⟩, ?_, ?_⟩
  · simp only [ConfigAdapter.toConfigManager, ConfigAdapter.getString_of_missing hsecrets]
    rfl
  · simp only [ConfigAdapter.toConfigManager, ConfigAdapter.getSection, hdbs]
    rfl
  · simp only [ConfigAdapter.toConfigManager, ConfigAdapter.getSection, hvectors]
    rfl

/-- A section that declares what an empty registry holds is empty. -/
theorem eq_nil_of_no_refs
    {T : Type}
    {declared : PyDict}
    (h : ∀ ref, ref ∈ ([] : List (String × T)).map Prod.fst ↔ ref ∈ declared.map Prod.fst) :
    declared = [] := by
  cases declared with
  | nil =>
      rfl
  | cons item items =>
      have hmem := (h item.1).mpr List.mem_cons_self
      cases hmem

/--
Through the facade the consumers see what the core declares exactly if it declares no
storage path, or an empty one, and no database.
-/
theorem facade_shows_declared_iff
    {core : ConfigManager}
    {environment : Env}
    {facade : ConfigAdapter σ}
    (hboot : ConfigAdapter.construct modelValidate (bootCall Y core environment) = .ok facade) :
    SeesDeclared B getSecret dbFactory vectorDbFactory auditor core (facade.toConfigManager B) ↔
      (∀ path, core.getString "secrets.storage_path" none = .ok (some path) → path = "") ∧
        core.getSection "databases" = [] ∧ core.getSection "vector_databases" = [] := by
  obtain ⟨⟨error, hsecrets⟩, hdbs, hvectors⟩ := facade_hides B hboot
  have hempty : buildDbRegistry B getSecret dbFactory vectorDbFactory (facade.toConfigManager B) =
      .ok InMemoryDbRegistry.empty := by
    rw [buildDbRegistry, hdbs, hvectors]
    rfl
  constructor
  · intro h
    obtain ⟨registry, hbuilt, hrefs⟩ := h.registry
    cases hempty.symm.trans hbuilt
    refine ⟨fun path hpath => ?_, ?_, ?_⟩
    · by_contra hne
      have hbuilt := h.secrets path hpath hne
      rw [buildSecretManager_prod_of_error B auditor hsecrets] at hbuilt
      cases hbuilt
    · exact eq_nil_of_no_refs fun ref => (hrefs ref).1
    · exact eq_nil_of_no_refs fun ref => (hrefs ref).2
  · rintro ⟨hpath, hcoreDbs, hcoreVectors⟩
    refine ⟨fun path h hne => absurd (hpath path h) hne, _, hempty, fun ref => ?_⟩
    rw [hcoreDbs, hcoreVectors]
    exact ⟨Iff.rfl, Iff.rfl⟩

end Consumers

/-- A core manager that holds the given sections. -/
def coreHolding (content : PyDict) : ConfigManager :=
  ConfigAdapter.toConfigManager ConfigAdapter.plainBuiltins (⟨content, ()⟩ : ConfigAdapter Unit)

/-- Without secrets and databases. -/
def plainContent : PyDict :=
  devSections "http://localhost:4317/" []

/-- With a storage path and one database. -/
def declaringContent : PyDict :=
  plainContent ++
    [("secrets", .ofDict [("storage_path", .str "/var/lib/yaml-agno/secrets")]),
      ("databases", .ofDict [("primary_pg", .ofDict [("dsn", .str "sqlite://")])])]

/-- The facade over either of them. -/
def plainFacade : ConfigAdapter (YamlAgnoSettings plainCoercions) :=
  ⟨plainContent, devSettings "http://localhost:4317/" false⟩

theorem facade_shows_declared_plain :
    SeesDeclared ConfigAdapter.plainBuiltins (fun _ => (.error () : Except Unit String))
      (fun _ dsn => .ok dsn) (fun _ dsn _ => .ok dsn) (none : Option Unit)
      (coreHolding plainContent) (plainFacade.toConfigManager ConfigAdapter.plainBuiltins) := by
  have hboot : ConfigAdapter.construct ConfigAdapter.plainValidate
      (bootCall Unit (coreHolding plainContent) ()) = .ok plainFacade := rfl
  refine (facade_shows_declared_iff ConfigAdapter.plainBuiltins _ _ _ none hboot).mpr
    ⟨fun path h => ?_, rfl, rfl⟩
  cases h

theorem facade_hides_storagePath :
    ConfigAdapter.construct ConfigAdapter.plainValidate
        (bootCall Unit (coreHolding declaringContent) ()) = .ok plainFacade ∧
      ¬ SeesDeclared ConfigAdapter.plainBuiltins (fun _ => (.error () : Except Unit String))
        (fun _ dsn => .ok dsn) (fun _ dsn _ => .ok dsn) (none : Option Unit)
        (coreHolding declaringContent)
        (plainFacade.toConfigManager ConfigAdapter.plainBuiltins) := by
  refine ⟨rfl, fun h => ?_⟩
  have hbuilt := h.secrets "/var/lib/yaml-agno/secrets" rfl (by decide)
  cases hbuilt

end YamlAgno

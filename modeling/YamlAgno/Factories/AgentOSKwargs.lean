import YamlAgno.Factories.AgentOSFields
import YamlAgno.Library.OrderedDict

/-!
# The keyword arguments of AgentOS

The factory passes a dictionary of keyword arguments.  It starts as a dump of the whole
configuration, loses the keys that the factory owns, and gains what the phases of the
build resolve and map.  `assembleKwargs` follows the dictionary; what it comes to is what
`AgentOSFactory.build` constructs the `AgentOS` with (`assembleKwargs_of_build`).

The references to agents, teams, workflows, knowledge, the database and interfaces are
passed as live objects.  The base app and the lifespan are not among the owned keys: they
are forwarded as the import paths that they are (`references_resolved`).
-/

namespace YamlAgno

open Authorization Fallible

/-! ## The dump of a configuration -/

namespace ServedConfig

/-- A value of the dump; `None` is excluded. -/
def dumpValue : Reached Empty → Option PyValue
  | .value .none => none
  | .value value => some value
  | _ => none

/-- The dump of some fields. -/
def dumpFields
    (dump : Reached Empty → Option PyValue)
    (fields : List (String × Reached Empty)) :
    PyDict :=
  fields.filterMap fun field => (dump field.2).map fun value => (field.1, value)

/-- A value of the dump of the configuration; its nested settings are dumped too. -/
def dumpField (config : ServedConfig) : Reached Empty → Option PyValue
  | .value value => dumpValue (.value value)
  | .object object => object.elim
  | .config => none
  | nested => some (.ofDict (dumpFields dumpValue (config.fields nested)))

/-- `to_agno_kwargs`. -/
def toAgnoKwargs (config : ServedConfig) : PyDict :=
  dumpFields config.dumpField (config.fields .config)

end ServedConfig

/-! ## Keyword arguments -/

/-- The value of a keyword argument. -/
inductive KwargValue (H : FactoryHost) where
  | raw (value : PyValue)
  | objects (objects : List H.Object)
  | database (database : H.Database)
  | interfaces (interfaces : List (Interface H.Object))
  | authorizationConfig (config : AuthorizationConfig)
  | mcpServer (config : H.McpConfig)

/-- A dictionary of keyword arguments. -/
abbrev Kwargs (H : FactoryHost) : Type :=
  List (String × KwargValue H)

/-- An argument that may not be passed. -/
def passed {V : Type} (key : String) (value : Option V) : List (String × V) :=
  (value.map fun value => (key, value)).toList

/-- `kwargs.update(entries)`. -/
def update {V : Type} (kwargs entries : List (String × V)) : List (String × V) :=
  entries.foldl (fun kwargs entry => OrderedDict.set entry.1 entry.2 kwargs) kwargs

/-- The keys that `_pop_owned_keys` removes. -/
def ownedKeys : List String :=
  ["agents", "teams", "workflows", "knowledge", "db", "interfaces", "authorization", "mcp",
    "scheduler", "resync", "config"]

/-- `_pop_owned_keys`. -/
def popOwnedKeys {V : Type} (kwargs : List (String × V)) : List (String × V) :=
  ownedKeys.foldl (fun kwargs key => kwargs.filter fun entry => entry.1 ≠ key) kwargs

/-- The arguments of an authenticated `AgentOS`. -/
def authorizationKwargs {H : FactoryHost} (config : Option AuthorizationConfig) : Kwargs H :=
  match config with
  | none => []
  | some config =>
      [("authorization", .raw (.bool true)), ("authorization_config", .authorizationConfig config)]

/-- The arguments of the scheduler. -/
def schedulerKwargs {H : FactoryHost} (enabled : Bool) (pollInterval : ℕ) : Kwargs H :=
  [("scheduler", .raw (.bool enabled)), ("scheduler_poll_interval", .raw (.int pollInterval))]

namespace AgentOSFactory

variable {H : FactoryHost} (factory : AgentOSFactory H)

/-- `_build_dependencies`. -/
def buildDependencies (config : ServedConfig) : Except (BuildFailure H.Error) (Kwargs H) := do
  let agents ← resolveRefs config.agents factory.agentRegistry "agent"
  let teams ← resolveRefs config.teams factory.teamRegistry "team"
  let workflows ← resolveRefs config.workflows factory.workflowRegistry "workflow"
  let knowledge ← passedIf (config.knowledge ≠ [])
    (resolveRefs config.knowledge factory.knowledgeRegistry "knowledge")
  let db ← config.db.mapM fun ref => (factory.getDb ref).mapError (unresolved "db" ref)
  return [("agents", .objects agents), ("teams", .objects teams),
    ("workflows", .objects workflows)] ++
    passed "knowledge" (knowledge.map .objects) ++ passed "db" (db.map .database)

/-- `_wire_integrations`. -/
def wireIntegrations
    (config : ServedConfig)
    (kwargs : Kwargs H) :
    Except (BuildFailure H.Error) (Kwargs H) := do
  let authorizationConfig ← passedIf config.authorization.enabled
    (factory.buildAuthorizationConfig config.authorization)
  let kwargs := update kwargs (authorizationKwargs authorizationConfig)
  let mcpServer ← passedIf config.mcp.enabled
    ((H.mcpServerConfig (mcpArguments config.mcp)).mapError .propagated)
  let kwargs := update kwargs (passed "mcp_server" (mcpServer.map .mcpServer))
  let kwargs := update kwargs
    (schedulerKwargs config.scheduler.enabled config.scheduler.pollInterval)
  let interfaces ← factory.wireInterfaces config.interfaces
  return update kwargs (passed "interfaces" (interfaces.map .interfaces))

/-- `build`, up to the construction of the `AgentOS`. -/
def assembleKwargs (config : ServedConfig) : Except (BuildFailure H.Error) (Kwargs H) := do
  validateConfig config.toAgentOSConfig
  let kwargs := (popOwnedKeys config.toAgnoKwargs).map fun entry => (entry.1, .raw entry.2)
  let dependencies ← factory.buildDependencies config
  factory.wireIntegrations config (update kwargs dependencies)

end AgentOSFactory

/-! ## What is left of the dump -/

/-- The fields that are forwarded as they are. -/
def forwarded
    (name : String)
    (baseApp lifespan : Option String)
    (a2aInterface : Bool)
    (corsAllowedOrigins : Option (List String))
    (autoProvisionDbs runHooksInBackground tracing : Bool) :
    PyDict :=
  [("name", .str name)] ++ passed "base_app" (baseApp.map .str) ++
    passed "lifespan" (lifespan.map .str) ++ [("a2a_interface", .bool a2aInterface)] ++
    passed "cors_allowed_origins" (corsAllowedOrigins.map ServedConfig.strings) ++
    [("auto_provision_dbs", .bool autoProvisionDbs),
      ("run_hooks_in_background", .bool runHooksInBackground), ("tracing", .bool tracing)]

theorem popOwnedKeys_eq
    {V : Type}
    (kwargs : List (String × V)) :
    popOwnedKeys kwargs = kwargs.filter fun entry => entry.1 ∉ ownedKeys := by
  have hfold : ∀ (keys : List String) (kwargs : List (String × V)),
      keys.foldl (fun kwargs key => kwargs.filter fun entry => entry.1 ≠ key) kwargs =
        kwargs.filter fun entry => entry.1 ∉ keys := by
    intro keys
    induction keys with
    | nil =>
        intro kwargs
        simp
    | cons key keys ih =>
        intro kwargs
        rw [List.foldl_cons, ih, List.filter_filter]
        congr 1
        funext entry
        simp [Bool.and_comm]
  exact hfold ownedKeys kwargs

namespace ServedConfig

/-- Removing keys from a dump is dumping without their fields. -/
theorem filter_dumpFields
    (dump : Reached Empty → Option PyValue)
    (fields : List (String × Reached Empty))
    (keep : String → Bool) :
    (dumpFields dump fields).filter (fun entry => keep entry.1) =
      dumpFields dump (fields.filter fun field => keep field.1) := by
  induction fields with
  | nil =>
      rfl
  | cons field fields ih =>
      rw [dumpFields, dumpFields] at ih ⊢
      cases hdump : dump field.2 <;> cases hkeep : keep field.1 <;>
        simp [hdump, hkeep, ih]

theorem popOwnedKeys_toAgnoKwargs
    (config : ServedConfig) :
    popOwnedKeys config.toAgnoKwargs =
      forwarded config.name config.baseApp config.lifespan config.a2aInterface
        config.corsAllowedOrigins config.autoProvisionDbs config.runHooksInBackground
        config.tracing := by
  rw [popOwnedKeys_eq, toAgnoKwargs, filter_dumpFields _ _ fun key => key ∉ ownedKeys]
  have hfields : (config.fields .config : List (String × Reached Empty)).filter
      (fun field => field.1 ∉ ownedKeys) =
        [("name", .value (.str config.name)),
          ("base_app", .value (orNoneValue .str config.baseApp)),
          ("lifespan", .value (orNoneValue .str config.lifespan)),
          ("a2a_interface", .value (.bool config.a2aInterface)),
          ("cors_allowed_origins", .value (orNoneValue strings config.corsAllowedOrigins)),
          ("auto_provision_dbs", .value (.bool config.autoProvisionDbs)),
          ("run_hooks_in_background", .value (.bool config.runHooksInBackground)),
          ("tracing", .value (.bool config.tracing))] := by
    rfl
  rw [hfields]
  cases config.baseApp <;> cases config.lifespan <;> cases config.corsAllowedOrigins <;> rfl

end ServedConfig

/-! ## What the dictionary comes to -/

/-- The keyword arguments that an `AgentOS` has been constructed with. -/
def kwargsOf {H : FactoryHost} (agentos : AgentOS H) : Kwargs H :=
  ((forwarded agentos.name agentos.baseApp agentos.lifespan agentos.a2aInterface
      agentos.corsAllowedOrigins agentos.autoProvisionDbs agentos.runHooksInBackground
      agentos.tracing).map fun entry => (entry.1, .raw entry.2)) ++
    ([("agents", .objects agentos.agents), ("teams", .objects agentos.teams),
      ("workflows", .objects agentos.workflows)] ++
      passed "knowledge" (agentos.knowledge.map .objects) ++
      passed "db" (agentos.db.map .database)) ++
    authorizationKwargs agentos.authorizationConfig ++
    passed "mcp_server" (agentos.mcpServer.map .mcpServer) ++
    schedulerKwargs agentos.scheduler agentos.schedulerPollInterval ++
    passed "interfaces" (agentos.interfaces.map .interfaces)

theorem mem_passed
    {V : Type}
    {key key' : String}
    {value : Option V}
    {v : V} :
    (key', v) ∈ passed key value ↔ key' = key ∧ value = some v := by
  cases value with
  | none =>
      simp [passed]
  | some value =>
      simp [passed, eq_comm]

theorem mem_authorizationKwargs
    {H : FactoryHost}
    {config : Option AuthorizationConfig}
    {key : String}
    {value : KwargValue H} :
    (key, value) ∈ authorizationKwargs config ↔
      ∃ config', config = some config' ∧
        (key = "authorization" ∧ value = .raw (.bool true) ∨
          key = "authorization_config" ∧ value = .authorizationConfig config') := by
  cases config <;> simp [authorizationKwargs]

/-- All keys, in the order in which they come. -/
def parameterNames : List String :=
  ["name", "base_app", "lifespan", "a2a_interface", "cors_allowed_origins",
    "auto_provision_dbs", "run_hooks_in_background", "tracing", "agents", "teams", "workflows",
    "knowledge", "db", "authorization", "authorization_config", "mcp_server", "scheduler",
    "scheduler_poll_interval", "interfaces"]

theorem keys_passed_sublist
    {V : Type}
    (key : String)
    (value : Option V) :
    ((passed key value).map Prod.fst).Sublist [key] := by
  cases value with
  | none =>
      exact List.nil_sublist [key]
  | some value =>
      exact List.Sublist.refl [key]

theorem keys_authorizationKwargs_sublist
    {H : FactoryHost}
    (config : Option AuthorizationConfig) :
    ((authorizationKwargs (H := H) config).map Prod.fst).Sublist
      ["authorization", "authorization_config"] := by
  cases config with
  | none =>
      exact List.nil_sublist _
  | some config =>
      exact List.Sublist.refl _

theorem keys_forwarded_sublist
    (name : String)
    (baseApp lifespan : Option String)
    (a2aInterface : Bool)
    (corsAllowedOrigins : Option (List String))
    (autoProvisionDbs runHooksInBackground tracing : Bool) :
    ((forwarded name baseApp lifespan a2aInterface corsAllowedOrigins autoProvisionDbs
      runHooksInBackground tracing).map Prod.fst).Sublist
      (["name"] ++ ["base_app"] ++ ["lifespan"] ++ ["a2a_interface"] ++
        ["cors_allowed_origins"] ++
        ["auto_provision_dbs", "run_hooks_in_background", "tracing"]) := by
  simp only [forwarded, List.map_append]
  have hpassed : ∀ key (value : Option PyValue),
      ((passed key value).map Prod.fst).Sublist [key] := keys_passed_sublist
  refine .append (.append (.append (.append (.append ?_ ?_) ?_) ?_) ?_) ?_
  · exact List.Sublist.refl ["name"]
  · exact hpassed "base_app" _
  · exact hpassed "lifespan" _
  · exact List.Sublist.refl ["a2a_interface"]
  · exact hpassed "cors_allowed_origins" _
  · exact List.Sublist.refl ["auto_provision_dbs", "run_hooks_in_background", "tracing"]

/-- Every key comes once, in the order of the parameters. -/
theorem keys_kwargsOf_sublist
    {H : FactoryHost}
    (agentos : AgentOS H) :
    ((kwargsOf agentos).map Prod.fst).Sublist parameterNames := by
  have hpassed : ∀ key (value : Option (KwargValue H)),
      ((passed key value).map Prod.fst).Sublist [key] := keys_passed_sublist
  have hraw : ∀ entries : PyDict,
      ((entries.map fun entry => (entry.1, KwargValue.raw (H := H) entry.2)).map Prod.fst) =
        entries.map Prod.fst := by
    intro entries
    rw [List.map_map]
    rfl
  have hnames : parameterNames =
      (["name"] ++ ["base_app"] ++ ["lifespan"] ++ ["a2a_interface"] ++
          ["cors_allowed_origins"] ++
          ["auto_provision_dbs", "run_hooks_in_background", "tracing"]) ++
        (["agents", "teams", "workflows"] ++ ["knowledge"] ++ ["db"]) ++
        ["authorization", "authorization_config"] ++ ["mcp_server"] ++
        ["scheduler", "scheduler_poll_interval"] ++ ["interfaces"] := rfl
  rw [hnames]
  simp only [kwargsOf, List.map_append, hraw]
  refine .append (.append (.append (.append (.append ?_ (.append (.append ?_ ?_) ?_)) ?_) ?_) ?_) ?_
  · exact keys_forwarded_sublist _ _ _ _ _ _ _ _
  · exact List.Sublist.refl ["agents", "teams", "workflows"]
  · exact hpassed "knowledge" _
  · exact hpassed "db" _
  · exact keys_authorizationKwargs_sublist _
  · exact hpassed "mcp_server" _
  · exact List.Sublist.refl ["scheduler", "scheduler_poll_interval"]
  · exact hpassed "interfaces" _

/-- What is passed under each of the keys that may be missing. -/
theorem mem_kwargsOf_iff
    {H : FactoryHost}
    {agentos : AgentOS H}
    {value : KwargValue H} :
    (("knowledge", value) ∈ kwargsOf agentos ↔
      ∃ objects, agentos.knowledge = some objects ∧ value = .objects objects) ∧
    (("db", value) ∈ kwargsOf agentos ↔
      ∃ database, agentos.db = some database ∧ value = .database database) ∧
    (("interfaces", value) ∈ kwargsOf agentos ↔
      ∃ interfaces, agentos.interfaces = some interfaces ∧ value = .interfaces interfaces) ∧
    (("base_app", value) ∈ kwargsOf agentos ↔
      ∃ path, agentos.baseApp = some path ∧ value = .raw (.str path)) ∧
    (("lifespan", value) ∈ kwargsOf agentos ↔
      ∃ path, agentos.lifespan = some path ∧ value = .raw (.str path)) := by
  refine ⟨?_, ?_, ?_, ?_, ?_⟩ <;>
    simp [kwargsOf, forwarded, mem_passed, mem_authorizationKwargs, schedulerKwargs, eq_comm]

theorem nodup_keys_kwargsOf
    {H : FactoryHost}
    (agentos : AgentOS H) :
    ((kwargsOf agentos).map Prod.fst).Nodup :=
  List.Nodup.sublist (keys_kwargsOf_sublist agentos) (by decide)

/-- An update with new keys puts them last. -/
theorem update_of_nodup
    {V : Type}
    {kwargs entries : List (String × V)}
    (h : ((kwargs ++ entries).map Prod.fst).Nodup) :
    update kwargs entries = kwargs ++ entries :=
  OrderedDict.foldl_set_of_nodup h

namespace AgentOSFactory

variable {H : FactoryHost} {factory : AgentOSFactory H} {config : ServedConfig} {built : Built H}

/-- The fields of the configuration that an `AgentOS` has unchanged. -/
def Kept (config : ServedConfig) (agentos : AgentOS H) : Prop :=
  agentos.name = config.name ∧ agentos.baseApp = config.baseApp ∧
    agentos.lifespan = config.lifespan ∧ agentos.a2aInterface = config.a2aInterface ∧
    agentos.corsAllowedOrigins = config.corsAllowedOrigins ∧
    agentos.autoProvisionDbs = config.autoProvisionDbs ∧
    agentos.runHooksInBackground = config.runHooksInBackground ∧
    agentos.tracing = config.tracing ∧ agentos.scheduler = config.scheduler.enabled ∧
    agentos.schedulerPollInterval = config.scheduler.pollInterval

/-- What a build that returns has resolved. -/
structure Resolved
    (factory : AgentOSFactory H)
    (config : ServedConfig)
    (agentos : AgentOS H) : Prop where
  agents : resolveRefs config.agents factory.agentRegistry "agent" = .ok agentos.agents
  teams : resolveRefs config.teams factory.teamRegistry "team" = .ok agentos.teams
  workflows :
    resolveRefs config.workflows factory.workflowRegistry "workflow" = .ok agentos.workflows
  knowledge :
    passedIf (config.knowledge ≠ [])
      (resolveRefs config.knowledge factory.knowledgeRegistry "knowledge") = .ok agentos.knowledge
  db :
    config.db.mapM (fun ref => (factory.getDb ref).mapError (unresolved "db" ref)) =
      .ok agentos.db
  authorizationConfig :
    passedIf config.authorization.enabled
      (factory.buildAuthorizationConfig config.authorization) = .ok agentos.authorizationConfig
  mcpServer :
    passedIf config.mcp.enabled ((H.mcpServerConfig (mcpArguments config.mcp)).mapError
      (BuildFailure.propagated (E := H.Error))) = .ok agentos.mcpServer
  interfaces : factory.wireInterfaces config.interfaces = .ok agentos.interfaces
  kept : Kept config agentos
  valid : validateConfig (H := H) config.toAgentOSConfig = .ok ()

theorem resolved_of_build
    (hbuild : factory.build config.toAgentOSConfig = .ok built) :
    Resolved factory config built.agentos := by
  obtain ⟨_, hvalid, hbuild⟩ := bind_eq_ok_iff.mp hbuild
  obtain ⟨agents, hagents, hbuild⟩ := bind_eq_ok_iff.mp hbuild
  obtain ⟨teams, hteams, hbuild⟩ := bind_eq_ok_iff.mp hbuild
  obtain ⟨workflows, hworkflows, hbuild⟩ := bind_eq_ok_iff.mp hbuild
  obtain ⟨knowledge, hknowledge, hbuild⟩ := bind_eq_ok_iff.mp hbuild
  obtain ⟨db, hdb, hbuild⟩ := bind_eq_ok_iff.mp hbuild
  obtain ⟨authorizationConfig, hauthorization, hbuild⟩ := bind_eq_ok_iff.mp hbuild
  obtain ⟨mcpServer, hmcp, hbuild⟩ := bind_eq_ok_iff.mp hbuild
  obtain ⟨interfaces, hinterfaces, hbuild⟩ := bind_eq_ok_iff.mp hbuild
  obtain ⟨_, -, hbuild⟩ := bind_eq_ok_iff.mp hbuild
  cases hbuild
  exact ⟨hagents, hteams, hworkflows, hknowledge, hdb, hauthorization, hmcp, hinterfaces,
    ⟨rfl, rfl, rfl, rfl, rfl, rfl, rfl, rfl, rfl, rfl⟩, hvalid⟩

/-- The dictionary of a build comes to the arguments of its `AgentOS`. -/
theorem assembleKwargs_of_build
    (hbuild : factory.build config.toAgentOSConfig = .ok built) :
    factory.assembleKwargs config = .ok (kwargsOf built.agentos) := by
  have h := resolved_of_build hbuild
  obtain ⟨hname, hbaseApp, hlifespan, ha2a, hcors, hprovision, hhooks, htracing, hscheduler,
    hpoll⟩ := h.kept
  have hdependencies : factory.buildDependencies config =
      .ok ([("agents", .objects built.agentos.agents), ("teams", .objects built.agentos.teams),
        ("workflows", .objects built.agentos.workflows)] ++
        passed "knowledge" (built.agentos.knowledge.map .objects) ++
        passed "db" (built.agentos.db.map .database)) := by
    simp only [buildDependencies, h.agents, h.teams, h.workflows, h.knowledge, h.db]
    rfl
  simp only [assembleKwargs, h.valid, hdependencies, wireIntegrations, h.authorizationConfig,
    h.mcpServer, h.interfaces, ServedConfig.popOwnedKeys_toAgnoKwargs, ← hname, ← hbaseApp,
    ← hlifespan, ← ha2a, ← hcors, ← hprovision, ← hhooks, ← htracing, ← hscheduler, ← hpoll]
  -- Each update brings keys that the dictionary has not had, so it appends.
  have hpart : ∀ {part : Kwargs H}, part <+: kwargsOf built.agentos →
      (part.map Prod.fst).Nodup := fun hinitial =>
    (nodup_keys_kwargsOf built.agentos).sublist (hinitial.sublist.map Prod.fst)
  have hinterfaces := List.prefix_refl (kwargsOf built.agentos)
  have hscheduled := (List.prefix_append _ _).trans hinterfaces
  have hserved := (List.prefix_append _ _).trans hscheduled
  have hauthorized := (List.prefix_append _ _).trans hserved
  have hresolved := (List.prefix_append _ _).trans hauthorized
  refine congrArg Except.ok ?_
  rw [update_of_nodup (hpart hresolved), update_of_nodup (hpart hauthorized),
    update_of_nodup (hpart hserved), update_of_nodup (hpart hscheduled),
    update_of_nodup (hpart hinterfaces)]
  rfl

/-! ## References -/

/-- The arguments that are values of the configuration itself. -/
def plainArguments (config : ServedConfig) : PyDict :=
  forwarded config.name config.baseApp config.lifespan config.a2aInterface
      config.corsAllowedOrigins config.autoProvisionDbs config.runHooksInBackground
      config.tracing ++
    [("authorization", .bool true), ("scheduler", .bool config.scheduler.enabled),
      ("scheduler_poll_interval", .int config.scheduler.pollInterval)]

/-- References are passed as live objects, one for each in the order of the configuration,
or not at all; the base app and the lifespan are forwarded as their import paths. -/
structure ReferencesResolved
    (factory : AgentOSFactory H)
    (config : ServedConfig)
    (kwargs : Kwargs H) : Prop where
  keys_nodup : (kwargs.map Prod.fst).Nodup
  agents :
    ∃ objects, ("agents", .objects objects) ∈ kwargs ∧
      List.Forall₂ (fun ref object => factory.agentRegistry.get ref = .ok object)
        config.agents objects
  teams :
    ∃ objects, ("teams", .objects objects) ∈ kwargs ∧
      List.Forall₂ (fun ref object => factory.teamRegistry.get ref = .ok object)
        config.teams objects
  workflows :
    ∃ objects, ("workflows", .objects objects) ∈ kwargs ∧
      List.Forall₂ (fun ref object => factory.workflowRegistry.get ref = .ok object)
        config.workflows objects
  knowledge :
    ∀ value, ("knowledge", value) ∈ kwargs → ∃ objects, value = .objects objects ∧
      List.Forall₂ (fun ref object => factory.knowledgeRegistry.get ref = .ok object)
        config.knowledge objects
  db :
    ∀ value, ("db", value) ∈ kwargs → ∃ ref database, config.db = some ref ∧
      value = .database database ∧ factory.getDb ref = .ok database
  interfaces :
    ∀ value, ("interfaces", value) ∈ kwargs → ∃ registry interfaces,
      factory.interfaceRegistry = some registry ∧ value = .interfaces interfaces ∧
      List.Forall₂ (fun iface interface => ∃ spec, InterfaceSpec.validate iface = some spec ∧
        registry.build spec factory.resolveTarget none = .ok interface)
        config.interfaces interfaces
  base_app :
    ∀ value, ("base_app", value) ∈ kwargs ↔
      ∃ path, config.baseApp = some path ∧ value = .raw (.str path)
  lifespan :
    ∀ value, ("lifespan", value) ∈ kwargs ↔
      ∃ path, config.lifespan = some path ∧ value = .raw (.str path)
  raw : ∀ key value, (key, .raw value) ∈ kwargs → (key, value) ∈ plainArguments config

/-- A raw value is passed under the key of its own field, or as a flag of the build. -/
theorem mem_plainArguments_of_mem_kwargsOf
    {agentos : AgentOS H}
    (hkept : Kept config agentos)
    {key : String}
    {value : PyValue}
    (h : (key, KwargValue.raw value) ∈ kwargsOf agentos) :
    (key, value) ∈ plainArguments config := by
  obtain ⟨hname, hbaseApp, hlifespan, ha2a, hcors, hprovision, hhooks, htracing, hscheduler,
    hpoll⟩ := hkept
  rw [plainArguments, ← hname, ← hbaseApp, ← hlifespan, ← ha2a, ← hcors, ← hprovision, ← hhooks,
    ← htracing, ← hscheduler, ← hpoll, List.mem_append]
  rw [kwargsOf] at h
  simp only [List.mem_append] at h
  rcases h with ((((h | h) | h) | h) | h) | h
  · obtain ⟨entry, hentry, heq⟩ := List.mem_map.mp h
    cases heq
    exact Or.inl hentry
  · simp [mem_passed] at h
  · obtain ⟨_, -, ⟨rfl, heq⟩ | ⟨-, heq⟩⟩ := mem_authorizationKwargs.mp h
    · cases heq
      exact Or.inr List.mem_cons_self
    · cases heq
  · simp [mem_passed] at h
  · refine Or.inr (List.mem_cons_of_mem _ ?_)
    simpa [schedulerKwargs] using h
  · simp [mem_passed] at h

theorem forall₂_of_resolveRefs
    {refs : List String}
    {registry : Registry H.toInterfaceHost}
    {kind : String}
    {objects : List H.Object}
    (h : resolveRefs refs registry kind = .ok objects) :
    List.Forall₂ (fun ref object => registry.get ref = .ok object) refs objects := by
  refine (mapM_eq_ok_iff.mp h).imp (fun ref object hresolved => ?_)
  exact mapError_eq_ok_iff.mp hresolved

/-- Interfaces are passed only if there is a registry that builds them. -/
theorem exists_registry_of_wireInterfaces
    {entries : List PyDict}
    {interfaces : List (Interface H.Object)}
    (h : factory.wireInterfaces entries = .ok (some interfaces)) :
    ∃ registry, factory.interfaceRegistry = some registry := by
  cases hregistry : factory.interfaceRegistry with
  | none =>
      cases entries <;> simp [wireInterfaces, hregistry] at h
  | some registry =>
      exact ⟨registry, rfl⟩

/--
A build that completes passes every reference to agents, teams, workflows, knowledge, the
database and interfaces as the live object, and no other value of the configuration than its
plain settings and the import paths of the base app and the lifespan.
-/
theorem references_resolved
    (hbuild : factory.build config.toAgentOSConfig = .ok built) :
    ∃ kwargs, factory.assembleKwargs config = .ok kwargs ∧
      ReferencesResolved factory config kwargs := by
  refine ⟨_, assembleKwargs_of_build hbuild, ?_⟩
  have h := resolved_of_build hbuild
  constructor
  · exact nodup_keys_kwargsOf built.agentos
  · exact ⟨built.agentos.agents, by simp [kwargsOf], forall₂_of_resolveRefs h.agents⟩
  · exact ⟨built.agentos.teams, by simp [kwargsOf], forall₂_of_resolveRefs h.teams⟩
  · exact ⟨built.agentos.workflows, by simp [kwargsOf], forall₂_of_resolveRefs h.workflows⟩
  · intro value hvalue
    obtain ⟨objects, hknowledge, rfl⟩ := (@mem_kwargsOf_iff H built.agentos value).1.mp hvalue
    refine ⟨objects, rfl, ?_⟩
    have hresolved := h.knowledge
    rw [hknowledge, passedIf] at hresolved
    split_ifs at hresolved
    · obtain ⟨objects', hobjects, hsame⟩ := map_eq_ok_iff.mp hresolved
      cases hsame
      exact forall₂_of_resolveRefs hobjects
    · cases hresolved
  · intro value hvalue
    obtain ⟨database, hdatabase, rfl⟩ := (@mem_kwargsOf_iff H built.agentos value).2.1.mp hvalue
    have hresolved := h.db
    rw [hdatabase] at hresolved
    cases hdb : config.db with
    | none =>
        rw [hdb] at hresolved
        cases hresolved
    | some ref =>
        rw [hdb, Option.mapM_some] at hresolved
        obtain ⟨database', hget, hsame⟩ := map_eq_ok_iff.mp hresolved
        cases hsame
        exact ⟨ref, database, rfl, rfl, mapError_eq_ok_iff.mp hget⟩
  · intro value hvalue
    obtain ⟨interfaces, hinterfaces, rfl⟩ :=
      (@mem_kwargsOf_iff H built.agentos value).2.2.1.mp hvalue
    have hwired := h.interfaces
    rw [hinterfaces] at hwired
    obtain ⟨registry, hregistry⟩ := exists_registry_of_wireInterfaces hwired
    exact ⟨registry, interfaces, hregistry, rfl, forall₂_of_wireInterfaces hregistry hwired⟩
  · intro value
    rw [(@mem_kwargsOf_iff H built.agentos value).2.2.2.1, h.kept.2.1]
  · intro value
    rw [(@mem_kwargsOf_iff H built.agentos value).2.2.2.2, h.kept.2.2.1]
  · exact fun key value => mem_plainArguments_of_mem_kwargsOf h.kept

/-- A configuration with an agent, a base app and an interface. -/
def servedConfig : ServedConfig where
  toAgentOSConfig := { oneAgentConfig {}
    [[("type", .str "agui"), ("target", .str "researcher")]] with
      baseApp := some "my_package.app:create_app" }

/-- What is built from it. -/
def servedBuilt : Built namesHost where
  agentos := { (oneAgentBuilt {}).agentos with
    baseApp := some "my_package.app:create_app"
    mcpServer := none
    interfaces := some [.agui "researcher"] }
  mcpLifecycle := some ⟨{}, false⟩
  resyncAttached := false

theorem references_resolved_served :
    ReferencesResolved (oneAgentFactory {}) servedConfig (kwargsOf servedBuilt.agentos) := by
  have hbuild : (oneAgentFactory {}).build servedConfig.toAgentOSConfig = .ok servedBuilt := by
    rfl
  obtain ⟨kwargs, hkwargs, hresolved⟩ := references_resolved hbuild
  rw [assembleKwargs_of_build hbuild] at hkwargs
  cases hkwargs
  exact hresolved

/-- The import path of the base app is among the keyword arguments. -/
theorem base_app_passed_raw :
    (oneAgentFactory {}).build servedConfig.toAgentOSConfig = .ok servedBuilt ∧
      (oneAgentFactory {}).assembleKwargs servedConfig = .ok (kwargsOf servedBuilt.agentos) ∧
      (kwargsOf servedBuilt.agentos).lookup "base_app" =
        some (.raw (.str "my_package.app:create_app")) :=
  ⟨rfl, rfl, rfl⟩

end AgentOSFactory

end YamlAgno

import YamlAgno.Agentos.Authorization
import YamlAgno.Agentos.Interfaces
import YamlAgno.Agentos.ResyncManager
import Mathlib.Data.Finset.Insert

/-!
# The AgentOS factory

`AgentOSFactory` of `factories/agentos_factory.py`, with the configuration of
`models/config/agentos_config.py` that it reads and the `MCPServerLifecycle` of
`agentos/mcp_lifecycle.py` that it registers.  A build resolves references, maps the nested
settings, constructs the `AgentOS`, and registers the components that the lifespan will
start later.

Two seams between the parts do not meet.  The factory passes no registries to the interface
registry, whose A2A builder reads them (`forwardsA2A_iff`).  And the MCP settings are mapped
twice: the factory maps `tools_to_expose` to tools, the lifecycle to tags, and its `start()`
replaces the configuration of the factory (`start_keeps_server_iff`).
-/

namespace YamlAgno

open Authorization Fallible

/-- `MCPServerSettings`. -/
structure MCPServerSettings where
  enabled : Bool := false
  name : Option String := none
  instructions : Option String := none
  toolsToExpose : List String := []
  port : Option ℤ := none
  auth : Option PyDict := none

/-- `SchedulerSettings`. -/
structure SchedulerSettings where
  enabled : Bool := false
  pollInterval : ℕ := 15
  one_le_pollInterval : 1 ≤ pollInterval := by decide

/-- The settings of a mapping without keys. -/
def SchedulerSettings.unset : SchedulerSettings := {}

/-- `AgentOSConfig`, with its two validators. -/
structure AgentOSConfig where
  name : String
  agents : List String := []
  teams : List String := []
  workflows : List String := []
  db : Option String := none
  knowledge : List String := []
  interfaces : List PyDict := []
  config : Option String := none
  baseApp : Option String := none
  lifespan : Option String := none
  authorization : AuthorizationSettings := {}
  mcp : MCPServerSettings := {}
  scheduler : SchedulerSettings := .unset
  resync : ResyncSettings := {}
  a2aInterface : Bool := false
  corsAllowedOrigins : Option (List String) := none
  autoProvisionDbs : Bool := true
  runHooksInBackground : Bool := false
  tracing : Bool := false
  name_ne : name ≠ ""
  target : agents ≠ [] ∨ teams ≠ [] ∨ workflows ≠ []
  no_wildcard : authorization.enabled = true → ∀ origins ∈ corsAllowedOrigins, "*" ∉ origins

/-- The keyword arguments of `MCPServerConfig`; `none` is an argument that is not passed. -/
structure McpServerArguments where
  tools : Option (List String) := none
  includeTags : Option (Finset String) := none

/-- The keyword arguments of `AgentOS`; `none` is an argument that is not passed. -/
structure AgentOSArguments (Object Database McpConfig : Type) where
  name : String
  baseApp : Option String
  lifespan : Option String
  a2aInterface : Bool
  corsAllowedOrigins : Option (List String)
  autoProvisionDbs : Bool
  runHooksInBackground : Bool
  tracing : Bool
  agents : List Object
  teams : List Object
  workflows : List Object
  knowledge : Option (List Object)
  db : Option Database
  /-- `authorization=True` goes with it. -/
  authorizationConfig : Option AuthorizationConfig
  mcpServer : Option McpConfig
  scheduler : Bool
  schedulerPollInterval : ℕ
  interfaces : Option (List (Interface Object))

/-- What the factory calls but does not define. -/
structure FactoryHost extends InterfaceHost where
  Database : Type
  McpConfig : Type
  mcpServerConfig : McpServerArguments → Except Error McpConfig
  unicodeAlnum : Char → Bool
  authorizationConfig : PyDict → Except Error AuthorizationConfig
  /-- The constructor of `AgentOS` returns. -/
  agentOS : AgentOSArguments Object Database McpConfig → Except Error Unit

/-- The tools that an `MCPServerConfig` names are those that were passed, or none. -/
def FactoryHost.ToolsOf
    (H : FactoryHost)
    (toolsOf : H.McpConfig → List String) :
    Prop :=
  ∀ arguments config, H.mcpServerConfig arguments = .ok config →
    toolsOf config = arguments.tools.getD []

/-- An `AgentOS`: what it was constructed with; its `mcp_server` can be assigned. -/
abbrev AgentOS (H : FactoryHost) : Type :=
  AgentOSArguments H.Object H.Database H.McpConfig

/-! ## The MCP lifecycle -/

/-- `MCPServerLifecycle`: its settings, and whether an `AgentOS` is registered. -/
structure MCPServerLifecycle where
  settings : MCPServerSettings
  registered : Bool := false

namespace MCPServerLifecycle

variable {H : FactoryHost}

/-- `register`. -/
def register (lifecycle : MCPServerLifecycle) : MCPServerLifecycle :=
  { lifecycle with registered := true }

/-- The arguments that `_build_config` passes. -/
def configArguments (settings : MCPServerSettings) : McpServerArguments :=
  let includeTags := (settings.toolsToExpose.filter ["core", "session"].contains).toFinset
  { includeTags := if includeTags = ∅ then none else some includeTags }

/-- `start`, for the `AgentOS` that is registered. -/
def start
    (lifecycle : MCPServerLifecycle)
    (agentos : AgentOS H) :
    Except H.Error (AgentOS H) :=
  if lifecycle.settings.enabled = false ∨ lifecycle.registered = false then
    .ok agentos
  else do
    let config ← H.mcpServerConfig (configArguments lifecycle.settings)
    return { agentos with mcpServer := some config }

end MCPServerLifecycle

/-! ## The build -/

/-- Exceptions that end a build. -/
inductive BuildFailure (E : Type) where
  | duplicateRefs (kind : String) (dupes : List String)
  | unresolvedRef (kind ref text : String)
  | authorization (failure : MapFailure E)
  | authorizationDisabled (message : String)
  | interface (failure : InterfaceFailure E)
  | lookup (failure : LookupFailure E)
  | propagated (error : E)

/-- `AgentOSFactory`; `attach` of a `ResyncManager` only stores its argument. -/
structure AgentOSFactory (H : FactoryHost) where
  agentRegistry : Registry H.toInterfaceHost
  teamRegistry : Registry H.toInterfaceHost
  workflowRegistry : Registry H.toInterfaceHost
  knowledgeRegistry : Registry H.toInterfaceHost
  getDb : String → Except (LookupFailure H.Error) H.Database
  interfaceRegistry : Option (InterfaceRegistry H.toInterfaceHost) := none
  mcpLifecycle : Option MCPServerLifecycle := none
  /-- The secret manager of the authorization adapter, if there is an adapter. -/
  authorizationAdapter : Option (String → SecretOutcome H.Error) := none
  resyncManager : Bool := false

/-- What a build leaves: the `AgentOS`, and the components that know it. -/
structure Built (H : FactoryHost) where
  agentos : AgentOS H
  mcpLifecycle : Option MCPServerLifecycle
  resyncAttached : Bool

namespace AgentOSFactory

variable {H : FactoryHost} (factory : AgentOSFactory H)

/-- `_check_duplicates`, for one list. -/
def checkDuplicates (kind : String) (refs : List String) : Except (BuildFailure H.Error) Unit :=
  let dupes := refs.eraseDups.filter fun ref => 1 < refs.count ref
  if dupes ≠ [] then .error (.duplicateRefs kind dupes) else .ok ()

/-- `_validate_config`. -/
def validateConfig (config : AgentOSConfig) : Except (BuildFailure H.Error) Unit := do
  checkDuplicates "agents" config.agents
  checkDuplicates "teams" config.teams
  checkDuplicates "workflows" config.workflows
  checkDuplicates "knowledge" config.knowledge

/-- A `KeyError` of a lookup becomes a `ValueError` that names the reference. -/
def unresolved (kind ref : String) : LookupFailure H.Error → BuildFailure H.Error
  | .keyError text => .unresolvedRef kind ref text
  | failure => .lookup failure

/-- `_resolve_refs`. -/
def resolveRefs
    (refs : List String)
    (registry : Registry H.toInterfaceHost)
    (kind : String) :
    Except (BuildFailure H.Error) (List H.Object) :=
  refs.mapM fun ref => (registry.get ref).mapError (unresolved kind ref)

/-- `_resolve_target`. -/
def resolveTarget (ref : String) : Except (InterfaceFailure H.Error) H.Object :=
  let rec tryEach : List (Registry H.toInterfaceHost) →
      Except (InterfaceFailure H.Error) H.Object
    | [] => .error (.unresolvedTarget ref)
    | registry :: registries =>
        match registry.get ref with
        | .ok resolved => .ok resolved
        | .error (.keyError _) | .error (.attributeError _) => tryEach registries
        | .error failure => .error (.lookup failure)
  tryEach [factory.agentRegistry, factory.teamRegistry, factory.workflowRegistry]

/-- `_build_authorization_config`. -/
def buildAuthorizationConfig
    (settings : AuthorizationSettings) :
    Except (BuildFailure H.Error) AuthorizationConfig := do
  let built ← (mapAuthorizationConfig H.unicodeAlnum H.authorizationConfig settings
    factory.authorizationAdapter).mapError .authorization
  match built, factory.authorizationAdapter.isSome with
  | (true, some config), _ => return config
  | _, true =>
      .error (.authorizationDisabled
        "AuthorizationAdapter returned disabled when config says enabled")
  | _, false =>
      .error (.authorizationDisabled ("AgentOSFactory: legacy authorization path built a " ++
        "disabled/empty config while authorization is enabled."))

/-- The arguments that `_build_mcp_config` passes; the other settings are only logged. -/
def mcpArguments (settings : MCPServerSettings) : McpServerArguments :=
  { tools := if settings.toolsToExpose = [] then none else some settings.toolsToExpose }

/-- `_wire_interfaces`: the argument that it adds. -/
def wireInterfaces
    (interfaces : List PyDict) :
    Except (BuildFailure H.Error) (Option (List (Interface H.Object))) :=
  match interfaces, factory.interfaceRegistry with
  | [], _ | _, none => .ok none
  | interfaces, some registry => do
      let specs ← interfaces.mapM fun iface =>
        match InterfaceSpec.validate iface with
        | none => .error (.interface .invalidSpec)
        | some spec => .ok spec
      let built ← (registry.buildAll specs factory.resolveTarget none).mapError .interface
      return some built

/-- `_register_lifecycle`. -/
def registerLifecycle (config : AgentOSConfig) (agentos : AgentOS H) : Built H where
  agentos := agentos
  mcpLifecycle :=
    if config.mcp.enabled then factory.mcpLifecycle.map MCPServerLifecycle.register
    else factory.mcpLifecycle
  resyncAttached := factory.resyncManager && config.resync.enabled

/-- An argument that is passed under a condition only. -/
def passedIf
    {α E : Type}
    (condition : Bool)
    (value : Except E α) :
    Except E (Option α) :=
  if condition then value.map some else .ok none

/-- `build`. -/
def build (config : AgentOSConfig) : Except (BuildFailure H.Error) (Built H) := do
  validateConfig config
  let agents ← resolveRefs config.agents factory.agentRegistry "agent"
  let teams ← resolveRefs config.teams factory.teamRegistry "team"
  let workflows ← resolveRefs config.workflows factory.workflowRegistry "workflow"
  let knowledge ← passedIf (config.knowledge ≠ [])
    (resolveRefs config.knowledge factory.knowledgeRegistry "knowledge")
  let db ← config.db.mapM fun ref => (factory.getDb ref).mapError (unresolved "db" ref)
  let authorizationConfig ← passedIf config.authorization.enabled
    (factory.buildAuthorizationConfig config.authorization)
  let mcpServer ← passedIf config.mcp.enabled
    ((H.mcpServerConfig (mcpArguments config.mcp)).mapError .propagated)
  let interfaces ← factory.wireInterfaces config.interfaces
  let agentos : AgentOS H :=
    { name := config.name
      baseApp := config.baseApp
      lifespan := config.lifespan
      a2aInterface := config.a2aInterface
      corsAllowedOrigins := config.corsAllowedOrigins
      autoProvisionDbs := config.autoProvisionDbs
      runHooksInBackground := config.runHooksInBackground
      tracing := config.tracing
      agents := agents
      teams := teams
      workflows := workflows
      knowledge := knowledge
      db := db
      authorizationConfig := authorizationConfig
      mcpServer := mcpServer
      scheduler := config.scheduler.enabled
      schedulerPollInterval := config.scheduler.pollInterval
      interfaces := interfaces }
  (H.agentOS agentos).mapError .propagated
  return factory.registerLifecycle config agentos

variable {factory} {config : AgentOSConfig} {built : Built H}

/-- What a build that returns has made of the MCP settings and the interfaces. -/
theorem exists_of_build
    (hbuild : factory.build config = .ok built) :
    ∃ mcpServer interfaces,
      passedIf config.mcp.enabled ((H.mcpServerConfig (mcpArguments config.mcp)).mapError
        (BuildFailure.propagated (E := H.Error))) = .ok mcpServer ∧
      factory.wireInterfaces config.interfaces = .ok interfaces ∧
      built.agentos.mcpServer = mcpServer ∧ built.agentos.interfaces = interfaces ∧
      built = factory.registerLifecycle config built.agentos := by
  obtain ⟨_, -, hbuild⟩ := bind_eq_ok_iff.mp hbuild
  obtain ⟨agents, -, hbuild⟩ := bind_eq_ok_iff.mp hbuild
  obtain ⟨teams, -, hbuild⟩ := bind_eq_ok_iff.mp hbuild
  obtain ⟨workflows, -, hbuild⟩ := bind_eq_ok_iff.mp hbuild
  obtain ⟨knowledge, -, hbuild⟩ := bind_eq_ok_iff.mp hbuild
  obtain ⟨db, -, hbuild⟩ := bind_eq_ok_iff.mp hbuild
  obtain ⟨authorizationConfig, -, hbuild⟩ := bind_eq_ok_iff.mp hbuild
  obtain ⟨mcpServer, hmcp, hbuild⟩ := bind_eq_ok_iff.mp hbuild
  obtain ⟨interfaces, hinterfaces, hbuild⟩ := bind_eq_ok_iff.mp hbuild
  obtain ⟨_, -, hbuild⟩ := bind_eq_ok_iff.mp hbuild
  cases hbuild
  exact ⟨mcpServer, interfaces, hmcp, hinterfaces, rfl, rfl, rfl⟩

/-! ## One MCP configuration or two -/

/--
Starting the lifespan leaves the MCP configuration of the build, and the tools it exposes,
as they are exactly when the settings name no tools.
-/
theorem start_keeps_server_iff
    {toolsOf : H.McpConfig → List String}
    (htools : H.ToolsOf toolsOf)
    (hbuild : factory.build config = .ok built)
    (henabled : config.mcp.enabled = true)
    {registered : Bool}
    (hsettings : factory.mcpLifecycle = some ⟨config.mcp, registered⟩)
    {lifecycle : MCPServerLifecycle}
    (hlifecycle : built.mcpLifecycle = some lifecycle)
    {started : AgentOS H}
    (hstart : lifecycle.start built.agentos = .ok started) :
    (started.mcpServer = built.agentos.mcpServer ∧
      started.mcpServer.map toolsOf = built.agentos.mcpServer.map toolsOf) ↔
      config.mcp.toolsToExpose = [] := by
  obtain ⟨mcpServer, interfaces, hmcp, -, hserver, -, hregister⟩ := exists_of_build hbuild
  -- The lifecycle has the settings of the build, and it is registered.
  have heq : lifecycle = ⟨config.mcp, true⟩ := by
    rw [hregister, registerLifecycle] at hlifecycle
    simp only [henabled, if_true, hsettings, Option.map_some] at hlifecycle
    exact (Option.some.inj hlifecycle).symm
  have hrun : ¬ (lifecycle.settings.enabled = false ∨ lifecycle.registered = false) := by
    rw [heq]
    simp [henabled]
  rw [MCPServerLifecycle.start, if_neg hrun, heq] at hstart
  obtain ⟨later, hlater, hstarted⟩ := bind_eq_ok_iff.mp hstart
  cases hstarted
  rw [passedIf, henabled, if_pos rfl, map_eq_ok_iff] at hmcp
  obtain ⟨first, hfirst, hfirst'⟩ := hmcp
  rw [mapError_eq_ok_iff] at hfirst
  rw [hserver, ← hfirst']
  have hfirstTools := htools _ _ hfirst
  have hlaterTools := htools _ _ hlater
  constructor
  · rintro ⟨hsame, -⟩
    -- The lifecycle passes no tools, so the factory has passed none.
    cases hsame
    rw [hfirstTools] at hlaterTools
    by_contra hne
    simp only [mcpArguments, hne, if_false, Option.getD_some,
      MCPServerLifecycle.configArguments, Option.getD_none] at hlaterTools
  · intro hnil
    have harguments : mcpArguments config.mcp =
        MCPServerLifecycle.configArguments config.mcp := by
      simp [mcpArguments, MCPServerLifecycle.configArguments, hnil]
    rw [← harguments, hfirst] at hlater
    cases hlater
    exact ⟨rfl, rfl⟩

/-- A host whose objects are their names, with `a2a-sdk` installed. -/
def namesHost : FactoryHost where
  Object := String
  Error := String
  a2aInstalled := true
  construct _ := .ok ()
  Database := String
  McpConfig := McpServerArguments
  mcpServerConfig := .ok
  unicodeAlnum _ := false
  authorizationConfig _ := .error "not used"
  agentOS _ := .ok ()

/-- A registry that knows some names. -/
def namesRegistry (names : List String) : Registry namesHost.toInterfaceHost where
  get ref := if ref ∈ names then .ok ref else .error (.keyError ref)
  resolve := none

/-- A factory with one agent, an interface registry and the lifecycle of some MCP settings. -/
def oneAgentFactory (mcp : MCPServerSettings) : AgentOSFactory namesHost where
  agentRegistry := namesRegistry ["researcher"]
  teamRegistry := namesRegistry []
  workflowRegistry := namesRegistry []
  knowledgeRegistry := namesRegistry []
  getDb ref := .error (.keyError ref)
  interfaceRegistry := some ⟨none⟩
  mcpLifecycle := some ⟨mcp, false⟩

/-- A configuration with this agent. -/
def oneAgentConfig (mcp : MCPServerSettings) (interfaces : List PyDict) : AgentOSConfig where
  name := "os"
  agents := ["researcher"]
  interfaces := interfaces
  mcp := mcp
  name_ne := by decide
  target := .inl (by decide)
  no_wildcard h := by cases h

/-- What `oneAgentFactory` builds from `oneAgentConfig` without interfaces. -/
def oneAgentBuilt (mcp : MCPServerSettings) : Built namesHost where
  agentos :=
    { name := "os", baseApp := none, lifespan := none, a2aInterface := false,
      corsAllowedOrigins := none, autoProvisionDbs := true, runHooksInBackground := false,
      tracing := false, agents := ["researcher"], teams := [], workflows := [],
      knowledge := none, db := none, authorizationConfig := none,
      mcpServer := some (mcpArguments mcp), scheduler := false, schedulerPollInterval := 15,
      interfaces := none }
  mcpLifecycle := some ⟨mcp, true⟩
  resyncAttached := false

theorem start_keeps_server_noTools :
    ∃ started,
      (⟨{ enabled := true }, true⟩ : MCPServerLifecycle).start
          (oneAgentBuilt { enabled := true }).agentos = .ok started ∧
        started.mcpServer = (oneAgentBuilt { enabled := true }).agentos.mcpServer := by
  have htools : namesHost.ToolsOf fun k => k.tools.getD [] := by
    intro arguments k hk
    cases hk
    rfl
  have hbuild : (oneAgentFactory { enabled := true }).build
      (oneAgentConfig { enabled := true } []) = .ok (oneAgentBuilt { enabled := true }) := rfl
  have hstart : (⟨{ enabled := true }, true⟩ : MCPServerLifecycle).start
      (oneAgentBuilt { enabled := true }).agentos =
        .ok { (oneAgentBuilt { enabled := true }).agentos with mcpServer := some {} } := rfl
  exact ⟨_, hstart, ((start_keeps_server_iff htools hbuild rfl rfl rfl hstart).mpr rfl).1⟩

/-- The build exposes the tool `core`; after the startup the server has a tag instead. -/
theorem start_replaces_server :
    let mcp : MCPServerSettings := { enabled := true, toolsToExpose := ["core"] }
    (oneAgentFactory mcp).build (oneAgentConfig mcp []) = .ok (oneAgentBuilt mcp) ∧
      (oneAgentBuilt mcp).agentos.mcpServer = some { tools := some ["core"] } ∧
      (⟨mcp, true⟩ : MCPServerLifecycle).start (oneAgentBuilt mcp).agentos =
        .ok { (oneAgentBuilt mcp).agentos with
          mcpServer := some { includeTags := some {"core"} } } := by
  refine ⟨rfl, rfl, ?_⟩
  have htags : MCPServerLifecycle.configArguments
      { enabled := true, toolsToExpose := ["core"] } =
        { includeTags := some {"core"} } := by
    simp [MCPServerLifecycle.configArguments]
  rw [MCPServerLifecycle.start, if_neg (by simp), htags]
  rfl

/-! ## A2A interfaces -/

/-- An entry that declares an A2A interface. -/
def isA2AEntry (iface : PyDict) : Bool :=
  (InterfaceSpec.validate iface).any fun spec => spec.type = .a2a

/-- The configuration without its A2A entries. -/
def withoutA2A (config : AgentOSConfig) : AgentOSConfig :=
  { config with interfaces := config.interfaces.filter fun iface => !isA2AEntry iface }

/-- The interface of an A2A entry: it holds what the registries of the factory have under
the references of the entry, in their order. -/
def HoldsResolved
    (factory : AgentOSFactory H)
    (registry : InterfaceRegistry H.toInterfaceHost)
    (iface : PyDict)
    (interface : Interface H.Object) :
    Prop :=
  ∃ spec entries a2a agents teams workflows,
    InterfaceSpec.validate iface = some spec ∧
      registry.resolveCredentialRefs spec.config = .ok entries ∧
      A2AInterfaceConfig.validate entries = some a2a ∧
      a2a.agents.mapM factory.agentRegistry.get = .ok agents ∧
      a2a.teams.mapM factory.teamRegistry.get = .ok teams ∧
      a2a.workflows.mapM factory.workflowRegistry.get = .ok workflows ∧
      interface = .a2a (orNone agents) (orNone teams) (orNone workflows) a2a.routePrefix.1 a2a.tags

/-- The build returns, and forwards the interfaces of the A2A entries in their order. -/
def ForwardsA2A
    (factory : AgentOSFactory H)
    (registry : InterfaceRegistry H.toInterfaceHost)
    (config : AgentOSConfig) :
    Prop :=
  ∃ built, factory.build config = .ok built ∧
    List.Forall₂ (HoldsResolved factory registry) (config.interfaces.filter isA2AEntry)
      ((built.agentos.interfaces.getD []).filter Interface.isA2A)

variable {registry : InterfaceRegistry H.toInterfaceHost}

/-- Interfaces that are wired come from valid specs, one by one. -/
theorem forall₂_of_wireInterfaces
    (hregistry : factory.interfaceRegistry = some registry)
    {ifaces : List PyDict}
    {interfaces : Option (List (Interface H.Object))}
    (hwire : factory.wireInterfaces ifaces = .ok interfaces) :
    List.Forall₂ (fun iface interface => ∃ spec, InterfaceSpec.validate iface = some spec ∧
      registry.build spec factory.resolveTarget none = .ok interface)
      ifaces (interfaces.getD []) := by
  cases ifaces with
  | nil =>
      cases hwire
      exact .nil
  | cons iface ifaces =>
      simp only [wireInterfaces, hregistry] at hwire
      obtain ⟨specs, hspecs, hwire⟩ := bind_eq_ok_iff.mp hwire
      obtain ⟨interfaces, hbuilt, hwire⟩ := bind_eq_ok_iff.mp hwire
      cases hwire
      refine (forall₂_of_mapM_mapM hspecs (mapError_eq_ok_iff.mp hbuilt)).imp ?_
      rintro iface interface ⟨spec, hspec, hinterface⟩
      cases hvalidate : InterfaceSpec.validate iface with
      | none =>
          rw [hvalidate] at hspec
          cases hspec
      | some spec' =>
          rw [hvalidate] at hspec
          cases hspec
          exact ⟨_, rfl, hinterface⟩

/-- Without registries, an entry that is built declares no A2A interface. -/
theorem not_a2a_of_built
    {iface : PyDict}
    {interface : Interface H.Object}
    (h : ∃ spec, InterfaceSpec.validate iface = some spec ∧
      registry.build spec factory.resolveTarget none = .ok interface) :
    isA2AEntry iface = false ∧ interface.isA2A = false := by
  obtain ⟨spec, hspec, hbuilt⟩ := h
  have htype : spec.type ≠ .a2a := fun htype =>
    InterfaceRegistry.build_a2a_without_registries htype factory.resolveTarget interface hbuilt
  refine ⟨?_, InterfaceRegistry.isA2A_of_build htype hbuilt⟩
  simp [isA2AEntry, hspec, htype]

/-- A factory whose interfaces are built has no A2A entry among them, and no A2A interface. -/
theorem filter_eq_nil_of_build
    (hregistry : factory.interfaceRegistry = some registry)
    (hbuild : factory.build config = .ok built) :
    (∀ iface ∈ config.interfaces, isA2AEntry iface = false) ∧
      (built.agentos.interfaces.getD []).filter Interface.isA2A = [] := by
  obtain ⟨mcpServer, interfaces, -, hwire, -, hinterfaces, -⟩ := exists_of_build hbuild
  have hbuilt := forall₂_of_wireInterfaces hregistry hwire
  rw [hinterfaces]
  generalize interfaces.getD [] = calls at hbuilt
  generalize config.interfaces = ifaces at hbuilt
  induction hbuilt with
  | nil =>
      simp
  | cons hfirst _ ih =>
      obtain ⟨hentry, hinterface⟩ := not_a2a_of_built hfirst
      refine ⟨?_, ?_⟩
      · intro iface hiface
        rcases List.mem_cons.mp hiface with rfl | hiface
        · exact hentry
        · exact ih.1 iface hiface
      · rw [List.filter_cons_of_neg (by simp [hinterface]), ih.2]

/--
With an interface registry, and for a configuration whose other parts build, the build
forwards the A2A interfaces that are declared exactly when none is.
-/
theorem forwardsA2A_iff
    (hregistry : factory.interfaceRegistry = some registry)
    (hrest : ∃ built, factory.build (withoutA2A config) = .ok built) :
    ForwardsA2A factory registry config ↔
      ∀ iface ∈ config.interfaces, isA2AEntry iface = false := by
  constructor
  · rintro ⟨built, hbuild, -⟩
    exact (filter_eq_nil_of_build hregistry hbuild).1
  · intro hnone
    have hsame : withoutA2A config = config := by
      have hfilter : config.interfaces.filter (fun iface => !isA2AEntry iface) =
          config.interfaces :=
        List.filter_eq_self.mpr (fun iface hiface => by simp [hnone iface hiface])
      rw [withoutA2A, hfilter]
    rw [hsame] at hrest
    obtain ⟨built, hbuild⟩ := hrest
    refine ⟨built, hbuild, ?_⟩
    have hentries : config.interfaces.filter isA2AEntry = [] :=
      List.filter_eq_nil_iff.mpr (fun iface hiface => by simp [hnone iface hiface])
    rw [hentries, (filter_eq_nil_of_build hregistry hbuild).2]
    exact .nil

/-- An interface for the agent, and none of A2A. -/
def aguiEntry : PyDict :=
  [("type", .str "agui"), ("target", .str "researcher")]

theorem forwardsA2A_agui :
    ForwardsA2A (oneAgentFactory {}) ⟨none⟩ (oneAgentConfig {} [aguiEntry]) := by
  have hnone : ∀ iface ∈ (oneAgentConfig {} [aguiEntry]).interfaces,
      isA2AEntry iface = false := by
    decide
  have hregistry : (oneAgentFactory {}).interfaceRegistry = some ⟨none⟩ := rfl
  exact (forwardsA2A_iff hregistry ⟨_, rfl⟩).mpr hnone

/-- An A2A entry that publishes the agent. -/
def a2aEntry : PyDict :=
  [("type", .str "a2a"), ("config", .ofDict [("agents", .list [.str "researcher"])])]

/-- The entry is valid and the agent is known, but the build ends in an `AttributeError`. -/
theorem not_forwardsA2A :
    isA2AEntry a2aEntry = true ∧
      (∃ a2a, A2AInterfaceConfig.validate [("agents", .list [.str "researcher"])] = some a2a ∧
        a2a.agents.mapM (oneAgentFactory {}).agentRegistry.get = .ok ["researcher"]) ∧
      (oneAgentFactory {}).build (oneAgentConfig {} [a2aEntry]) =
        .error (.interface (.attributeError "'NoneType' object has no attribute 'agents'")) ∧
      ¬ ForwardsA2A (oneAgentFactory {}) ⟨none⟩ (oneAgentConfig {} [a2aEntry]) := by
  have hbuild : (oneAgentFactory {}).build (oneAgentConfig {} [a2aEntry]) =
      .error (.interface (.attributeError "'NoneType' object has no attribute 'agents'")) := by
    rfl
  refine ⟨by decide, ⟨⟨["researcher"], [], [], ⟨"/a2a", by decide⟩, none, by decide⟩, ?_, ?_⟩,
    hbuild, ?_⟩
  · rfl
  · rfl
  · rintro ⟨built, hbuilt, -⟩
    rw [hbuild] at hbuilt
    cases hbuilt

end AgentOSFactory
end YamlAgno

import YamlAgno.Library.Fallible
import YamlAgno.Agentos.Authorization

/-!
# Authenticated startup

`construct` is the constructor of the application object, `createApp` builds the
object and its app, and `runServer` is the production entry point in front of both.
Three guards decide whether an authenticated startup goes through, and they do not
ask the same question: the mutual exclusion with the tenant header middleware and the
mounting of that middleware ask for truth values, the isolation guard and
`runServer` for the object `True`.

What the three together let through is `startup_isolation`: the middleware is never
mounted beside a truthy `authorization`, and `True` itself is never let through
unisolated.  A truthy object other than `True` is let through by the constructor.
-/

namespace YamlAgno
namespace App

open Authorization Fallible

/-- What the startup calls but does not define: reading and building agents, and the
native application object. -/
structure Host where
  Agent : Type
  Instance : Type
  NativeApp : Type
  Extra : Type
  Error : Type
  loadYaml : String → Except Error PyValue
  buildEntry : PyValue → Except Error Agent
  typeName : PyValue → String
  repr : String → String
  init : Option (List Agent) → PyValue → Option AuthorizationConfig → Extra →
    Except Error Instance
  authorizationOf : Instance → PyValue
  getApp : Instance → Except Error NativeApp
  serve : NativeApp → String → ℤ → Except Error Unit

/-- Exceptions that end a startup. -/
inductive StartupError (E : Type) where
  | valueError (message : String)
  | runtimeError (message : String)
  | propagated (error : E)

/-- Keyword arguments of the entry points; `none` is an argument that is not passed. -/
structure Arguments (H : Host) where
  configPath : Option String := none
  agents : Option (List H.Agent) := none
  authorization : Option PyValue := none
  authorizationConfig : Option (Option AuthorizationConfig) := none
  mountHealth : Option PyValue := none
  mountTenantContext : Option PyValue := none
  memoryCfg : Option PyValue := none
  extra : H.Extra

namespace Arguments

variable {H : Host} (args : Arguments H)

/-- `authorization: bool = False`. -/
def authorizationValue : PyValue :=
  args.authorization.getD (.bool false)

/-- `authorization_config: AuthorizationConfig | None = None`. -/
def authorizationConfigValue : Option AuthorizationConfig :=
  args.authorizationConfig.getD none

/-- `mount_health: bool = True`. -/
def mountHealthValue : PyValue :=
  args.mountHealth.getD (.bool true)

/-- `mount_tenant_context: bool = True`. -/
def mountTenantContextValue : PyValue :=
  args.mountTenantContext.getD (.bool true)

/-- `memory_cfg: Any = None`. -/
def memoryCfgValue : PyValue :=
  args.memoryCfg.getD .none

end Arguments

/-- The application object. -/
structure YamlAgentOS (H : Host) where
  native : H.Instance
  mountHealth : PyValue
  mountTenantContext : PyValue
  memoryCfg : PyValue

/-- What is added to the native app. -/
inductive Extension where
  | livenessRouter
  | readinessRouter
  | tenantContextMiddleware (memoryCfg : PyValue)
  | identityErrorHandler

/-- The wired app. -/
structure WiredApp (H : Host) where
  native : H.NativeApp
  extensions : List Extension

variable {H : Host}

/-- Turns an outside exception into one that ends the startup. -/
def lift {α : Type} (x : Except H.Error α) : Except (StartupError H.Error) α :=
  x.mapError .propagated

/-- The agents: those passed, or those of the YAML file, or none. -/
def resolveAgents
    (args : Arguments H) :
    Except (StartupError H.Error) (Option (List H.Agent)) :=
  match args.agents, args.configPath with
  | some agents, _ => .ok (some agents)
  | none, none => .ok none
  | none, some path => do
      let data ← lift (H.loadYaml path)
      match data with
      | .none => return some []
      | .list entries => return some (← entries.mapM fun entry => lift (H.buildEntry entry))
      | other =>
          .error (.valueError
            ("YAML config at " ++ H.repr path ++ " must be a top-level list of " ++
              "agent definitions; got " ++ H.typeName other ++ "."))

/-- `YamlAgentOS.__init__`. -/
def construct
    (args : Arguments H) :
    Except (StartupError H.Error) (YamlAgentOS H) :=
  if args.agents.isSome ∧ args.configPath.isSome then
    .error (.valueError
      ("YamlAgentOS received both 'agents' and 'config_path'; " ++
        "the call is ambiguous. Provide exactly one agent source."))
  else if args.authorizationValue.truthy ∧ args.mountTenantContextValue.truthy then
    .error (.valueError
      ("JD-01 mutual exclusion: 'authorization=True' (JWT mode) and " ++
        "'mount_tenant_context=True' (dev-header middleware) cannot be used together. " ++
        "When JWT authorization is active, TenantContextMiddleware must not be mounted " ++
        "(set mount_tenant_context=False)."))
  else
    match requireIsolatedAuth args.authorizationValue args.authorizationConfigValue with
    | some refusal => .error (.valueError refusal)
    | none => do
        let agents ← resolveAgents args
        let native ← lift
          (H.init agents args.authorizationValue args.authorizationConfigValue args.extra)
        return {
          native := native
          mountHealth := args.mountHealthValue
          mountTenantContext := args.mountTenantContextValue
          memoryCfg := args.memoryCfgValue }

/-- `YamlAgentOS.get_app`. -/
def getApp
    (self : YamlAgentOS H) :
    Except (StartupError H.Error) (WiredApp H) := do
  let app ← lift (H.getApp self.native)
  let health : List Extension :=
    if self.mountHealth.truthy then [.livenessRouter, .readinessRouter] else []
  let tenantContext : List Extension :=
    if self.mountTenantContext.truthy ∧ ¬ (H.authorizationOf self.native).truthy then
      [.tenantContextMiddleware self.memoryCfg, .identityErrorHandler]
    else
      []
  return { native := app, extensions := health ++ tenantContext }

/-- `create_app`. -/
def createApp
    (args : Arguments H) :
    Except (StartupError H.Error) (WiredApp H) := do
  let osApp ← construct args
  getApp osApp

/-- `run_server`: the app that has been served, on the given or the default address. -/
def runServer
    (args : Arguments H)
    (host : Option String)
    (port : Option ℤ) :
    Except (StartupError H.Error) (WiredApp H) :=
  if ¬ (args.authorization.any PyValue.isTrue) then
    .error (.runtimeError
      ("Production entry point 'run_server' refuses to start without explicit " ++
        "'authorization=True' (VQ010). Configure native JWT authorization with " ++
        "AuthorizationConfig(user_isolation=True, ...) to start the server. " ++
        "For dev/test workflows without JWT, use create_app() instead."))
  else
    match requireIsolatedAuth args.authorizationValue args.authorizationConfigValue with
    | some refusal => .error (.runtimeError refusal)
    | none => do
        let app ← createApp args
        lift (H.serve app.native (host.getD "127.0.0.1") (port.getD 8000))
        return app

/-! ## What the guards let through -/

/-- The authorization config isolates users. -/
def Isolated (args : Arguments H) : Prop :=
  ∃ config, args.authorizationConfigValue = some config ∧ config.userIsolation.isTrue

/-- The app mounts no tenant header middleware. -/
def NoTenantContext (app : WiredApp H) : Prop :=
  ∀ memoryCfg, .tenantContextMiddleware memoryCfg ∉ app.extensions

/-- What a successful construction has passed. -/
theorem construct_eq_ok
    {args : Arguments H}
    {os : YamlAgentOS H}
    (h : construct args = .ok os) :
    ¬ (args.authorizationValue.truthy ∧ args.mountTenantContextValue.truthy) ∧
      (args.authorizationValue.isTrue → Isolated args) ∧
        os.mountTenantContext = args.mountTenantContextValue := by
  unfold construct at h
  split_ifs at h with hboth hexclusion
  refine ⟨hexclusion, ?_⟩
  cases hguard : requireIsolatedAuth args.authorizationValue args.authorizationConfigValue with
  | some refusal =>
      simp [hguard] at h
  | none =>
      refine ⟨(requireIsolatedAuth_eq_none_iff _ _).mp hguard, ?_⟩
      simp only [hguard] at h
      obtain ⟨agents, _, h⟩ := bind_eq_ok_iff.mp h
      obtain ⟨native, _, h⟩ := bind_eq_ok_iff.mp h
      cases h
      rfl

/-- The middleware is mounted only when the flag asks for it. -/
theorem noTenantContext_of_getApp
    {os : YamlAgentOS H}
    {app : WiredApp H}
    (h : getApp os = .ok app)
    (hflag : ¬ os.mountTenantContext.truthy) :
    NoTenantContext app := by
  obtain ⟨native, _, h⟩ := bind_eq_ok_iff.mp h
  cases h
  intro memoryCfg hmem
  rcases List.mem_append.mp hmem with hhealth | htenant
  · split_ifs at hhealth <;> simp at hhealth
  · rw [if_neg (fun hmount => hflag hmount.1)] at htenant
    cases htenant

theorem createApp_eq_ok
    {args : Arguments H}
    {app : WiredApp H}
    (h : createApp args = .ok app) :
    ∃ os, construct args = .ok os ∧ getApp os = .ok app :=
  bind_eq_ok_iff.mp h

theorem runServer_eq_ok
    {args : Arguments H}
    {host : Option String}
    {port : Option ℤ}
    {app : WiredApp H}
    (h : runServer args host port = .ok app) :
    args.authorizationValue.isTrue ∧ createApp args = .ok app := by
  unfold runServer at h
  split_ifs at h with hexplicit
  have htrue : args.authorizationValue.isTrue := by
    cases hauth : args.authorization with
    | none => simp [hauth] at hexplicit
    | some value => simpa [Arguments.authorizationValue, hauth] using hexplicit
  refine ⟨htrue, ?_⟩
  cases hguard : requireIsolatedAuth args.authorizationValue args.authorizationConfigValue with
  | some refusal =>
      simp [hguard] at h
  | none =>
      simp only [hguard] at h
      obtain ⟨app', happ, h⟩ := bind_eq_ok_iff.mp h
      obtain ⟨_, _, h⟩ := bind_eq_ok_iff.mp h
      cases h
      exact happ

/-- Beside a truthy `authorization` the app of a constructed object never mounts the
tenant header middleware. -/
theorem noTenantContext_of_construct
    {args : Arguments H}
    {os : YamlAgentOS H}
    {app : WiredApp H}
    (h : construct args = .ok os)
    (htruthy : args.authorizationValue.truthy)
    (happ : getApp os = .ok app) :
    NoTenantContext app := by
  obtain ⟨hexclusion, _, hflag⟩ := construct_eq_ok h
  refine noTenantContext_of_getApp happ ?_
  rw [hflag]
  exact fun hmount => hexclusion ⟨htruthy, hmount⟩

/-- The production entry point serves isolated apps only, without the middleware. -/
theorem isolated_of_runServer
    {args : Arguments H}
    {host : Option String}
    {port : Option ℤ}
    {app : WiredApp H}
    (h : runServer args host port = .ok app) :
    args.authorizationValue.isTrue ∧ Isolated args ∧ NoTenantContext app := by
  obtain ⟨htrue, happ⟩ := runServer_eq_ok h
  obtain ⟨os, hos, hget⟩ := createApp_eq_ok happ
  exact ⟨htrue, (construct_eq_ok hos).2.1 htrue,
    noTenantContext_of_construct hos (PyValue.truthy_of_isTrue htrue) hget⟩

/-- Startup with a truthy `authorization`, through the constructor, `createApp` or
`runServer`: no tenant header middleware is mounted, `True` is let through only
with an isolated config, and `runServer` lets only `True` through. -/
theorem startup_isolation
    (H : Host)
    (args : Arguments H)
    (htruthy : args.authorizationValue.truthy) :
    (∀ os, construct args = .ok os →
        (args.authorizationValue.isTrue → Isolated args) ∧
          ∀ app, getApp os = .ok app → NoTenantContext app) ∧
      (∀ app, createApp args = .ok app →
        (args.authorizationValue.isTrue → Isolated args) ∧ NoTenantContext app) ∧
        ∀ host port app, runServer args host port = .ok app →
          args.authorizationValue.isTrue ∧ Isolated args ∧ NoTenantContext app := by
  refine ⟨fun os h => ⟨(construct_eq_ok h).2.1, fun app happ => ?_⟩, fun app h => ?_, ?_⟩
  · exact noTenantContext_of_construct h htruthy happ
  · obtain ⟨os, hos, happ⟩ := createApp_eq_ok h
    exact ⟨(construct_eq_ok hos).2.1, noTenantContext_of_construct hos htruthy happ⟩
  · exact fun host port app h => isolated_of_runServer h

/-- A host on which nothing fails. -/
def plainHost : Host where
  Agent := Unit
  Instance := PyValue
  NativeApp := Unit
  Extra := Unit
  Error := Unit
  loadYaml _ := .ok .none
  buildEntry _ := .ok ()
  typeName _ := ""
  repr text := text
  init _ authorization _ _ := .ok authorization
  authorizationOf authorization := authorization
  getApp _ := .ok ()
  serve _ _ _ := .ok ()

/-- Authorization with an isolated config, and no tenant header middleware. -/
def isolatedArguments : Arguments plainHost where
  authorization := some (.bool true)
  authorizationConfig := some (some ⟨.bool true⟩)
  mountTenantContext := some (.bool false)
  extra := ()

theorem startup_isolation_plain :
    isolatedArguments.authorizationValue.isTrue ∧ Isolated isolatedArguments ∧
      NoTenantContext (H := plainHost) ⟨(), [.livenessRouter, .readinessRouter]⟩ :=
  (startup_isolation plainHost isolatedArguments rfl).2.2 none none _ rfl

/-- An authorization flag of `1`, without a config. -/
def truthyArguments : Arguments plainHost where
  authorization := some (.int 1)
  mountTenantContext := some (.bool false)
  extra := ()

/-- The constructor lets a truthy object other than `True` through unisolated. -/
theorem truthy_startup_not_isolated :
    ¬ ∀ (H : Host) (args : Arguments H) (os : YamlAgentOS H),
        construct args = .ok os → args.authorizationValue.truthy → Isolated args := by
  intro hall
  obtain ⟨config, hconfig, _⟩ := hall plainHost truthyArguments
    ⟨.int 1, .bool true, .bool false, .none⟩ rfl rfl
  cases hconfig

end App
end YamlAgno

import YamlAgno.Factories.AgentOSFields
import YamlAgno.Library.PyText
import YamlAgno.Library.PyBuiltins

/-!
# The builder of the served app

`FastAPIAppBuilder` of `api/fastapi_app_builder.py`: it imports the base app or makes a
fresh one, adds the CORS middleware, wires the lifespan, and mounts the routers whose
condition holds.

The lifespan is wired by making another app.  Of the app that was configured before it
only the title is taken over, so a build with a lifespan comes out as configured only if
there was nothing else to take over (`build_asConfigured_iff`).
-/

namespace YamlAgno
namespace AppBuilder

open Fallible

/-! ## Apps -/

/-- An entry of `app.user_middleware`. -/
inductive UserMiddleware (Middleware : Type) where
  | cors (allowOrigins : List String) (allowCredentials : Bool)
      (allowMethods allowHeaders : List String)
  | other (middleware : Middleware)

/-- What is mounted on an app: a route of its own, or the routes of a router. -/
inductive Mounted (Route Router : Type) where
  | route (route : Route)
  | router (router : Router) (pathPrefix : String)

/-- A FastAPI app; `settings` is everything that is neither of the other fields. -/
structure FastAPI (Route Router Middleware Lifespan Settings : Type) where
  title : String
  userMiddleware : List (UserMiddleware Middleware)
  routes : List (Mounted Route Router)
  lifespan : Option Lifespan
  settings : Settings

/-- What the builder calls but does not define. -/
structure AppHost where
  Object : Type
  Module : Type
  Route : Type
  Router : Type
  Middleware : Type
  Lifespan : Type
  Settings : Type
  Error : Type
  /-- Routes and settings of `FastAPI()`. -/
  defaultRoutes : List Route
  defaultSettings : Settings
  reprText : String → String
  reprObject : Object → String
  /-- `importlib.import_module`; `none` is a `ModuleNotFoundError`. -/
  importModule : String → Except (Option Error) Module
  /-- `getattr(module, name, None)`; `none` is `None`. -/
  moduleAttribute : Module → String → Option Object
  /-- A call without arguments; `none` if the object is not callable. -/
  call : Object → Option (Except Error (FastAPI Route Router Middleware Lifespan Settings))
  /-- The attributes of an object that are no fields of a model; `none` is an error. -/
  inheritedAttribute : Reached Object → String → Option Object
  /-- `bool(object)`. -/
  truth : Object → Except Error Bool
  /-- `app.include_router(router, prefix=...)` returns. -/
  includeRouter : Router → String → Except Error Unit

/-- Exceptions that end a build. -/
inductive BuildError (E : Type) where
  | importError (message : String)
  | attributeError (name : String)
  | propagated (error : E)

namespace AppHost

/-- The apps of a host. -/
abbrev App (H : AppHost) : Type :=
  FastAPI H.Route H.Router H.Middleware H.Lifespan H.Settings

/-- `FastAPI(title=..., lifespan=...)`. -/
def newApp (H : AppHost) (title : String) (lifespan : Option H.Lifespan) : H.App where
  title := title
  userMiddleware := []
  routes := H.defaultRoutes.map .route
  lifespan := lifespan
  settings := H.defaultSettings

end AppHost

/-- `EndpointGroup`. -/
structure EndpointGroup (H : AppHost) where
  router : H.Router
  pathPrefix : String
  conditional : Option String := none

/-- `FastAPIAppBuilder`. -/
structure FastAPIAppBuilder (H : AppHost) where
  config : ServedConfig
  endpointGroups : List (EndpointGroup H) := []
  lifespan : Option H.Lifespan := none

section Build

variable {H : AppHost}

/-- `path.rsplit(":", 1)`; `none` without a colon. -/
def rsplitColon (path : String) : Option (String × String) :=
  (PyText.splitFirst ':' path.toList.reverse).map fun parts =>
    (String.ofList parts.2.reverse, String.ofList parts.1.reverse)

/-- `_import_factory`, up to the call of the factory. -/
def importFactory
    (path : String) :
    Except (BuildError H.Error) (Except H.Error H.App) :=
  match rsplitColon path with
  | none =>
      .error (.importError
        ("base_app path must use 'module:callable' format; got " ++ H.reprText path))
  | some (modulePath, attrName) =>
      match H.importModule modulePath with
      | .error none =>
          .error (.importError ("base_app module " ++ H.reprText modulePath ++
            " not found (full path: " ++ H.reprText path ++ ")"))
      | .error (some error) => .error (.propagated error)
      | .ok imported =>
          match H.moduleAttribute imported attrName with
          | none =>
              .error (.importError ("module " ++ H.reprText modulePath ++
                " has no attribute " ++ H.reprText attrName ++ " (full path: " ++
                H.reprText path ++ ")"))
          | some factory =>
              match H.call factory with
              | none =>
                  .error (.importError ("base_app path " ++ H.reprText path ++
                    " resolved to " ++ H.reprObject factory ++ ", which is not callable"))
              | some called => .ok called

/-- The app that the pipeline starts from. -/
def resolveBaseApp (config : ServedConfig) : Except (BuildError H.Error) H.App :=
  match config.baseApp with
  | some path => do
      let called ← importFactory path
      called.mapError .propagated
  | none => .ok (H.newApp ("AgentOS: " ++ config.name) none)

/-- The middleware that the configuration asks for. -/
def configuredCors (config : ServedConfig) : List (UserMiddleware H.Middleware) :=
  match config.corsAllowedOrigins with
  | none => []
  | some origins => [.cors origins true ["*"] ["*"]]

/-- `_apply_cors`; `add_middleware` puts the new entry first. -/
def applyCors (config : ServedConfig) (app : H.App) : H.App :=
  { app with userMiddleware := configuredCors config ++ app.userMiddleware }

/-- The third stage of `build`. -/
def wireLifespan (lifespan : Option H.Lifespan) (app : H.App) : H.App :=
  match lifespan with
  | none => app
  | some lifespan => H.newApp app.title (some lifespan)

/-- `getattr(current, part)`. -/
def getattr
    (config : ServedConfig)
    (current : Reached H.Object)
    (part : String) :
    Except (BuildError H.Error) (Reached H.Object) :=
  match (config.fields current).lookup part with
  | some reached => .ok reached
  | none =>
      match H.inheritedAttribute current part with
      | some object => .ok (.object object)
      | none => .error (.attributeError part)

/-- `bool(current)`; a model is always true. -/
def truthOf : Reached H.Object → Except (BuildError H.Error) Bool
  | .value value => .ok value.truthy
  | .object object => (H.truth object).mapError .propagated
  | .config | .authorization | .mcp | .scheduler | .resync => .ok true

/-- `_evaluate_conditional`. -/
def evaluateConditional
    (config : ServedConfig)
    (expr : String) :
    Except (BuildError H.Error) Bool := do
  let current ← (PyValue.keyParts expr).foldlM (getattr config) .config
  truthOf current

/-- Whether a group is to be mounted. -/
def groupHolds
    (config : ServedConfig)
    (group : EndpointGroup H) :
    Except (BuildError H.Error) Bool :=
  match group.conditional with
  | none => .ok true
  | some expr => evaluateConditional config expr

/-- `_mount_routers`. -/
def mountRouters
    (config : ServedConfig) :
    List (EndpointGroup H) → H.App → Except (BuildError H.Error) H.App
  | [], app => .ok app
  | group :: groups, app => do
      if ← groupHolds config group then
        (H.includeRouter group.router group.pathPrefix).mapError .propagated
        mountRouters config groups
          { app with routes := app.routes ++ [.router group.router group.pathPrefix] }
      else
        mountRouters config groups app

/-- `build`. -/
def FastAPIAppBuilder.build
    (builder : FastAPIAppBuilder H) :
    Except (BuildError H.Error) H.App := do
  let app ← resolveBaseApp builder.config
  let app := applyCors builder.config app
  let app := wireLifespan builder.lifespan app
  mountRouters builder.config builder.endpointGroups app

/-! ## What a build returns -/

/-- The groups whose condition holds. -/
def mountedGroups
    (config : ServedConfig)
    (groups : List (EndpointGroup H)) :
    List (EndpointGroup H) :=
  groups.filter fun group =>
    match groupHolds config group with
    | .ok holds => holds
    | .error _ => false

/-- The app is the base app as the configuration asks for it: with the CORS middleware,
the routes of the groups that hold, and the lifespan if there is one. -/
structure AsConfigured (builder : FastAPIAppBuilder H) (base app : H.App) : Prop where
  title : app.title = base.title
  userMiddleware :
    app.userMiddleware = configuredCors builder.config ++ base.userMiddleware
  routes :
    app.routes = base.routes ++
      (mountedGroups builder.config builder.endpointGroups).map fun group =>
        .router group.router group.pathPrefix
  lifespan : app.lifespan = builder.lifespan.or base.lifespan
  settings : app.settings = base.settings

/-- An app as `FastAPI()` makes it. -/
structure Bare (app : H.App) : Prop where
  userMiddleware : app.userMiddleware = []
  routes : app.routes = H.defaultRoutes.map .route
  settings : app.settings = H.defaultSettings

/-- Mounting adds the routers of the groups that hold, and nothing else. -/
theorem mountRouters_eq_ok
    {config : ServedConfig}
    {groups : List (EndpointGroup H)}
    {app app' : H.App}
    (h : mountRouters config groups app = .ok app') :
    app' = { app with
      routes := app.routes ++ (mountedGroups config groups).map fun group =>
        .router group.router group.pathPrefix } := by
  induction groups generalizing app with
  | nil =>
      cases h
      simp [mountedGroups]
  | cons group groups ih =>
      obtain ⟨holds, hholds, hrest⟩ := bind_eq_ok_iff.mp h
      cases holds with
      | false =>
          have happ := ih hrest
          simpa [mountedGroups, hholds] using happ
      | true =>
          obtain ⟨_, -, hmounted⟩ := bind_eq_ok_iff.mp hrest
          have happ := ih hmounted
          simpa [mountedGroups, hholds, List.append_assoc] using happ

/-- A build that returns has mounted the groups on the app that the lifespan was wired to. -/
theorem build_eq_ok
    {builder : FastAPIAppBuilder H}
    {base app : H.App}
    (hbase : resolveBaseApp builder.config = .ok base)
    (hbuild : builder.build = .ok app) :
    let wired := wireLifespan builder.lifespan (applyCors builder.config base)
    app = { wired with
      routes := wired.routes ++
        (mountedGroups builder.config builder.endpointGroups).map fun group =>
          .router group.router group.pathPrefix } := by
  rw [FastAPIAppBuilder.build, hbase] at hbuild
  exact mountRouters_eq_ok hbuild

/-- What a build with a lifespan comes to, next to the base app. -/
theorem asConfigured_iff
    {builder : FastAPIAppBuilder H}
    {base app : H.App}
    (hbase : resolveBaseApp builder.config = .ok base)
    (hbuild : builder.build = .ok app) :
    AsConfigured builder base app ↔
      builder.lifespan = none ∨
        builder.config.corsAllowedOrigins = none ∧ Bare base := by
  have happ := build_eq_ok hbase hbuild
  cases hlifespan : builder.lifespan with
  | none =>
      rw [hlifespan] at happ
      refine iff_of_true ?_ (Or.inl rfl)
      subst happ
      constructor <;> simp [wireLifespan, applyCors, hlifespan]
  | some lifespan =>
      rw [hlifespan] at happ
      subst happ
      constructor
      · intro h
        have hmiddleware := h.userMiddleware
        have hroutes := List.append_cancel_right h.routes
        have hsettings := h.settings
        obtain ⟨hcors, hnone⟩ := List.append_eq_nil_iff.mp hmiddleware.symm
        refine Or.inr ⟨?_, hnone, hroutes.symm, hsettings.symm⟩
        cases horigins : builder.config.corsAllowedOrigins with
        | none =>
            rfl
        | some origins =>
            rw [configuredCors, horigins] at hcors
            cases hcors
      · rintro (h | ⟨hcors, hbare⟩)
        · cases h
        · constructor <;>
            simp [wireLifespan, applyCors, AppHost.newApp, hlifespan, configuredCors, hcors,
              hbare.userMiddleware, hbare.routes, hbare.settings]

/-- As configured is: as without the lifespan, but for the lifespan. -/
theorem asConfigured_iff_eq_plain
    {builder : FastAPIAppBuilder H}
    {base app plain : H.App}
    (hbase : resolveBaseApp builder.config = .ok base)
    (hplain : { builder with lifespan := none }.build = .ok plain) :
    AsConfigured builder base app ↔
      app = { plain with lifespan := builder.lifespan.or plain.lifespan } := by
  have heq := @build_eq_ok _ { builder with lifespan := none } _ _ hbase hplain
  subst heq
  constructor
  · rintro ⟨htitle, hmiddleware, hroutes, hlifespan, hsettings⟩
    cases app
    simp only [wireLifespan, applyCors, FastAPI.mk.injEq]
    exact ⟨htitle, hmiddleware, hroutes, hlifespan, hsettings⟩
  · rintro rfl
    exact ⟨rfl, rfl, rfl, rfl, rfl⟩

/--
A build that returns comes out as configured, and as it would without the lifespan but for the
lifespan, exactly if no lifespan is wired, or the configuration asks for no CORS and the base
app is as bare as the app that replaces it.
-/
theorem build_asConfigured_iff
    {builder : FastAPIAppBuilder H}
    {base app : H.App}
    (hbase : resolveBaseApp builder.config = .ok base)
    (hbuild : builder.build = .ok app) :
    (AsConfigured builder base app ∧
        ∀ plain, { builder with lifespan := none }.build = .ok plain →
          app = { plain with lifespan := builder.lifespan.or plain.lifespan }) ↔
      builder.lifespan = none ∨
        builder.config.corsAllowedOrigins = none ∧ Bare base := by
  rw [← asConfigured_iff hbase hbuild]
  refine ⟨And.left, fun h => ⟨h, fun plain hplain => ?_⟩⟩
  exact (asConfigured_iff_eq_plain hbase hplain).mp h

end Build

/-- Apps with the routes of the documentation, and nothing to import. -/
def plainApps : AppHost where
  Object := Unit
  Module := Unit
  Route := String
  Router := String
  Middleware := Unit
  Lifespan := String
  Settings := Unit
  Error := Unit
  defaultRoutes := ["/openapi.json", "/docs", "/docs/oauth2-redirect", "/redoc"]
  defaultSettings := ()
  reprText text := "'" ++ text ++ "'"
  reprObject _ := "None"
  importModule _ := .error none
  moduleAttribute _ _ := none
  call _ := none
  inheritedAttribute _ _ := none
  truth _ := .ok true
  includeRouter _ _ := .ok ()

/-- A config with one agent. -/
def testOs (origins : Option (List String)) : ServedConfig where
  name := "test-os"
  agents := ["a"]
  corsAllowedOrigins := origins
  name_ne := by decide
  target := Or.inl (by decide)
  no_wildcard henabled := absurd henabled (by decide)

/-- Without origins the lifespan takes nothing away. -/
theorem build_asConfigured_testOs :
    ∃ app,
      (FastAPIAppBuilder.mk (H := plainApps) (testOs none)
          [⟨"schedules", "/schedules", some "scheduler.enabled"⟩, ⟨"health", "/health", none⟩]
          (some "lifespan")).build = .ok app ∧
        app.routes = (plainApps.defaultRoutes.map .route) ++ [.router "health" "/health"] ∧
        app.lifespan = some "lifespan" := by
  have hbase : resolveBaseApp (H := plainApps) (testOs none) =
      .ok (plainApps.newApp "AgentOS: test-os" none) := rfl
  have hbuild : (FastAPIAppBuilder.mk (H := plainApps) (testOs none)
      [⟨"schedules", "/schedules", some "scheduler.enabled"⟩, ⟨"health", "/health", none⟩]
      (some "lifespan")).build =
      .ok { plainApps.newApp "AgentOS: test-os" (some "lifespan") with
        routes := (plainApps.defaultRoutes.map .route) ++ [.router "health" "/health"] } := by
    rfl
  have h := (build_asConfigured_iff hbase hbuild).mpr (Or.inr ⟨rfl, rfl, rfl, rfl⟩)
  exact ⟨_, hbuild, h.1.routes, h.1.lifespan⟩

/-- With a lifespan the configured origins are lost. -/
theorem lifespan_drops_cors :
    (FastAPIAppBuilder.mk (H := plainApps) (testOs (some ["https://os.agno.com"])) []
        (some "lifespan")).build =
      .ok (plainApps.newApp "AgentOS: test-os" (some "lifespan")) ∧
    (plainApps.newApp "AgentOS: test-os" (some "lifespan")).userMiddleware = [] ∧
    configuredCors (H := plainApps) (testOs (some ["https://os.agno.com"])) =
      [.cors ["https://os.agno.com"] true ["*"] ["*"]] ∧
    ¬ AsConfigured (FastAPIAppBuilder.mk (testOs (some ["https://os.agno.com"])) []
        (some "lifespan")) (plainApps.newApp "AgentOS: test-os" none)
      (plainApps.newApp "AgentOS: test-os" (some "lifespan")) := by
  refine ⟨rfl, rfl, rfl, fun h => ?_⟩
  have hmiddleware := h.userMiddleware
  cases hmiddleware

end AppBuilder
end YamlAgno

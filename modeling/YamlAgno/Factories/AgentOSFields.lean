import YamlAgno.Factories.AgentOSFactory

/-!
# The fields of the AgentOS configuration

The configuration as a reader by name sees it: its fields and those of its nested
settings, in the order of their declaration.  Dotted expressions walk them, and a dump of
the configuration lists them.
-/

namespace YamlAgno

/-- `AgentOSConfig`, with the two fields of its resync settings that are read by name
only. -/
structure ServedConfig extends AgentOSConfig where
  watch : Bool := false
  debounceMs : ℕ := 500

/-- What is reached by name: the config, one of its nested settings, a value, or another
object. -/
inductive Reached (Object : Type) where
  | config
  | authorization
  | mcp
  | scheduler
  | resync
  | value (value : PyValue)
  | object (object : Object)

namespace ServedConfig

/-- A list of strings, as a value. -/
def strings (items : List String) : PyValue :=
  .list (items.map .str)

/-- `None`, or a value. -/
def orNoneValue {α : Type} (read : α → PyValue) (value : Option α) : PyValue :=
  (value.map read).getD .none

/-- The fields of the config and of its nested settings. -/
def fields
    {Object : Type}
    (config : ServedConfig) :
    Reached Object → List (String × Reached Object)
  | .config =>
      [("name", .value (.str config.name)),
        ("agents", .value (strings config.agents)),
        ("teams", .value (strings config.teams)),
        ("workflows", .value (strings config.workflows)),
        ("db", .value (orNoneValue .str config.db)),
        ("knowledge", .value (strings config.knowledge)),
        ("interfaces", .value (.list (config.interfaces.map PyValue.ofDict))),
        ("config", .value (orNoneValue .str config.config)),
        ("base_app", .value (orNoneValue .str config.baseApp)),
        ("lifespan", .value (orNoneValue .str config.lifespan)),
        ("authorization", .authorization), ("mcp", .mcp), ("scheduler", .scheduler),
        ("resync", .resync),
        ("a2a_interface", .value (.bool config.a2aInterface)),
        ("cors_allowed_origins", .value (orNoneValue strings config.corsAllowedOrigins)),
        ("auto_provision_dbs", .value (.bool config.autoProvisionDbs)),
        ("run_hooks_in_background", .value (.bool config.runHooksInBackground)),
        ("tracing", .value (.bool config.tracing))]
  | .authorization =>
      [("enabled", .value (.bool config.authorization.enabled)),
        ("config", .value (orNoneValue PyValue.ofDict config.authorization.config)),
        ("basic_auth", .value (orNoneValue
          (fun entries => PyValue.ofDict (entries.map fun entry => (entry.1, .str entry.2)))
          config.authorization.basicAuth))]
  | .mcp =>
      [("enabled", .value (.bool config.mcp.enabled)),
        ("name", .value (orNoneValue .str config.mcp.name)),
        ("instructions", .value (orNoneValue .str config.mcp.instructions)),
        ("tools_to_expose", .value (strings config.mcp.toolsToExpose)),
        ("port", .value (orNoneValue .int config.mcp.port)),
        ("auth", .value (orNoneValue PyValue.ofDict config.mcp.auth))]
  | .scheduler =>
      [("enabled", .value (.bool config.scheduler.enabled)),
        ("poll_interval", .value (.int config.scheduler.pollInterval))]
  | .resync =>
      [("enabled", .value (.bool config.resync.enabled)),
        ("watch", .value (.bool config.watch)),
        ("debounce_ms", .value (.int config.debounceMs)),
        ("max_concurrent", .value (.int config.resync.maxConcurrent)),
        ("failure_threshold",
          .value (.object 0 (decide (config.resync.failureThreshold ≠ 0)))),
        ("min_requests", .value (.int config.resync.minRequests)),
        ("recovery_timeout", .value (.int config.resync.recoveryTimeout))]
  | .value _ | .object _ => []

end ServedConfig
end YamlAgno

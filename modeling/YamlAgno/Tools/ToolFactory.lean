import YamlAgno.Library.PyText
import YamlAgno.Tools.Registry

/-!
# The tool factory

`ToolFactory` of `tools/tool_factory.py` with `CustomToolLoader`, `MCPResolver` and the guard
of `tools/security.py`.  A build goes through the entries in order; module names reach the
resolver from the table of built-in toolkits, from the path and the hooks of a custom tool,
and from the header provider of a server.

All of them are inside the allowlist (`build_staysInside`): the table has no other module, and
the two loaders look at a module before they ask for it.
-/

namespace YamlAgno

open Calling PyNumber

/-! ## The guard -/

/-- `_ALLOWED_MODULE_PREFIXES`. -/
def allowedModulePrefixes : List String :=
  ["agno.tools."]

/-- `is_module_allowed`. -/
def isModuleAllowed
    (dottedPath : String)
    (extraPrefixes : List String)
    (basePrefixes : Option (List String)) :
    Bool :=
  let prefixes := basePrefixes.getD allowedModulePrefixes ++ extraPrefixes
  if prefixes = [] then false
  else prefixes.any fun start => start.toList.isPrefixOf dottedPath.toList

variable {H : ToolHost}

/-- `_resolve_dotted`, which the two loaders have with their own texts. -/
def resolveDotted (advice dottedPath : String) : ToolBuild H H.Object :=
  if '.' ∉ dottedPath.toList then
    ofExcept (.error (.valueError ("Invalid dotted path: " ++ H.repr dottedPath ++
      ". Expected 'module.name'.")))
  else
    let (modulePath, _, name) := PyText.rpartition dottedPath '.'
    if isModuleAllowed modulePath [] none = false then
      ofExcept (.error (.securityError ("Module " ++ H.repr modulePath ++
        " is not in the tool allowlist. " ++ advice ++
        " (configure the allowlist at bootstrap).")))
    else H.call (.resolveClass modulePath name)

/-! ## The servers -/

namespace MCPResolver

/-- `_resolve_dotted`. -/
def resolveDotted : String → ToolBuild H H.Object :=
  YamlAgno.resolveDotted "header_provider must reference an allowlisted module"

/-- `_resolve_header_provider`. -/
def resolveHeaderProvider (config : HttpMcpConfig) : ToolBuild H (Option H.Object) :=
  config.headerProvider.mapM resolveDotted

/-- The exceptions of `timedelta`. -/
def ofTimedelta {E : Type} : TimedeltaError → ToolFailure E
  | .overflow error => .overflowError error
  | .valueError message => .valueError message

/-- `timedelta(seconds=…)`. -/
def timedelta (timeout : Timeout) : ToolBuild H Timedelta :=
  ofExcept ((PyNumber.timedelta timeout.seconds).mapError ofTimedelta)

/-- The client parameters of a transport. -/
def clientParams (config : HttpMcpConfig) : ToolBuild H H.Object :=
  match config.transport with
  | .sse =>
      H.call (.sseClientParams
        ⟨config.url, config.headers, config.timeout.map Timeout.seconds,
          config.sseReadTimeout.map Timeout.seconds⟩)
  | .streamableHttp => do
      let timeoutTd ← config.timeout.mapM timedelta
      let sseReadTd ← config.sseReadTimeout.mapM timedelta
      H.call (.streamableHttpClientParams ⟨config.url, config.headers, timeoutTd, sseReadTd⟩)

/-- `_build_http_params`. -/
def buildHttpParams (config : HttpMcpConfig) : ToolBuild H (H.Object × String × String) := do
  let params ← clientParams config
  return (params, config.url, config.transport.value)

/-- `_build_stdio`. -/
def buildStdio (config : StdioMcpConfig) : ToolBuild H H.Object :=
  H.call (.mcpTools (.command config.command config.env))

/-- `_build_http`. -/
def buildHttp (config : HttpMcpConfig) : ToolBuild H H.Object := do
  let (serverParams, _, _) ← buildHttpParams config
  let headerProvider ← resolveHeaderProvider config
  H.call (.mcpTools (.serverParams serverParams config.transport.value config.refreshConnection
    headerProvider))

/-- `resolve_single`. -/
def resolveSingle : McpToolConfig → ToolBuild H H.Object
  | .stdio config => buildStdio config
  | .http config => buildHttp config

/-- What the loop of `resolve_multi` collects from a server: a command, or the parameters with
the url and the transport. -/
def resolveServer : McpToolConfig → ToolBuild H (String ⊕ H.Object × String × String)
  | .stdio config => return .inl config.command
  | .http config => return .inr (← buildHttpParams config)

/-- `items or None`. -/
def orNone {α : Type} (items : List α) : Option (List α) :=
  if items.isEmpty then none else some items

/-- `resolve_multi`. -/
def resolveMulti (config : McpMultiToolConfig) : ToolBuild H H.Object := do
  let servers ← config.servers.mapM resolveServer
  let commands := servers.filterMap Sum.getLeft?
  let http := servers.filterMap Sum.getRight?
  H.call (.multiMcpTools
    { commands := orNone commands
      urls := orNone (http.map (·.2.1))
      urlsTransports := orNone (http.map (·.2.2))
      serverParamsList := orNone (http.map (·.1))
      allowPartialFailure := config.allowPartialFailure
      refreshConnection := config.refreshConnection })

end MCPResolver

/-! ## Custom tools -/

namespace CustomToolLoader

/-- `_resolve_dotted`. -/
def resolveDotted : String → ToolBuild H H.Object :=
  YamlAgno.resolveDotted "Custom tools must reference allowlisted modules"

/-- `load_callable`. -/
def loadCallable (config : CustomToolConfig) : ToolBuild H H.Object :=
  resolveDotted config.path

/-- `load_toolkit_class`. -/
def loadToolkitClass (config : CustomToolkitConfig) : ToolBuild H H.Object := do
  let resolved ← resolveDotted config.path
  if H.isType resolved then return resolved
  else ofExcept (.error (.assertionError ("Expected a class, got " ++ H.typeName resolved)))

end CustomToolLoader

/-! ## The factory -/

/-- An element of the list: a raw dictionary, or an entry that is already parsed. -/
inductive RawEntry where
  | raw (entry : PyDict)
  | parsed (entry : ToolEntry)

/-- The entry that an element of the list stands for. -/
def RawEntry.entry (H : ToolHost) : RawEntry → Except H.Error ToolEntry
  | raw entry => H.validatePython entry
  | parsed entry => .ok entry

namespace ToolFactory

/-- The flags of `_wrap_tool`; those that are `None` are dropped. -/
def flags
    (config : CustomToolConfig)
    (preHook postHook : Option H.Object)
    (toolHooks : List H.Object) :
    List (String × ToolFlag H.Object) :=
  let str := Option.map fun value => .plain (PyValue.str value)
  let bool := fun value => ToolFlag.plain (PyValue.bool value)
  let given : List (String × Option (ToolFlag H.Object)) :=
    [("name", str config.name),
     ("description", str config.description),
     ("requires_confirmation", some (bool config.requiresConfirmation)),
     ("requires_user_input", some (bool config.requiresUserInput)),
     ("user_input_fields", (MCPResolver.orNone config.userInputFields).map fun fields =>
        .plain (.list (fields.map .str))),
     ("external_execution", some (bool config.externalExecution)),
     ("external_execution_silent", config.externalExecutionSilent.map bool),
     ("strict", config.strict.map bool),
     ("show_result", config.showResult.map bool),
     ("stop_after_tool_call", some (bool config.stopAfterToolCall)),
     ("cache_results", some (bool config.cacheResults)),
     ("cache_dir", str config.cacheDir),
     ("cache_ttl", config.cacheTtl.map fun ttl => .plain (.int ttl)),
     ("pre_hook", preHook.map .callable),
     ("post_hook", postHook.map .callable),
     ("tool_hooks", (MCPResolver.orNone toolHooks).map .callables)]
  given.filterMap fun flag => flag.2.map fun value => (flag.1, value)

/-- `_wrap_tool`. -/
def wrapTool (rawCallable : H.Object) (config : CustomToolConfig) : ToolBuild H H.Object := do
  let preHook ← config.preHook.mapM fun hook => CustomToolLoader.resolveDotted hook.path
  let postHook ← config.postHook.mapM fun hook => CustomToolLoader.resolveDotted hook.path
  let toolHooks ← config.toolHooks.mapM CustomToolLoader.resolveDotted
  H.call (.tool (flags config preHook postHook toolHooks) rawCallable)

/-- The loop body of `build`, for an entry. -/
def buildEntry : ToolEntry → ToolBuild H H.Object
  | .builtin config =>
      match builtinRegistry.lookup config.name with
      | none => ofExcept (.error (.keyError config.name))
      | some adapter => adapter.build config.initArgs
  | .function config => do
      let rawCallable ← CustomToolLoader.loadCallable config
      wrapTool rawCallable config
  | .toolkitClass config => do
      let cls ← CustomToolLoader.loadToolkitClass config
      H.call (.toolkit cls config.initArgs)
  | .mcp config => MCPResolver.resolveSingle config
  | .mcpMulti config => MCPResolver.resolveMulti config

/-- `build`. -/
def build (toolEntries : List RawEntry) : ToolBuild H (List H.Object) :=
  toolEntries.mapM fun raw => do
    let entry ← ofExcept ((raw.entry H).mapError .propagated)
    buildEntry entry

/-! ## What reaches the resolver -/

/-- A module below `agno.tools`. -/
def Inside (modulePath : String) : Prop :=
  "agno.tools.".toList <+: modulePath.toList

/-- The module that a dotted path names. -/
def moduleOf (dottedPath : String) : String :=
  (PyText.rpartition dottedPath '.').1

/-- A call that asks the resolver for a module asks for one inside the allowlist. -/
def InsideCall (toolCall : ToolCall H.Object) : Prop :=
  ∀ modulePath name, toolCall = .resolveClass modulePath name → Inside modulePath

theorem isModuleAllowed_iff
    {modulePath : String} :
    isModuleAllowed modulePath [] none = true ↔ Inside modulePath := by
  simp [isModuleAllowed, allowedModulePrefixes, Inside]

theorem inside_ofList
    (rest : List Char) :
    Inside (String.ofList
      ('a' :: 'g' :: 'n' :: 'o' :: '.' :: 't' :: 'o' :: 'o' :: 'l' :: 's' :: '.' :: rest)) := by
  rw [Inside, String.toList_ofList]
  exact ⟨rest, by simp⟩

/-- The table names modules inside the allowlist only. -/
theorem inside_of_builtinRegistry :
    ∀ item ∈ builtinRegistry, Inside item.2.modulePath := by
  simp only [builtinRegistry, List.forall_mem_cons, List.not_mem_nil, false_implies,
    implies_true, and_true]
  repeat' apply And.intro
  -- A literal is the list of its characters.
  all_goals exact inside_ofList _

theorem guarded_call
    {toolCall : ToolCall H.Object}
    (h : InsideCall toolCall) :
    Guarded InsideCall (H.call toolCall) (fun _ => True) :=
  .call h

/-- A call that asks for no module is inside. -/
theorem guarded_call_of_ne
    {toolCall : ToolCall H.Object}
    (h : ∀ modulePath name, toolCall ≠ .resolveClass modulePath name) :
    Guarded InsideCall (H.call toolCall) (fun _ => True) :=
  guarded_call fun modulePath name heq => absurd heq (h modulePath name)

theorem guarded_error
    {α : Type}
    {Q : α → Prop}
    (failure : ToolFailure H.Error) :
    Guarded (InsideCall (H := H)) (ofExcept (.error failure)) Q :=
  .ofExcept (fun _ h => by cases h)

/-- The loaders ask for a module after they have looked at it. -/
theorem guarded_resolveDotted
    (advice dottedPath : String) :
    Guarded InsideCall (resolveDotted (H := H) advice dottedPath)
      (fun _ => Inside (moduleOf dottedPath)) := by
  rw [resolveDotted]
  by_cases hdot : '.' ∉ dottedPath.toList
  · rw [if_pos hdot]
    exact guarded_error _
  · rw [if_neg hdot]
    by_cases hallowed : isModuleAllowed (moduleOf dottedPath) [] none = false
    · simp only [moduleOf] at hallowed
      simp only [if_pos hallowed]
      exact guarded_error _
    · have hinside : Inside (moduleOf dottedPath) :=
        isModuleAllowed_iff.mp (by simpa using hallowed)
      simp only [moduleOf] at hallowed
      simp only [if_neg hallowed]
      refine Guarded.mono (guarded_call fun modulePath name heq => ?_) (fun _ _ => hinside)
      cases heq
      exact hinside

/-! ### Servers -/

theorem guarded_clientParams
    (config : HttpMcpConfig) :
    Guarded InsideCall (MCPResolver.clientParams (H := H) config) (fun _ => True) := by
  have htimedelta : ∀ timeout,
      Guarded (InsideCall (H := H)) (MCPResolver.timedelta timeout) (fun _ => True) :=
    fun _ => .ofExcept fun _ _ => trivial
  rw [MCPResolver.clientParams]
  cases config.transport with
  | sse => exact guarded_call_of_ne (by simp)
  | streamableHttp =>
      refine Guarded.bind (.optionMapM fun timeout _ => htimedelta timeout) (fun _ _ => ?_)
      refine Guarded.bind (.optionMapM fun timeout _ => htimedelta timeout) (fun _ _ => ?_)
      exact guarded_call_of_ne (by simp)

theorem guarded_buildHttpParams
    (config : HttpMcpConfig) :
    Guarded InsideCall (MCPResolver.buildHttpParams (H := H) config) (fun _ => True) :=
  (guarded_clientParams config).bind (fun _ _ => .pure trivial)

theorem guarded_resolveSingle
    (config : McpToolConfig) :
    Guarded InsideCall (MCPResolver.resolveSingle (H := H) config)
      (fun _ => ∀ path ∈ (ToolEntry.mcp config).dottedPaths, Inside (moduleOf path)) := by
  cases config with
  | stdio config =>
      exact (guarded_call_of_ne (by simp)).mono
        (fun _ _ _ hpath => absurd hpath List.not_mem_nil)
  | http config =>
      refine (guarded_buildHttpParams config).bind (fun _ _ => ?_)
      refine (Guarded.optionMapM (fun path _ => guarded_resolveDotted _ path)).bind
        (fun _ hpaths => ?_)
      refine (guarded_call_of_ne (by simp)).mono (fun _ _ path hpath => ?_)
      exact hpaths path (by simpa [ToolEntry.dottedPaths] using hpath)

/-- The header providers of several servers are not looked at. -/
theorem guarded_resolveMulti
    (config : McpMultiToolConfig) :
    Guarded InsideCall (MCPResolver.resolveMulti (H := H) config) (fun _ => True) := by
  have hserver : ∀ server ∈ config.servers,
      Guarded InsideCall (MCPResolver.resolveServer (H := H) server) (fun _ => True) := by
    intro server _
    cases server with
    | stdio config => exact .pure trivial
    | http config => exact (guarded_buildHttpParams config).bind (fun _ _ => .pure trivial)
  refine (Guarded.mapM hserver).bind (fun _ _ => ?_)
  exact guarded_call_of_ne (by simp)

/-! ### Entries -/

theorem guarded_adapter_build
    {adapter : ToolkitAdapter}
    (h : Inside adapter.modulePath)
    (initArgs : PyDict) :
    Guarded InsideCall (adapter.build (H := H) initArgs) (fun _ => True) := by
  refine (guarded_call fun modulePath name heq => ?_).bind
    (fun _ _ => guarded_call_of_ne (by simp))
  cases heq
  exact h

theorem guarded_loadToolkitClass
    (config : CustomToolkitConfig) :
    Guarded InsideCall (CustomToolLoader.loadToolkitClass (H := H) config)
      (fun _ => Inside (moduleOf config.path)) := by
  refine (guarded_resolveDotted _ config.path).bind (fun resolved hpath => ?_)
  by_cases htype : H.isType resolved = true
  · rw [if_pos htype]
    exact .pure hpath
  · rw [if_neg htype]
    exact guarded_error _

theorem guarded_wrapTool
    (rawCallable : H.Object)
    (config : CustomToolConfig) :
    Guarded InsideCall (wrapTool rawCallable config)
      (fun _ => (∀ hook ∈ config.preHook, Inside (moduleOf hook.path)) ∧
        (∀ hook ∈ config.postHook, Inside (moduleOf hook.path)) ∧
        ∀ hook ∈ config.toolHooks, Inside (moduleOf hook)) := by
  have hhook : ∀ hook : HookRef,
      Guarded InsideCall (CustomToolLoader.resolveDotted (H := H) hook.path)
        (fun _ => Inside (moduleOf hook.path)) :=
    fun hook => guarded_resolveDotted _ hook.path
  refine (Guarded.optionMapM (fun hook _ => hhook hook)).bind (fun _ hpre => ?_)
  refine (Guarded.optionMapM (fun hook _ => hhook hook)).bind (fun _ hpost => ?_)
  refine (Guarded.mapM (fun hook _ => guarded_resolveDotted _ hook)).bind (fun _ htool => ?_)
  exact (guarded_call_of_ne (by simp)).mono
    (fun _ _ => ⟨hpre, hpost, htool⟩)

/-- An entry that is built names modules inside the allowlist only. -/
theorem guarded_buildEntry
    (entry : ToolEntry) :
    Guarded InsideCall (buildEntry (H := H) entry)
      (fun _ => ∀ path ∈ entry.dottedPaths, Inside (moduleOf path)) := by
  cases entry with
  | builtin config =>
      rw [buildEntry]
      cases hlookup : builtinRegistry.lookup config.name with
      | none => exact guarded_error _
      | some adapter =>
          obtain ⟨before, after, htable, -⟩ := List.lookup_eq_some_iff.mp hlookup
          have hmem : (config.name, adapter) ∈ builtinRegistry := by
            rw [htable]
            simp
          exact (guarded_adapter_build (inside_of_builtinRegistry _ hmem) config.initArgs).mono
            (fun _ _ _ hpath => absurd hpath List.not_mem_nil)
  | function config =>
      refine (guarded_resolveDotted _ config.path).bind (fun rawCallable hpath => ?_)
      refine (guarded_wrapTool rawCallable config).mono ?_
      rintro _ ⟨hpre, hpost, htool⟩ path hmem
      simp only [ToolEntry.dottedPaths, List.mem_cons, List.mem_append, List.mem_map,
        Option.mem_toList] at hmem
      rcases hmem with rfl | ⟨hook, hhook, rfl⟩ | ⟨hook, hhook, rfl⟩ | hhook
      · exact hpath
      · exact hpre hook hhook
      · exact hpost hook hhook
      · exact htool path hhook
  | toolkitClass config =>
      refine (guarded_loadToolkitClass config).bind (fun cls hpath => ?_)
      refine (guarded_call_of_ne (by simp)).mono (fun _ _ path hmem => ?_)
      rw [List.mem_singleton.mp hmem]
      exact hpath
  | mcp config =>
      exact guarded_resolveSingle config
  | mcpMulti config =>
      exact (guarded_resolveMulti config).mono
        (fun _ _ _ hpath => absurd hpath List.not_mem_nil)

theorem guarded_build
    (toolEntries : List RawEntry) :
    Guarded InsideCall (build (H := H) toolEntries)
      (fun _ => ∀ raw ∈ toolEntries, ∀ entry, raw.entry H = .ok entry →
        ∀ path ∈ entry.dottedPaths, Inside (moduleOf path)) := by
  refine Guarded.mapM (fun raw _ => ?_)
  have hentry : ∀ entry, (raw.entry H).mapError ToolFailure.propagated = .ok entry →
      raw.entry H = .ok entry :=
    fun entry => Fallible.mapError_eq_ok_iff.mp
  refine (Guarded.ofExcept hentry).bind (fun entry hraw => ?_)
  refine (guarded_buildEntry entry).mono (fun _ hpaths entry' hraw' => ?_)
  rw [hraw] at hraw'
  cases hraw'
  exact hpaths

/--
Whatever the entries and whatever the resolver answers, a build asks it for modules below
`agno.tools` only.  An entry that names another module makes the build raise, and the
resolver is not asked for that module.
-/
theorem build_staysInside
    (toolEntries : List RawEntry)
    (before : List (ToolCall H.Object)) :
    (∀ modulePath name,
      .resolveClass modulePath name ∈ (build toolEntries before).entries → Inside modulePath) ∧
    ∀ raw ∈ toolEntries, ∀ entry, raw.entry H = .ok entry →
      ∀ path ∈ entry.dottedPaths, ¬ Inside (moduleOf path) →
        (∃ failure, (build toolEntries before).result = .error failure) ∧
        ∀ name, .resolveClass (moduleOf path) name ∉ (build toolEntries before).entries := by
  have hguarded := guarded_build (H := H) toolEntries
  have hinside : ∀ modulePath name,
      .resolveClass modulePath name ∈ (build toolEntries before).entries → Inside modulePath :=
    fun modulePath name hmem => hguarded.calls before _ hmem modulePath name rfl
  refine ⟨hinside, fun raw hraw entry hentry path hpath houtside => ⟨?_, fun name hmem => ?_⟩⟩
  · cases hresult : (build toolEntries before).result with
    | error failure => exact ⟨failure, rfl⟩
    | ok tools =>
        exact absurd (hguarded.value before tools hresult raw hraw entry hentry path hpath)
          houtside
  · exact houtside (hinside (moduleOf path) name hmem)

/-- Outside the repository, every call is answered. -/
def answeringHost : ToolHost where
  Object := Unit
  Error := Unit
  answer _ _ := .ok ()
  isType _ := true
  typeName _ := "type"
  signature _ := none
  validatePython _ := .error ()
  repr text := text

/-- A function of Agno with a hook that is not: the build raises at the hook. -/
example :
    build (H := answeringHost) [.parsed (.function
        { path := "agno.tools.shell.run"
          preHook := some ⟨"os.system", by decide, by decide⟩
          path_ne := by decide
          path_length_le := by decide
          name_length_le := by simp
          one_le_cacheTtl := by simp
          dot_mem_toolHooks := by simp
          hitl_exclusive := by decide })] [] =
      ⟨[.resolveClass "agno.tools.shell" "run"],
        .error (.securityError ("Module os is not in the tool allowlist. " ++
          "Custom tools must reference allowlisted modules" ++
          " (configure the allowlist at bootstrap)."))⟩ := by
  rfl

end ToolFactory

end YamlAgno

import YamlAgno.Library.PyFloat
import YamlAgno.Library.PyValue

/-!
# Tool entries

The entries of the `tools:` list, of `tools/schema.py`: a built-in toolkit by its name, a
function or a toolkit class by its dotted path, and the servers of the Model Context Protocol.
The bounds and the validators of the schema are fields.
-/

namespace YamlAgno

open PyNumber

/-- `BuiltinToolConfig`; other keys of the entry are kept in `extra`. -/
structure BuiltinToolConfig where
  name : String
  initArgs : PyDict := []
  extra : PyDict := []
  name_ne : name ≠ ""
  nodup_initArgs : (initArgs.map Prod.fst).Nodup
  nodup_extra : (extra.map Prod.fst).Nodup

/-- A reference to a hook: at most 400 characters, with a dot. -/
structure HookRef where
  path : String
  length_le : path.length ≤ 400
  dot_mem : '.' ∈ path.toList

/-- `CustomToolConfig`. -/
structure CustomToolConfig where
  path : String
  name : Option String := none
  description : Option String := none
  requiresConfirmation : Bool := false
  requiresUserInput : Bool := false
  userInputFields : List String := []
  externalExecution : Bool := false
  externalExecutionSilent : Option Bool := none
  strict : Option Bool := none
  showResult : Option Bool := none
  stopAfterToolCall : Bool := false
  cacheResults : Bool := false
  cacheDir : Option String := none
  cacheTtl : Option ℕ := none
  preHook : Option HookRef := none
  postHook : Option HookRef := none
  toolHooks : List String := []
  path_ne : path ≠ ""
  path_length_le : path.length ≤ 400
  name_length_le : ∀ n ∈ name, n.length ≤ 200
  one_le_cacheTtl : ∀ ttl ∈ cacheTtl, 1 ≤ ttl
  dot_mem_toolHooks : ∀ hook ∈ toolHooks, '.' ∈ hook.toList
  /-- At most one of the three ways to leave the agent. -/
  hitl_exclusive :
    [requiresConfirmation, requiresUserInput, externalExecution].count true ≤ 1

/-- `CustomToolkitConfig`. -/
structure CustomToolkitConfig where
  path : String
  initArgs : PyDict := []
  path_ne : path ≠ ""

/-- `StdioMcpConfig`. -/
structure StdioMcpConfig where
  command : String
  env : Option (List (String × String)) := none
  command_ne : command ≠ ""
  command_length_le : command.length ≤ 500

/-- The transports of `HttpMcpConfig`. -/
inductive HttpTransport where
  | streamableHttp
  | sse
deriving DecidableEq

def HttpTransport.value : HttpTransport → String
  | streamableHttp => "streamable-http"
  | sse => "sse"

/-- A number of seconds with `ge=1`, which infinity satisfies. -/
structure Timeout where
  seconds : PyFloat
  isFloat : seconds.IsFloat
  one_le : Number.le (.int 1) (.float seconds) = true

/-- `HttpMcpConfig`. -/
structure HttpMcpConfig where
  transport : HttpTransport
  url : String
  headers : Option (List (String × String)) := none
  timeout : Option Timeout := none
  sseReadTimeout : Option Timeout := none
  headerProvider : Option String := none
  refreshConnection : Bool := false
  url_ne : url ≠ ""

/-- `McpToolConfig`. -/
inductive McpToolConfig where
  | stdio (config : StdioMcpConfig)
  | http (config : HttpMcpConfig)

/-- `McpMultiToolConfig`. -/
structure McpMultiToolConfig where
  servers : List McpToolConfig
  allowPartialFailure : Bool := false
  refreshConnection : Bool := false
  servers_ne : servers ≠ []

/-- `ToolEntry`. -/
inductive ToolEntry where
  | builtin (config : BuiltinToolConfig)
  | function (config : CustomToolConfig)
  | toolkitClass (config : CustomToolkitConfig)
  | mcp (config : McpToolConfig)
  | mcpMulti (config : McpMultiToolConfig)

/-- The dotted paths of an entry that are resolved to Python objects. -/
def ToolEntry.dottedPaths : ToolEntry → List String
  | builtin _ | mcp (.stdio _) | mcpMulti _ => []
  | function config =>
      config.path :: (config.preHook.toList.map HookRef.path ++
        (config.postHook.toList.map HookRef.path ++ config.toolHooks))
  | toolkitClass config => [config.path]
  | mcp (.http config) => config.headerProvider.toList

end YamlAgno

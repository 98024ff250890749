import YamlAgno.Tools.ToolFactory

/-!
# The servers of a multi-server entry

`MCPResolver.resolve_multi` distributes the servers of an entry over the arguments of
`MultiMCPTools`, which opens a connection for each element of `commands`, of `urls` and of
`server_params_list`.

A server that is reached over HTTP is put into two of these lists, and its header provider into
none; the environment of a server that is started by a command is dropped.  So the arguments
stand for the declared servers exactly if all of them are commands without an environment
(`multi_keeps_servers_iff`).
-/

namespace YamlAgno
namespace MCPResolver

open Calling PyNumber ToolFactory

variable {H : ToolHost}

/-- What client parameters, or an HTTP server, say about a connection. -/
structure HttpConnection where
  transport : String
  url : String
  headers : Option (List (String × String))
  timeout : Option PyFloat
  sseReadTimeout : Option PyFloat

/-- A connection that is opened. -/
inductive Connection where
  | stdio (command : String) (env : List (String × String))
  | http (connection : HttpConnection) (headerProvider : Option String)

/-- The connection that a server declares; no environment is an empty one. -/
def declared : McpToolConfig → Connection
  | .stdio config => .stdio config.command (config.env.getD [])
  | .http config =>
      .http ⟨config.transport.value, config.url, config.headers,
        config.timeout.map Timeout.seconds, config.sseReadTimeout.map Timeout.seconds⟩
        config.headerProvider

/-- The connections that `MultiMCPTools` opens for its arguments; `read` says what an object of
client parameters stands for. -/
def connections
    (read : H.Object → HttpConnection)
    (arguments : MultiMcpToolsArguments H.Object) :
    List Connection :=
  let urls := (arguments.urls.getD []).zip (arguments.urlsTransports.getD [])
  (arguments.commands.getD []).map (fun command => .stdio command []) ++
    urls.map (fun url => .http ⟨url.2, url.1, none, none, none⟩ none) ++
    (arguments.serverParamsList.getD []).map (fun params => .http (read params) none)

/-- What it is for `resolve_multi` to keep the servers of an entry, after the calls before it. -/
structure KeepsServers
    (read : H.Object → HttpConnection)
    (config : McpMultiToolConfig)
    (before : List (ToolCall H.Object)) :
    Prop where
  /-- Each server once, with its settings. -/
  denotes : ∀ arguments, .multiMcpTools arguments ∈ (resolveMulti config before).entries →
    (connections read arguments).Perm (config.servers.map declared)
  /-- A header provider outside the allowlist is refused. -/
  refuses : ∀ server ∈ config.servers, ∀ path ∈ (ToolEntry.mcp server).dottedPaths,
    ¬ Inside (moduleOf path) →
      ∃ message, (resolveMulti config before).result = .error (.securityError message)

/-- A server that is started by a command, with nothing in its environment. -/
def IsPlainCommand : McpToolConfig → Prop
  | .stdio config => config.env.getD [] = []
  | .http _ => False

/-- What the loop keeps of a server. -/
def KeptOf : McpToolConfig → String ⊕ H.Object × String × String → Prop
  | .stdio config, kept => kept = .inl config.command
  | .http _, kept => ∃ http, kept = .inr http

theorem guarded_resolveServer
    (server : McpToolConfig) :
    Guarded (fun toolCall => ∀ arguments, toolCall ≠ .multiMcpTools arguments)
      (resolveServer (H := H) server) (KeptOf server) := by
  have hcall : ∀ toolCall : ToolCall H.Object,
      (∀ arguments, toolCall ≠ .multiMcpTools arguments) →
      Guarded (fun toolCall => ∀ arguments, toolCall ≠ .multiMcpTools arguments)
        (H.call toolCall) (fun _ => True) := fun _ h => .call h
  cases server with
  | stdio config => exact .pure rfl
  | http config =>
      have hparams : Guarded (fun toolCall => ∀ arguments, toolCall ≠ .multiMcpTools arguments)
          (clientParams (H := H) config) (fun _ => True) := by
        rw [clientParams]
        cases config.transport with
        | sse => exact hcall _ (by simp)
        | streamableHttp =>
            have htimedelta : ∀ timeout,
                Guarded (fun toolCall => ∀ arguments, toolCall ≠ .multiMcpTools arguments)
                  (timedelta (H := H) timeout) (fun _ => True) :=
              fun _ => .ofExcept fun _ _ => trivial
            refine Guarded.bind (.optionMapM fun _ _ => htimedelta _) fun _ _ => ?_
            refine Guarded.bind (.optionMapM fun _ _ => htimedelta _) fun _ _ => ?_
            exact hcall _ (by simp)
      have hbuilt : Guarded (fun toolCall => ∀ arguments, toolCall ≠ .multiMcpTools arguments)
          (buildHttpParams (H := H) config) (fun _ => True) :=
        hparams.bind fun _ _ => .pure trivial
      exact hbuilt.bind fun http _ => .pure ⟨http, rfl⟩

/-- The arguments that `MultiMCPTools` is called with. -/
def multiArguments
    (config : McpMultiToolConfig)
    (kept : List (String ⊕ H.Object × String × String)) :
    MultiMcpToolsArguments H.Object where
  commands := orNone (kept.filterMap Sum.getLeft?)
  urls := orNone ((kept.filterMap Sum.getRight?).map (·.2.1))
  urlsTransports := orNone ((kept.filterMap Sum.getRight?).map (·.2.2))
  serverParamsList := orNone ((kept.filterMap Sum.getRight?).map (·.1))
  allowPartialFailure := config.allowPartialFailure
  refreshConnection := config.refreshConnection

/-- If `MultiMCPTools` is called, then with what was kept of each server. -/
theorem exists_kept
    {config : McpMultiToolConfig}
    {before : List (ToolCall H.Object)}
    {arguments : MultiMcpToolsArguments H.Object}
    (h : .multiMcpTools arguments ∈ (resolveMulti config before).entries) :
    ∃ kept, List.Forall₂ KeptOf config.servers kept ∧ arguments = multiArguments config kept := by
  have hguarded := Guarded.mapM_forall₂ fun server (_ : server ∈ config.servers) =>
    guarded_resolveServer (H := H) server
  rw [resolveMulti] at h
  cases hresult : (config.servers.mapM (resolveServer (H := H)) before).result with
  | error error =>
      rw [bind_of_error hresult] at h
      exact absurd rfl (hguarded.calls before _ h arguments)
  | ok kept =>
      rw [bind_of_ok hresult] at h
      rcases List.mem_append.mp h with h | h
      · exact absurd rfl (hguarded.calls before _ h arguments)
      · have hcall := List.mem_singleton.mp h
        exact ⟨kept, hguarded.value before kept hresult, ToolCall.multiMcpTools.inj hcall⟩

@[simp] theorem orNone_getD
    {α : Type}
    (items : List α) :
    (orNone items).getD [] = items := by
  cases items <;> rfl

/-- A server that was kept as a command, and only such a one, is a command. -/
theorem connections_multiArguments
    (read : H.Object → HttpConnection)
    (config : McpMultiToolConfig)
    (kept : List (String ⊕ H.Object × String × String)) :
    connections read (multiArguments config kept) =
      (kept.filterMap Sum.getLeft?).map (fun command => .stdio command []) ++
        (kept.filterMap Sum.getRight?).map
          (fun http => .http ⟨http.2.2, http.2.1, none, none, none⟩ none) ++
        (kept.filterMap Sum.getRight?).map (fun http => .http (read http.1) none) := by
  simp only [connections, multiArguments, orNone_getD, List.map_map]
  rw [List.zip_map', List.map_map]
  rfl

theorem length_kept
    {α β : Type}
    (kept : List (α ⊕ β)) :
    (kept.filterMap Sum.getLeft?).length + (kept.filterMap Sum.getRight?).length =
      kept.length := by
  induction kept with
  | nil => rfl
  | cons item kept ih =>
      cases item with
      | inl a =>
          simp only [List.filterMap_cons, Sum.getLeft?_inl, Sum.getRight?_inl, List.length_cons]
          omega
      | inr b =>
          simp only [List.filterMap_cons, Sum.getLeft?_inr, Sum.getRight?_inr, List.length_cons]
          omega

/-- Commands only: what was kept of them. -/
theorem connections_of_plain
    (read : H.Object → HttpConnection)
    {config : McpMultiToolConfig}
    {kept : List (String ⊕ H.Object × String × String)}
    (hkept : List.Forall₂ KeptOf config.servers kept)
    (hplain : ∀ server ∈ config.servers, IsPlainCommand server) :
    connections read (multiArguments config kept) = config.servers.map declared := by
  rw [connections_multiArguments]
  generalize config.servers = servers at hkept hplain
  induction hkept with
  | nil => rfl
  | @cons server item servers kept hitem _ ih =>
      rw [List.forall_mem_cons] at hplain
      cases server with
      | stdio config =>
          obtain rfl := hitem
          have henv : config.env.getD [] = [] := hplain.1
          simp only [List.filterMap_cons, Sum.getLeft?_inl, Sum.getRight?_inl, List.map_cons,
            List.cons_append, ih hplain.2, declared, henv]
      | http config => exact hplain.1.elim

/-- More connections than servers, if one of them is reached over HTTP. -/
theorem isPlainCommand_of_perm
    (read : H.Object → HttpConnection)
    {config : McpMultiToolConfig}
    {kept : List (String ⊕ H.Object × String × String)}
    (hkept : List.Forall₂ KeptOf config.servers kept)
    (hperm : (connections read (multiArguments config kept)).Perm
      (config.servers.map declared)) :
    ∀ server ∈ config.servers, IsPlainCommand server := by
  rw [connections_multiArguments] at hperm
  -- Each HTTP server is counted twice on the left.
  have hhttp : kept.filterMap Sum.getRight? = [] := by
    have hlength := hperm.length_eq
    have htotal := length_kept kept
    rw [← hkept.length_eq] at htotal
    simp only [List.length_append, List.length_map] at hlength
    exact List.length_eq_zero_iff.mp (by omega)
  rw [hhttp, List.map_nil, List.map_nil, List.append_nil, List.append_nil] at hperm
  intro server hserver
  have hmem := hperm.mem_iff.mpr (List.mem_map_of_mem (f := declared) hserver)
  obtain ⟨command, -, hcommand⟩ := List.mem_map.mp hmem
  cases server with
  | stdio config =>
      obtain ⟨-, henv⟩ := Connection.stdio.inj hcommand
      exact henv.symm
  | http config => cases hcommand

/--
When `MultiMCPTools` is called, its arguments stand for each declared server once, with its
settings, exactly if every server is a command without an environment.
-/
theorem multi_keeps_servers_iff
    (read : H.Object → HttpConnection)
    (config : McpMultiToolConfig)
    (before : List (ToolCall H.Object))
    (hcalled : ∃ arguments, .multiMcpTools arguments ∈ (resolveMulti config before).entries) :
    KeepsServers read config before ↔ ∀ server ∈ config.servers, IsPlainCommand server := by
  constructor
  · intro h
    obtain ⟨arguments, harguments⟩ := hcalled
    obtain ⟨kept, hkept, rfl⟩ := exists_kept harguments
    exact isPlainCommand_of_perm read hkept (h.denotes _ harguments)
  · intro hplain
    refine ⟨fun arguments harguments => ?_, fun server hserver path hpath _ => ?_⟩
    · obtain ⟨kept, hkept, rfl⟩ := exists_kept harguments
      rw [connections_of_plain read hkept hplain]
    · cases server with
      | stdio config => cases hpath
      | http config => exact (hplain _ hserver).elim

/-- An entry with one server. -/
def singleServer (server : McpToolConfig) : McpMultiToolConfig where
  servers := [server]
  servers_ne := by simp

/-- A command, with nothing in its environment. -/
def plainServer : McpToolConfig :=
  .stdio { command := "uvx hi", command_ne := by decide, command_length_le := by decide }

/-- A command with a token in its environment. -/
def tokenServer : McpToolConfig :=
  .stdio
    { command := "uvx hi", env := some [("TOKEN", "t")], command_ne := by decide
      command_length_le := by decide }

/-- A server that is reached over HTTP. -/
def httpServer : McpToolConfig :=
  .http
    { transport := .sse, url := "https://docs.agno.com/mcp", url_ne := by decide }

/-- The parameters of that server. -/
def readParams (_ : answeringHost.Object) : HttpConnection :=
  ⟨"sse", "https://docs.agno.com/mcp", none, none, none⟩

/-- A command twice, and between the two a server that is reached over HTTP. -/
def threeServers : McpMultiToolConfig where
  servers := [plainServer, httpServer, plainServer]
  servers_ne := by simp

/-- Two commands. -/
def twoServers : McpMultiToolConfig where
  servers := [plainServer, plainServer]
  servers_ne := by simp

/-- Two commands are kept, and three servers with one over HTTP are not. -/
theorem multi_keeps_servers_plain :
    KeepsServers readParams twoServers [] ∧ ¬ KeepsServers readParams threeServers [] := by
  constructor
  · refine (multi_keeps_servers_iff (H := answeringHost) _ twoServers []
      ⟨_, List.mem_singleton.mpr rfl⟩).mpr ?_
    simp [twoServers, plainServer, IsPlainCommand]
  · intro h
    exact (multi_keeps_servers_iff (H := answeringHost) _ threeServers []
      ⟨_, List.mem_cons_of_mem _ (List.mem_singleton.mpr rfl)⟩).mp h httpServer
        (by simp [threeServers])

/-- An HTTP server is listed twice, and the environment of a command is dropped. -/
theorem multi_loses_servers :
    ¬ KeepsServers readParams (singleServer httpServer) [] ∧
      ¬ KeepsServers readParams (singleServer tokenServer) [] := by
  constructor
  · intro h
    have hperm := h.denotes _ (List.mem_cons_of_mem _ (List.mem_singleton.mpr rfl))
    exact absurd hperm.length_eq (by decide)
  · intro h
    have hperm := h.denotes _ (List.mem_singleton.mpr rfl)
    have hmem := hperm.mem_iff (a := .stdio "uvx hi" []) |>.mp List.mem_cons_self
    have henv := List.mem_singleton.mp hmem
    cases henv

end MCPResolver
end YamlAgno

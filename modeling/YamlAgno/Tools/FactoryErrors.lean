import YamlAgno.Tools.ToolFactory

/-!
# The errors of the tool factory

`ToolFactory.build` documents an `UnknownBuiltinError`, a `SecurityError`, a `ValidationError`
and, with `_wrap_tool` and the loaders, a `ValueError`.  Whatever the entries, it returns one
tool for each of them, or it raises at the first entry that it cannot build.

What it raises there is one of the four, or what the resolver or Agno has raised, except for three
kinds of entry: an unknown built-in name is looked up in a plain dictionary, a toolkit path that
leads to no class fails an assertion, and a timeout of 10^9 days or more is no `timedelta`
(`fails_as_documented_iff`).
-/

namespace YamlAgno
namespace ToolFactory

open Calling PyNumber

variable {H : ToolHost}

/-! ## What is documented -/

/-- The exception classes that the build documents, and those of the exceptions that it raises
besides. -/
inductive ToolException where
  | unknownBuiltinError
  | securityError
  | valueError
  | keyError
  | assertionError
  | overflowError

/-- The class of an exception; what comes from outside has one of its own. -/
def exceptionClass {E : Type} : ToolFailure E → Option ToolException
  | .valueError _ => some .valueError
  | .securityError _ => some .securityError
  | .keyError _ => some .keyError
  | .assertionError _ => some .assertionError
  | .overflowError _ => some .overflowError
  | .propagated _ => none

/-- What is documented for a dotted path. -/
inductive PathError (path : String) : ToolException → Prop
  | noModule (h : '.' ∉ path.toList) : PathError path .valueError
  | notAllowlisted
      (hdot : '.' ∈ path.toList)
      (h : ¬ Inside (moduleOf path)) :
      PathError path .securityError

/-- What is documented for an entry. -/
inductive EntryError : ToolEntry → ToolException → Prop
  | unknownBuiltin
      {config : BuiltinToolConfig}
      (h : builtinRegistry.lookup config.name = none) :
      EntryError (.builtin config) .unknownBuiltinError
  | path
      {entry : ToolEntry}
      {path : String}
      {exception : ToolException}
      (hpath : path ∈ entry.dottedPaths)
      (h : PathError path exception) :
      EntryError entry exception

/-- An exception of one of the classes that are documented for an entry. -/
def DocumentedFor {E : Type} (entry : ToolEntry) (failure : ToolFailure E) : Prop :=
  ∃ exception, exceptionClass failure = some exception ∧ EntryError entry exception

/-- The loop body of `build`. -/
def buildRaw (raw : RawEntry) : ToolBuild H H.Object := do
  let entry ← ofExcept ((raw.entry H).mapError .propagated)
  buildEntry entry

/-- The answer to the last call of a turn of the loop. -/
def RaisedOutside
    (raw : RawEntry)
    (history : List (ToolCall H.Object))
    (error : H.Error) : Prop :=
  ∃ calls toolCall, (buildRaw raw history).entries = calls ++ [toolCall] ∧
    H.answer (history ++ calls) toolCall = .error error

/-- An exception that a turn of the loop may raise, after the calls before it. -/
inductive Documented
    (raw : RawEntry)
    (history : List (ToolCall H.Object)) :
    ToolFailure H.Error → Prop
  /-- The `ValidationError` of a dictionary. -/
  | validation
      {error : H.Error}
      (h : raw.entry H = .error error) :
      Documented raw history (.propagated error)
  | entry
      {entry : ToolEntry}
      {failure : ToolFailure H.Error}
      (hentry : raw.entry H = .ok entry)
      (h : DocumentedFor entry failure) :
      Documented raw history failure
  | outside
      {error : H.Error}
      (h : RaisedOutside raw history error) :
      Documented raw history (.propagated error)

/-- What it is for a build to fail only as documented. -/
structure FailsAsDocumented
    (toolEntries : List RawEntry)
    (before : List (ToolCall H.Object)) :
    Prop where
  /-- A list that is returned has the tool of each entry. -/
  returns : ∀ tools, (build toolEntries before).result = .ok tools →
    tools.length = toolEntries.length ∧ Traversed buildRaw toolEntries before tools
  /-- What is raised is documented for the first entry that cannot be built. -/
  raises : ∀ failure, (build toolEntries before).result = .error failure →
    ∃ raw history, Reaches buildRaw toolEntries before raw history ∧
      (buildRaw raw history).result = .error failure ∧ Documented raw history failure

/-! ## What is not -/

/-- The name that a dotted path ends in. -/
def nameOf (dottedPath : String) : String :=
  (PyText.rpartition dottedPath '.').2.2

/-- A timeout of 10^9 days or more. -/
def TooLong (timeout : Timeout) : Prop :=
  Number.le (.int maxSeconds) (.float timeout.seconds) = true

/-- A server with a timeout that is made into a `timedelta`, which cannot hold it. -/
def Overflowing : McpToolConfig → Prop
  | .stdio _ => False
  | .http config =>
      config.transport = .streamableHttp ∧
        ((∃ timeout ∈ config.timeout, TooLong timeout) ∨
          ∃ timeout ∈ config.sseReadTimeout, TooLong timeout)

/-- An unknown built-in name, a toolkit path that leads to no class, or a server with a timeout
that overflows.  Of several servers, those before it have been resolved. -/
def Slips (history : List (ToolCall H.Object)) : ToolEntry → Prop
  | .builtin config => builtinRegistry.lookup config.name = none
  | .toolkitClass config =>
      '.' ∈ config.path.toList ∧ Inside (moduleOf config.path) ∧
        ∃ resolved, H.answer history
            (.resolveClass (moduleOf config.path) (nameOf config.path)) = .ok resolved ∧
          H.isType resolved = false
  | .mcp server => Overflowing server
  | .mcpMulti config =>
      ∃ server history', Reaches (MCPResolver.resolveServer (H := H)) config.servers history
        server history' ∧ Overflowing server
  | .function _ => False

/-- No entry that a build comes to is of these three kinds. -/
def NoSlip
    (toolEntries : List RawEntry)
    (before : List (ToolCall H.Object)) : Prop :=
  ∀ raw history, Reaches buildRaw toolEntries before raw history →
    ∀ entry, raw.entry H = .ok entry → ¬ Slips history entry

/-! ## Dotted paths -/

theorem resolveDotted_of_noModule
    {dottedPath : String}
    (h : '.' ∉ dottedPath.toList)
    (advice : String) :
    resolveDotted (H := H) advice dottedPath =
      Calling.ofExcept (.error (.valueError ("Invalid dotted path: " ++ H.repr dottedPath ++
        ". Expected 'module.name'."))) := by
  rw [resolveDotted, if_pos h]

theorem resolveDotted_of_notAllowlisted
    {dottedPath : String}
    (hdot : '.' ∈ dottedPath.toList)
    (h : ¬ Inside (moduleOf dottedPath))
    (advice : String) :
    resolveDotted (H := H) advice dottedPath =
      Calling.ofExcept (.error (.securityError ("Module " ++ H.repr (moduleOf dottedPath) ++
        " is not in the tool allowlist. " ++ advice ++
        " (configure the allowlist at bootstrap)."))) := by
  have hallowed : isModuleAllowed (moduleOf dottedPath) [] none = false := by
    rw [← Bool.not_eq_true, isModuleAllowed_iff]
    exact h
  rw [resolveDotted, if_neg (not_not.mpr hdot)]
  simp only [moduleOf] at hallowed ⊢
  rw [if_pos hallowed]

theorem resolveDotted_of_inside
    {dottedPath : String}
    (hdot : '.' ∈ dottedPath.toList)
    (h : Inside (moduleOf dottedPath))
    (advice : String) :
    resolveDotted (H := H) advice dottedPath =
      H.call (.resolveClass (moduleOf dottedPath) (nameOf dottedPath)) := by
  have hallowed : ¬ isModuleAllowed (moduleOf dottedPath) [] none = false := by
    rw [Bool.not_eq_false, isModuleAllowed_iff]
    exact h
  rw [resolveDotted, if_neg (not_not.mpr hdot)]
  simp only [moduleOf, nameOf] at hallowed ⊢
  rw [if_neg hallowed]

/-- A path that is resolved has a module inside the allowlist, and is what the host answers. -/
theorem of_resolveDotted_eq_ok
    {advice dottedPath : String}
    {history : List (ToolCall H.Object)}
    {resolved : H.Object}
    (h : (resolveDotted advice dottedPath history).result = .ok resolved) :
    '.' ∈ dottedPath.toList ∧ Inside (moduleOf dottedPath) ∧
      H.answer history (.resolveClass (moduleOf dottedPath) (nameOf dottedPath)) =
        .ok resolved := by
  by_cases hdot : '.' ∈ dottedPath.toList
  · by_cases hinside : Inside (moduleOf dottedPath)
    · rw [resolveDotted_of_inside hdot hinside] at h
      exact ⟨hdot, hinside, Fallible.mapError_eq_ok_iff.mp h⟩
    · rw [resolveDotted_of_notAllowlisted hdot hinside] at h
      cases h
  · rw [resolveDotted_of_noModule hdot] at h
    cases h

/-- What the host answers, as the programs of the tool modules raise it. -/
def outside (H : ToolHost) :
    List (ToolCall H.Object) → ToolCall H.Object → Except (ToolFailure H.Error) H.Object :=
  fun before next => (H.answer before next).mapError .propagated

theorem raises_call
    {S : ToolFailure H.Error → Prop}
    (toolCall : ToolCall H.Object) :
    Raises (outside H) (H.call toolCall) S :=
  .call (outside H) toolCall

/-- The two ways in which a dotted path is refused. -/
theorem raises_resolveDotted
    (advice dottedPath : String) :
    Raises (outside H) (resolveDotted (H := H) advice dottedPath)
      (fun failure => ∃ exception, exceptionClass failure = some exception ∧
        PathError dottedPath exception) := by
  by_cases hdot : '.' ∈ dottedPath.toList
  · by_cases hinside : Inside (moduleOf dottedPath)
    · rw [resolveDotted_of_inside hdot hinside]
      exact raises_call _
    · rw [resolveDotted_of_notAllowlisted hdot hinside]
      refine .ofExcept fun failure h => ?_
      cases h
      exact ⟨.securityError, rfl, .notAllowlisted hdot hinside⟩
  · rw [resolveDotted_of_noModule hdot]
    refine .ofExcept fun failure h => ?_
    cases h
    exact ⟨.valueError, rfl, .noModule hdot⟩

/-- A path of an entry is refused as documented for the entry. -/
theorem raises_path
    {entry : ToolEntry}
    {dottedPath : String}
    (h : dottedPath ∈ entry.dottedPaths)
    (advice : String) :
    Raises (outside H) (resolveDotted (H := H) advice dottedPath) (DocumentedFor entry) := by
  intro before failure hfailure
  rcases raises_resolveDotted advice dottedPath before failure hfailure with hown | hout
  · obtain ⟨exception, hclass, herror⟩ := hown
    exact .inl ⟨exception, hclass, .path h herror⟩
  · exact .inr hout

/-! ## The kinds of entries -/

theorem raises_wrapTool
    (rawCallable : H.Object)
    (config : CustomToolConfig) :
    Raises (outside H) (wrapTool rawCallable config) (DocumentedFor (.function config)) := by
  have hpath : ∀ path ∈ (ToolEntry.function config).dottedPaths,
      Raises (outside H) (CustomToolLoader.resolveDotted (H := H) path)
        (DocumentedFor (.function config)) :=
    fun path hmem => raises_path hmem _
  simp only [ToolEntry.dottedPaths, List.forall_mem_cons, List.forall_mem_append,
    List.forall_mem_map, Option.mem_toList] at hpath
  obtain ⟨-, hpre, hpost, htool⟩ := hpath
  refine (Raises.optionMapM hpre).bind fun preHook => ?_
  refine (Raises.optionMapM hpost).bind fun postHook => ?_
  exact (Raises.mapM htool).bind fun toolHooks => raises_call _

/-- A timeout becomes a `timedelta`, or it is too long. -/
theorem mapM_timedelta_cases
    (timeout : Option Timeout) :
    ((¬ ∃ t ∈ timeout, TooLong t) ∧
        ∃ duration, timeout.mapM (MCPResolver.timedelta (H := H)) = pure duration) ∨
      ((∃ t ∈ timeout, TooLong t) ∧
        ∃ error, timeout.mapM (MCPResolver.timedelta (H := H)) =
          Calling.ofExcept (.error (.overflowError error))) := by
  cases timeout with
  | none => exact .inl ⟨by simp, none, rfl⟩
  | some t =>
      have hnonneg : Number.le (.int 0) (.float t.seconds) = true := by
        refine Number.le_trans ?_ t.one_le
        decide +kernel
      rcases timedelta_cases t.isFloat hnonneg with ⟨hshort, duration, hok⟩ | ⟨hlong, error, herror⟩
      · refine .inl ⟨by simp [TooLong, hshort], some duration, ?_⟩
        rw [Option.mapM_some, MCPResolver.timedelta, hok]
        rfl
      · refine .inr ⟨⟨t, rfl, hlong⟩, error, ?_⟩
        rw [Option.mapM_some, MCPResolver.timedelta, herror]
        rfl

/-- The parameters of a server whose timeouts do not overflow are up to Agno. -/
theorem raises_clientParams
    {S : ToolFailure H.Error → Prop}
    {config : HttpMcpConfig}
    (h : ¬ Overflowing (.http config)) :
    Raises (outside H) (MCPResolver.clientParams config) S := by
  rw [MCPResolver.clientParams]
  cases htransport : config.transport with
  | sse => exact raises_call _
  | streamableHttp =>
      simp only [Overflowing, htransport, true_and, not_or] at h
      obtain ⟨-, timeoutTd, htimeout⟩ :=
        (mapM_timedelta_cases (H := H) config.timeout).resolve_right fun hlong => h.1 hlong.1
      obtain ⟨-, sseReadTd, hsseRead⟩ :=
        (mapM_timedelta_cases (H := H) config.sseReadTimeout).resolve_right
          fun hlong => h.2 hlong.1
      simp only [htimeout, hsseRead]
      exact (Raises.pure _).bind fun _ => (Raises.pure _).bind fun _ => raises_call _

/-- Those of any other server are not made. -/
theorem clientParams_of_overflowing
    {config : HttpMcpConfig}
    (h : Overflowing (.http config))
    (history : List (ToolCall H.Object)) :
    ∃ error, (MCPResolver.clientParams config history).result =
      .error (.overflowError error) := by
  obtain ⟨htransport, hlong⟩ := h
  rw [MCPResolver.clientParams, htransport]
  rcases mapM_timedelta_cases (H := H) config.timeout with
    ⟨hshort, timeoutTd, htimeout⟩ | ⟨-, error, herror⟩
  · rcases mapM_timedelta_cases (H := H) config.sseReadTimeout with
      ⟨hshort', -⟩ | ⟨-, error, herror⟩
    · exact absurd hlong (not_or.mpr ⟨hshort, hshort'⟩)
    · simp only [htimeout, herror]
      exact ⟨error, rfl⟩
  · simp only [herror]
    exact ⟨error, rfl⟩

theorem raises_buildHttpParams
    {S : ToolFailure H.Error → Prop}
    {config : HttpMcpConfig}
    (h : ¬ Overflowing (.http config)) :
    Raises (outside H) (MCPResolver.buildHttpParams config) S :=
  (raises_clientParams h).bind fun _ => .pure _

theorem raises_resolveSingle
    {config : McpToolConfig}
    (h : ¬ Overflowing config) :
    Raises (outside H) (MCPResolver.resolveSingle config) (DocumentedFor (.mcp config)) := by
  cases config with
  | stdio config => exact raises_call _
  | http config =>
      refine (raises_buildHttpParams h).bind fun params => ?_
      refine Raises.bind (.optionMapM fun path hpath => ?_) fun headerProvider => raises_call _
      exact raises_path (by simpa [ToolEntry.dottedPaths] using hpath) _

theorem resolveSingle_of_overflowing
    {config : McpToolConfig}
    (h : Overflowing config)
    (history : List (ToolCall H.Object)) :
    ∃ error, (MCPResolver.resolveSingle config history).result =
      .error (.overflowError error) := by
  cases config with
  | stdio config => exact h.elim
  | http config =>
      obtain ⟨error, herror⟩ := clientParams_of_overflowing h history
      refine ⟨error, ?_⟩
      rw [MCPResolver.resolveSingle, MCPResolver.buildHttp, MCPResolver.buildHttpParams,
        bind_assoc, bind_of_error herror]

theorem raises_resolveServer
    {S : ToolFailure H.Error → Prop}
    {server : McpToolConfig}
    (h : ¬ Overflowing server) :
    Raises (outside H) (MCPResolver.resolveServer server) S := by
  cases server with
  | stdio config => exact .pure _
  | http config => exact (raises_buildHttpParams h).bind fun _ => .pure _

theorem resolveServer_of_overflowing
    {server : McpToolConfig}
    (h : Overflowing server)
    (history : List (ToolCall H.Object)) :
    ∃ error, (MCPResolver.resolveServer server history).result =
      .error (.overflowError error) := by
  cases server with
  | stdio config => exact h.elim
  | http config =>
      obtain ⟨error, herror⟩ := clientParams_of_overflowing h history
      refine ⟨error, ?_⟩
      rw [MCPResolver.resolveServer, MCPResolver.buildHttpParams, bind_assoc,
        bind_of_error herror]

/-- Servers of which none that the loop comes to has a timeout that overflows. -/
theorem raises_resolveMulti
    {S : ToolFailure H.Error → Prop}
    {config : McpMultiToolConfig}
    {history : List (ToolCall H.Object)}
    (hslip : ¬ Slips history (.mcpMulti config)) :
    RaisesAfter (outside H) history (MCPResolver.resolveMulti config) S := by
  refine RaisesAfter.bind (RaisesAfter.mapM fun server history' hreaches => ?_)
    fun servers _ => raises_call _ _
  exact raises_resolveServer (fun h => hslip ⟨server, history', hreaches, h⟩) history'

/-- A built-in name of the table. -/
theorem raises_builtin
    {config : BuiltinToolConfig}
    {adapter : ToolkitAdapter}
    {S : ToolFailure H.Error → Prop}
    (h : builtinRegistry.lookup config.name = some adapter) :
    Raises (outside H) (buildEntry (.builtin config)) S := by
  rw [buildEntry, h]
  exact (raises_call _).bind fun cls => raises_call _

/-- A toolkit path that is refused, or leads to a class. -/
theorem raises_toolkitClass
    {config : CustomToolkitConfig}
    {history : List (ToolCall H.Object)}
    (hslip : ¬ Slips history (.toolkitClass config)) :
    RaisesAfter (outside H) history (buildEntry (.toolkitClass config))
      (DocumentedFor (.toolkitClass config)) := by
  refine RaisesAfter.bind (RaisesAfter.bind (raises_path List.mem_cons_self _ history)
    fun resolved hresolved => ?_) fun cls _ => raises_call _ _
  obtain ⟨hdot, hinside, hanswer⟩ := of_resolveDotted_eq_ok hresolved
  have htype : H.isType resolved = true := by
    by_contra hnot
    exact hslip ⟨hdot, hinside, resolved, hanswer, Bool.eq_false_iff.mpr hnot⟩
  rw [if_pos htype]
  exact Raises.pure resolved _

/-- Every other entry raises what is documented. -/
theorem raises_buildEntry
    {entry : ToolEntry}
    {history : List (ToolCall H.Object)}
    (hslip : ¬ Slips history entry) :
    RaisesAfter (outside H) history (buildEntry entry) (DocumentedFor entry) := by
  cases entry with
  | builtin config =>
      cases hlookup : builtinRegistry.lookup config.name with
      | none => exact absurd hlookup hslip
      | some adapter => exact raises_builtin hlookup history
  | function config =>
      exact (raises_path List.mem_cons_self _).bind
        (fun rawCallable => raises_wrapTool rawCallable config) history
  | toolkitClass config => exact raises_toolkitClass hslip
  | mcp config => exact raises_resolveSingle hslip history
  | mcpMulti config => exact raises_resolveMulti hslip

/-- An `OverflowError` is documented for no entry. -/
theorem not_documentedFor_overflowError
    {E : Type}
    (entry : ToolEntry)
    (error : OverflowError) :
    ¬ DocumentedFor (E := E) entry (.overflowError error) := by
  rintro ⟨exception, hclass, herror⟩
  cases hclass
  cases herror with
  | path _ h => cases h

/-- What the three kinds of entry raise is not documented. -/
theorem slips_raises
    {entry : ToolEntry}
    {history : List (ToolCall H.Object)}
    (hslip : Slips history entry) :
    ∃ failure, (buildEntry entry history).result = .error failure ∧
      ¬ DocumentedFor entry failure ∧ ∀ error, failure ≠ .propagated error := by
  cases entry with
  | builtin config =>
      rw [buildEntry, show builtinRegistry.lookup config.name = none from hslip]
      refine ⟨.keyError config.name, rfl, ?_, by simp⟩
      rintro ⟨exception, hclass, herror⟩
      cases hclass
      cases herror with
      | path _ h => cases h
  | toolkitClass config =>
      obtain ⟨hdot, hinside, resolved, hanswer, htype⟩ := hslip
      refine ⟨.assertionError ("Expected a class, got " ++ H.typeName resolved), ?_, ?_, by simp⟩
      · have hresolved : (CustomToolLoader.resolveDotted config.path history).result =
            .ok resolved := by
          rw [CustomToolLoader.resolveDotted, resolveDotted_of_inside hdot hinside]
          exact Fallible.mapError_eq_ok_iff.mpr hanswer
        have hload : (CustomToolLoader.loadToolkitClass config history).result =
            .error (.assertionError ("Expected a class, got " ++ H.typeName resolved)) := by
          rw [CustomToolLoader.loadToolkitClass, bind_of_ok hresolved, if_neg (by simp [htype])]
          rfl
        rw [buildEntry, bind_of_error hload]
      · rintro ⟨exception, hclass, herror⟩
        cases hclass
        cases herror with
        | path _ h => cases h
  | function config => exact hslip.elim
  | mcp config =>
      obtain ⟨error, herror⟩ := resolveSingle_of_overflowing hslip history
      exact ⟨.overflowError error, herror, not_documentedFor_overflowError _ error, by simp⟩
  | mcpMulti config =>
      obtain ⟨server, history', hreaches, hoverflowing⟩ := hslip
      obtain ⟨error, herror⟩ := resolveServer_of_overflowing (H := H) hoverflowing history'
      have hservers := mapM_error_iff.mpr ⟨server, history', hreaches, herror⟩
      refine ⟨.overflowError error, ?_, not_documentedFor_overflowError _ error, by simp⟩
      rw [buildEntry, MCPResolver.resolveMulti, bind_of_error hservers]

/-! ## The loop -/

/-- A turn of the loop for an entry that is no dictionary, or a good one. -/
theorem buildRaw_of_ok
    {raw : RawEntry}
    {entry : ToolEntry}
    (h : raw.entry H = .ok entry) :
    buildRaw raw = buildEntry (H := H) entry := by
  rw [buildRaw, h]
  exact ofExcept_ok_bind entry buildEntry

theorem buildRaw_of_error
    {raw : RawEntry}
    {error : H.Error}
    (h : raw.entry H = .error error)
    (history : List (ToolCall H.Object)) :
    (buildRaw raw history).result = .error (.propagated error) := by
  rw [buildRaw, h]
  rfl

/-- What a turn raises is documented if its entry is of none of the kinds. -/
theorem documented_of_noSlip
    {raw : RawEntry}
    {history : List (ToolCall H.Object)}
    {failure : ToolFailure H.Error}
    (hslip : ∀ entry, raw.entry H = .ok entry → ¬ Slips history entry)
    (h : (buildRaw raw history).result = .error failure) :
    Documented raw history failure := by
  cases hentry : raw.entry H with
  | error error =>
      rw [buildRaw_of_error hentry] at h
      cases h
      exact .validation hentry
  | ok entry =>
      have hraw := buildRaw_of_ok hentry
      rw [hraw] at h
      rcases raises_buildEntry (hslip entry hentry) failure h with hown | hout
      · exact .entry hentry hown
      · obtain ⟨calls, toolCall, hcalls, hanswer⟩ := hout
        cases herror : H.answer (history ++ calls) toolCall with
        | ok object => simp [outside, herror, Except.mapError] at hanswer
        | error error =>
            rw [outside, herror] at hanswer
            cases hanswer
            exact .outside ⟨calls, toolCall, hraw ▸ hcalls, herror⟩

/-- What a turn raises is not documented if its entry is of one of the kinds. -/
theorem not_documented_of_slips
    {raw : RawEntry}
    {entry : ToolEntry}
    {history : List (ToolCall H.Object)}
    (hentry : raw.entry H = .ok entry)
    (hslip : Slips history entry) :
    ∃ failure, (buildRaw raw history).result = .error failure ∧
      ¬ Documented raw history failure := by
  obtain ⟨failure, hfailure, hnot, hown⟩ := slips_raises hslip
  refine ⟨failure, by rw [buildRaw_of_ok hentry, hfailure], fun hdocumented => ?_⟩
  cases hdocumented with
  | validation _ => exact hown _ rfl
  | outside _ => exact hown _ rfl
  | entry hentry' h =>
      cases hentry.symm.trans hentry'
      exact hnot h

/--
A build fails only as documented exactly if no entry that it comes to has an unknown built-in
name, a toolkit path that leads to no class, or a timeout that no `timedelta` can hold.
-/
theorem fails_as_documented_iff
    (toolEntries : List RawEntry)
    (before : List (ToolCall H.Object)) :
    FailsAsDocumented toolEntries before ↔ NoSlip toolEntries before := by
  constructor
  · intro h raw history hreaches entry hentry hslip
    obtain ⟨failure, hfailure, hnot⟩ := not_documented_of_slips hentry hslip
    have hbuild := mapM_error_iff.mpr ⟨raw, history, hreaches, hfailure⟩
    obtain ⟨raw', history', hreaches', hfailure', hdocumented⟩ := h.raises failure hbuild
    obtain ⟨rfl, rfl⟩ := hreaches.unique hfailure hreaches' hfailure'
    exact hnot hdocumented
  · intro h
    refine ⟨fun tools htools => ?_, fun failure hfailure => ?_⟩
    · have htraversed := traversed_of_mapM htools
      exact ⟨htraversed.length_eq, htraversed⟩
    · obtain ⟨raw, history, hreaches, hraw⟩ := mapM_error_iff.mp hfailure
      exact ⟨raw, history, hreaches, hraw, documented_of_noSlip (h raw history hreaches) hraw⟩

/-- A name that is not in the table. -/
def unknownBuiltin : BuiltinToolConfig where
  name := "calculater"
  initArgs := []
  extra := []
  name_ne := by decide
  nodup_initArgs := List.nodup_nil
  nodup_extra := List.nodup_nil

/-- An unknown built-in name raises a `KeyError`. -/
theorem unknown_builtin_keyError :
    ¬ ∀ (H : ToolHost) (toolEntries : List RawEntry) (before : List (ToolCall H.Object)),
      FailsAsDocumented toolEntries before := by
  intro hall
  obtain ⟨raw, history, hreaches, -, hdocumented⟩ :=
    (hall answeringHost [.parsed (.builtin unknownBuiltin)] []).raises (.keyError "calculater") rfl
  cases hreaches with
  | tail _ hd => cases hd
  | head =>
      cases hdocumented with
      | entry hentry h =>
          cases hentry
          obtain ⟨exception, hclass, herror⟩ := h
          cases hclass
          cases herror with
          | path hpath _ => cases hpath

end ToolFactory
end YamlAgno

import YamlAgno.Tools.ToolFactory

/-!
# The arguments of a built-in toolkit

`ToolkitAdapter.build` renames the keys of `init_args` by the alias map of the adapter and drops
those that the class does not declare.  Two keys may then stand for one parameter, and the last
of them decides: no entry is lost, and the order does not matter, exactly if those of one
parameter have one value (`lossless_iff`).

The schema lets an entry carry flags beside `init_args`.  The factory hands `init_args` over and
nothing else, so such a flag takes effect only if it repeats what `init_args` gives the parameter
(`flags_take_effect_iff`).
-/

namespace YamlAgno
namespace ToolkitAdapter

open OrderedDict

/-- The parameter that a key stands for. -/
def canonicalName (adapter : ToolkitAdapter) (key : String) : String :=
  (adapter.aliasMap.lookup key).getD key

/-- The class takes a keyword argument, or `_filter_kwargs` does not look. -/
def accepts (signature : Option (List (String × Bool))) (key : String) : Bool :=
  match signature with
  | none => true
  | some parameters =>
      parameters.any (·.2) || ((parameters.map (·.1)).contains key && key != "self")

/-- The keyword arguments that `build` passes to the class. -/
def kwargs
    (adapter : ToolkitAdapter)
    (signature : Option (List (String × Bool)))
    (initArgs : PyDict) :
    PyDict :=
  filterKwargs signature (adapter.normalizeAliases initArgs)

/-- The same keyword arguments, in whatever order. -/
def SameArguments (kwargs kwargs' : PyDict) : Prop :=
  ∀ key, kwargs.lookup key = kwargs'.lookup key

/-- What it is for the renaming to lose nothing. -/
structure Lossless
    (adapter : ToolkitAdapter)
    (signature : Option (List (String × Bool)))
    (initArgs : PyDict) :
    Prop where
  /-- The order of the keys does not matter. -/
  orderFree : ∀ initArgs', initArgs'.Perm initArgs →
    SameArguments (adapter.kwargs signature initArgs') (adapter.kwargs signature initArgs)
  /-- Renaming twice is renaming once, if no alias stands for another. -/
  idempotent : (∀ item ∈ adapter.aliasMap, adapter.aliasMap.lookup item.2 = none) →
    adapter.normalizeAliases (adapter.normalizeAliases initArgs) =
      adapter.normalizeAliases initArgs
  /-- Every entry for a parameter of the class reaches it with its value. -/
  keepsEntries : ∀ arg ∈ initArgs, accepts signature (adapter.canonicalName arg.1) = true →
    (adapter.kwargs signature initArgs).lookup (adapter.canonicalName arg.1) = some arg.2

/-- Entries for one parameter of the class have one value. -/
def NoConflict
    (adapter : ToolkitAdapter)
    (signature : Option (List (String × Bool)))
    (initArgs : PyDict) : Prop :=
  ∀ arg ∈ initArgs, ∀ arg' ∈ initArgs,
    adapter.canonicalName arg.1 = adapter.canonicalName arg'.1 →
      accepts signature (adapter.canonicalName arg.1) = true → arg.2 = arg'.2

variable {adapter : ToolkitAdapter} {signature : Option (List (String × Bool))}
  {initArgs : PyDict}

/-! ## What is passed -/

/-- The entries under the names of their parameters. -/
def renamed (adapter : ToolkitAdapter) (initArgs : PyDict) : PyDict :=
  initArgs.map fun arg => (adapter.canonicalName arg.1, arg.2)

theorem normalizeAliases_eq
    (adapter : ToolkitAdapter)
    (initArgs : PyDict) :
    adapter.normalizeAliases initArgs = ofPairs (adapter.renamed initArgs) := by
  rw [ofPairs, renamed, List.foldl_map]
  rfl

theorem filterKwargs_eq
    (signature : Option (List (String × Bool)))
    (kwargs : PyDict) :
    filterKwargs signature kwargs = kwargs.filter fun arg => accepts signature arg.1 := by
  cases signature with
  | none => simp [filterKwargs, accepts]
  | some parameters =>
      rw [filterKwargs]
      split_ifs with h
      · simp [accepts, h]
      · simp only [accepts, Bool.not_eq_true] at h ⊢
        simp only [h, Bool.false_or]

/-- The last entry for a parameter decides. -/
theorem lookup_kwargs
    (adapter : ToolkitAdapter)
    (signature : Option (List (String × Bool)))
    (initArgs : PyDict)
    (key : String) :
    (adapter.kwargs signature initArgs).lookup key =
      if accepts signature key = true then (adapter.renamed initArgs).reverse.lookup key
      else none := by
  rw [kwargs, filterKwargs_eq, lookup_filter, normalizeAliases_eq, lookup_ofPairs]

/-- What a parameter is given is the value of an entry for it. -/
theorem mem_of_lookup_renamed
    {key : String}
    {value : PyValue}
    (h : (adapter.renamed initArgs).reverse.lookup key = some value) :
    ∃ arg ∈ initArgs, adapter.canonicalName arg.1 = key ∧ arg.2 = value := by
  obtain ⟨before, after, hsplit, -⟩ := List.lookup_eq_some_iff.mp h
  have hmem : (key, value) ∈ (adapter.renamed initArgs).reverse := by
    rw [hsplit]
    simp
  obtain ⟨arg, harg, heq⟩ := List.mem_map.mp (List.mem_reverse.mp hmem)
  exact ⟨arg, harg, congrArg Prod.fst heq, congrArg Prod.snd heq⟩

/-- A parameter with an entry is given something. -/
theorem exists_lookup_renamed
    {arg : String × PyValue}
    (harg : arg ∈ initArgs) :
    ∃ value, (adapter.renamed initArgs).reverse.lookup (adapter.canonicalName arg.1) =
      some value := by
  rw [← Option.ne_none_iff_exists']
  intro hnone
  have hmem : (adapter.canonicalName arg.1, arg.2) ∈ (adapter.renamed initArgs).reverse :=
    List.mem_reverse.mpr (List.mem_map.mpr ⟨arg, harg, rfl⟩)
  simpa using List.lookup_eq_none_iff.mp hnone _ hmem

/-- Without a conflict, the value of a parameter is that of any entry for it. -/
theorem NoConflict.lookup_eq
    (h : NoConflict adapter signature initArgs)
    {arg : String × PyValue}
    (harg : arg ∈ initArgs)
    (haccepts : accepts signature (adapter.canonicalName arg.1) = true) :
    (adapter.kwargs signature initArgs).lookup (adapter.canonicalName arg.1) = some arg.2 := by
  obtain ⟨value, hvalue⟩ : ∃ value,
      (adapter.renamed initArgs).reverse.lookup (adapter.canonicalName arg.1) = some value :=
    exists_lookup_renamed harg
  obtain ⟨arg', harg', hname, rfl⟩ := mem_of_lookup_renamed hvalue
  rw [lookup_kwargs, if_pos haccepts, hvalue, h arg harg arg' harg' hname.symm haccepts]

/-- It does not matter in which order the entries stand. -/
theorem NoConflict.perm
    (h : NoConflict adapter signature initArgs)
    {initArgs' : PyDict}
    (hperm : initArgs'.Perm initArgs) :
    NoConflict adapter signature initArgs' :=
  fun arg harg arg' harg' =>
    h arg (hperm.mem_iff.mp harg) arg' (hperm.mem_iff.mp harg')

theorem NoConflict.sameArguments
    (h : NoConflict adapter signature initArgs)
    {initArgs' : PyDict}
    (hperm : initArgs'.Perm initArgs) :
    SameArguments (adapter.kwargs signature initArgs') (adapter.kwargs signature initArgs) := by
  intro key
  by_cases haccepts : accepts signature key = true
  · by_cases hentry : ∃ arg ∈ initArgs, adapter.canonicalName arg.1 = key
    · obtain ⟨arg, harg, rfl⟩ := hentry
      rw [h.lookup_eq harg haccepts,
        (h.perm hperm).lookup_eq (hperm.mem_iff.mpr harg) haccepts]
    · -- No entry stands for this parameter.
      have hnone : ∀ args : PyDict, args.Perm initArgs →
          (adapter.renamed args).reverse.lookup key = none := by
        intro args hargs
        by_contra hsome
        obtain ⟨value, hvalue⟩ := Option.ne_none_iff_exists'.mp hsome
        obtain ⟨arg, harg, hname, -⟩ := mem_of_lookup_renamed hvalue
        exact hentry ⟨arg, hargs.mem_iff.mp harg, hname⟩
      rw [lookup_kwargs, lookup_kwargs, hnone initArgs' hperm, hnone initArgs (.refl _)]
  · rw [lookup_kwargs, lookup_kwargs, if_neg haccepts, if_neg haccepts]

/-- Names that are no aliases stay. -/
theorem normalizeAliases_again
    (h : ∀ item ∈ adapter.aliasMap, adapter.aliasMap.lookup item.2 = none)
    (initArgs : PyDict) :
    adapter.normalizeAliases (adapter.normalizeAliases initArgs) =
      adapter.normalizeAliases initArgs := by
  have hname : ∀ key,
      adapter.canonicalName (adapter.canonicalName key) = adapter.canonicalName key := by
    intro key
    cases hlookup : adapter.aliasMap.lookup key with
    | none => simp [canonicalName, hlookup]
    | some target =>
        obtain ⟨before, after, hsplit, -⟩ := List.lookup_eq_some_iff.mp hlookup
        have htarget := h (key, target) (by rw [hsplit]; simp)
        simp only at htarget
        simp [canonicalName, hlookup, htarget]
  have hsame : adapter.renamed (adapter.normalizeAliases initArgs) =
      adapter.normalizeAliases initArgs := by
    refine (List.map_congr_left fun arg harg => ?_).trans (List.map_id _)
    rw [normalizeAliases_eq] at harg
    obtain ⟨arg', -, rfl⟩ := List.mem_map.mp (mem_of_mem_ofPairs harg)
    simp only [hname, id]
  have hnodup : ((adapter.normalizeAliases initArgs).map Prod.fst).Nodup := by
    rw [normalizeAliases_eq]
    exact nodup_keys_ofPairs _
  rw [normalizeAliases_eq adapter (adapter.normalizeAliases initArgs), hsame]
  exact ofPairs_of_nodup hnodup

/--
The renaming of arguments is independent of their order and loses none exactly if the entries
for one parameter of the class have one value.
-/
theorem lossless_iff
    (adapter : ToolkitAdapter)
    (signature : Option (List (String × Bool)))
    (initArgs : PyDict) :
    Lossless adapter signature initArgs ↔ NoConflict adapter signature initArgs := by
  constructor
  · intro h arg harg arg' harg' hname haccepts
    have hvalue := h.keepsEntries arg harg haccepts
    have hvalue' := h.keepsEntries arg' harg' (hname ▸ haccepts)
    rw [hname, hvalue'] at hvalue
    exact (Option.some.inj hvalue).symm
  · intro h
    exact ⟨fun _ => h.sameArguments, fun halias => normalizeAliases_again halias initArgs,
      fun _ => h.lookup_eq⟩

/-- `stock_price` and the flag that it stands for. -/
def conflictingFlags : PyDict :=
  [("stock_price", .bool true), ("enable_stock_price", .bool false)]

/-- The adapter of `yfinance`. -/
def yfinance : ToolkitAdapter :=
  ⟨"agno.tools.yfinance", "YFinanceTools",
    [("stock_price", "enable_stock_price"),
     ("company_info", "enable_company_info"),
     ("news", "enable_company_news"),
     ("analyst", "enable_analyst_recommendations")]⟩

/-- A flag and its alias with different values: one of them is lost. -/
theorem alias_overwritten :
    ¬ ∀ (adapter : ToolkitAdapter) (signature : Option (List (String × Bool)))
        (initArgs : PyDict), Lossless adapter signature initArgs := by
  intro hall
  have hkeeps := (hall yfinance none conflictingFlags).keepsEntries
    ("stock_price", .bool true) List.mem_cons_self rfl
  have hlast : (yfinance.kwargs none conflictingFlags).lookup "enable_stock_price" =
      some (.bool false) := rfl
  cases hlast.symm.trans hkeeps

/-! ## Flags beside the arguments -/

/-- The last entry for a parameter. -/
def lastFor (adapter : ToolkitAdapter) (parameter : String) (args : PyDict) :
    Option (String × PyValue) :=
  (args.filter fun arg => adapter.canonicalName arg.1 = parameter).getLast?

/-- A parameter is given the value of the last entry for it. -/
theorem lookup_renamed_eq_lastFor
    (adapter : ToolkitAdapter)
    (args : PyDict)
    (parameter : String) :
    (adapter.renamed args).reverse.lookup parameter =
      (adapter.lastFor parameter args).map Prod.snd := by
  induction args using List.reverseRecOn with
  | nil => rfl
  | append_singleton args arg ih =>
      rw [renamed, List.map_append, List.reverse_append]
      simp only [List.map_cons, List.map_nil, List.reverse_singleton, List.singleton_append]
      by_cases h : adapter.canonicalName arg.1 = parameter
      · simp [lastFor, h]
      · rw [List.lookup_cons, beq_false_of_ne (Ne.symm h)]
        simpa [lastFor, renamed, h] using ih

/-- No entry is for a parameter. -/
theorem lastFor_eq_none_iff
    {parameter : String}
    {args : PyDict} :
    adapter.lastFor parameter args = none ↔
      ∀ arg ∈ args, adapter.canonicalName arg.1 ≠ parameter := by
  simp [lastFor]

theorem mem_of_lastFor
    {parameter : String}
    {args : PyDict}
    {arg : String × PyValue}
    (h : adapter.lastFor parameter args = some arg) :
    arg ∈ args ∧ adapter.canonicalName arg.1 = parameter := by
  simpa using List.mem_of_getLast? h

theorem lastFor_append
    (adapter : ToolkitAdapter)
    (parameter : String)
    (args args' : PyDict) :
    adapter.lastFor parameter (args ++ args') =
      (adapter.lastFor parameter args').or (adapter.lastFor parameter args) := by
  rw [lastFor, List.filter_append, List.getLast?_append]
  rfl

/-- Other values under the same keys. -/
theorem lastFor_map
    (adapter : ToolkitAdapter)
    (parameter : String)
    (value : String × PyValue → PyValue)
    (args : PyDict) :
    adapter.lastFor parameter (args.map fun arg => (arg.1, value arg)) =
      (adapter.lastFor parameter args).map fun arg => (arg.1, value arg) := by
  rw [lastFor, List.filter_map, List.getLast?_map]
  rfl

end ToolkitAdapter

namespace ToolFactory

open Calling ToolkitAdapter

variable {H : ToolHost}

/-- The entry with its extra keys moved into `init_args`. -/
def flagsMoved (config : BuiltinToolConfig) : BuiltinToolConfig :=
  { config with
    initArgs :=
      config.extra.foldl (fun args flag => OrderedDict.set flag.1 flag.2 args) config.initArgs
    extra := []
    nodup_initArgs := OrderedDict.nodup_keys_foldl_set config.extra config.nodup_initArgs
    nodup_extra := List.nodup_nil }

/-- Two calls are the same, but for the order of the arguments of a toolkit. -/
inductive SameCall {Object : Type} : ToolCall Object → ToolCall Object → Prop
  | same (toolCall : ToolCall Object) : SameCall toolCall toolCall
  | toolkit
      {cls : Object}
      {kwargs kwargs' : PyDict}
      (h : SameArguments kwargs kwargs') :
      SameCall (.toolkit cls kwargs) (.toolkit cls kwargs')

/-- The flags beside `init_args` take effect: the toolkit is constructed as for the entry that
has them in `init_args`. -/
def FlagsTakeEffect (config : BuiltinToolConfig) (before : List (ToolCall H.Object)) : Prop :=
  List.Forall₂ SameCall (build [.parsed (.builtin config)] before).entries
    (build [.parsed (.builtin (flagsMoved config))] before).entries

/-- The extra keys that `init_args` does not have. -/
def newFlags (config : BuiltinToolConfig) : PyDict :=
  config.extra.filter fun flag => flag.1 ∉ config.initArgs.map Prod.fst

/-- The extra keys for a parameter repeat what `init_args` says of it last. -/
inductive Repeats
    (adapter : ToolkitAdapter)
    (config : BuiltinToolConfig)
    (parameter : String) :
    Prop
  /-- The last of those that are new has the value of the last argument. -/
  | added
      {flag arg : String × PyValue}
      (hflag : adapter.lastFor parameter (newFlags config) = some flag)
      (harg : adapter.lastFor parameter config.initArgs = some arg)
      (h : flag.2 = arg.2)
  /-- None is new, and the one under the key of the last argument has its value. -/
  | replaced
      {arg : String × PyValue}
      (hflag : adapter.lastFor parameter (newFlags config) = none)
      (harg : adapter.lastFor parameter config.initArgs = some arg)
      (h : ∀ value, config.extra.lookup arg.1 = some value → value = arg.2)

/-- Every extra key that stands for a parameter of the class repeats an argument. -/
def FlagsRepeat (config : BuiltinToolConfig) (before : List (ToolCall H.Object)) : Prop :=
  ∀ adapter, builtinRegistry.lookup config.name = some adapter →
    ∀ cls, H.answer before (.resolveClass adapter.modulePath adapter.className) = .ok cls →
      ∀ flag ∈ config.extra, accepts (H.signature cls) (adapter.canonicalName flag.1) = true →
        Repeats adapter config (adapter.canonicalName flag.1)

/-- The calls of a build of one entry are those of its turn of the loop. -/
theorem entries_build_singleton
    (entry : ToolEntry)
    (before : List (ToolCall H.Object)) :
    (build [.parsed entry] before).entries = (buildEntry entry before).entries := by
  have hturn : build [.parsed entry] = (fun tool => [tool]) <$> buildEntry (H := H) entry := by
    have hentry : (RawEntry.parsed entry).entry H = .ok entry := rfl
    rw [build, List.mapM_cons, List.mapM_nil]
    simp only [hentry, Except.mapError, ofExcept_ok_bind, pure_bind, map_eq_pure_bind]
  rw [hturn, map_apply]

theorem entries_builtin_of_unknown
    {config : BuiltinToolConfig}
    (h : builtinRegistry.lookup config.name = none)
    (before : List (ToolCall H.Object)) :
    (buildEntry (.builtin config) before).entries = [] := by
  rw [buildEntry, h]
  rfl

/-- The class of a built-in toolkit is resolved, and called if it can be. -/
theorem entries_builtin
    {config : BuiltinToolConfig}
    {adapter : ToolkitAdapter}
    (h : builtinRegistry.lookup config.name = some adapter)
    (before : List (ToolCall H.Object)) :
    (buildEntry (.builtin config) before).entries =
      .resolveClass adapter.modulePath adapter.className ::
        match H.answer before (.resolveClass adapter.modulePath adapter.className) with
        | .ok cls => [.toolkit cls (adapter.kwargs (H.signature cls) config.initArgs)]
        | .error _ => [] := by
  rw [buildEntry, h]
  dsimp only [ToolkitAdapter.build]
  cases hanswer : H.answer before (.resolveClass adapter.modulePath adapter.className) with
  | ok cls =>
      have hcall : (H.call (.resolveClass adapter.modulePath adapter.className) before).result =
          .ok cls := by
        simp [ToolHost.call, Calling.call, hanswer, Except.mapError]
      rw [bind_of_ok hcall]
      rfl
  | error error =>
      have hcall : (H.call (.resolveClass adapter.modulePath adapter.className) before).result =
          .error (.propagated error) := by
        simp [ToolHost.call, Calling.call, hanswer, Except.mapError]
      rw [bind_of_error hcall]
      rfl

/-- The last argument for a parameter once the extra keys are moved: a new one, or one of
`init_args` with the value of an extra key. -/
theorem lastFor_flagsMoved
    (adapter : ToolkitAdapter)
    (config : BuiltinToolConfig)
    (parameter : String) :
    adapter.lastFor parameter (flagsMoved config).initArgs =
      (adapter.lastFor parameter (newFlags config)).or
        ((adapter.lastFor parameter config.initArgs).map fun arg =>
          (arg.1, (config.extra.lookup arg.1).getD arg.2)) := by
  have hmoved : (flagsMoved config).initArgs =
      config.initArgs.map (fun arg => (arg.1, (config.extra.lookup arg.1).getD arg.2)) ++
        newFlags config :=
    OrderedDict.foldl_set_eq config.nodup_initArgs config.nodup_extra
  rw [hmoved, lastFor_append, lastFor_map]

/-- A parameter that no extra key stands for is given what `init_args` gives it. -/
theorem lastFor_flagsMoved_of_ne
    {adapter : ToolkitAdapter}
    {config : BuiltinToolConfig}
    {parameter : String}
    (h : ∀ flag ∈ config.extra, adapter.canonicalName flag.1 ≠ parameter) :
    adapter.lastFor parameter (flagsMoved config).initArgs =
      adapter.lastFor parameter config.initArgs := by
  have hnew : adapter.lastFor parameter (newFlags config) = none :=
    lastFor_eq_none_iff.mpr fun flag hflag => h flag (List.mem_of_mem_filter hflag)
  rw [lastFor_flagsMoved, hnew, Option.none_or]
  cases hlast : adapter.lastFor parameter config.initArgs with
  | none => rfl
  | some arg =>
      have hlookup : config.extra.lookup arg.1 = none := by
        refine List.lookup_eq_none_iff.mpr fun flag hflag => ?_
        have hne : arg.1 ≠ flag.1 := fun heq =>
          h flag hflag (heq ▸ (mem_of_lastFor hlast).2)
        simpa using hne
      simp [hlookup]

/-- A parameter that an extra key stands for is given the same if the extra keys repeat it. -/
theorem lookup_flagsMoved_iff
    {adapter : ToolkitAdapter}
    {config : BuiltinToolConfig}
    {flag : String × PyValue}
    (hflag : flag ∈ config.extra) :
    (adapter.lastFor (adapter.canonicalName flag.1) config.initArgs).map Prod.snd =
        (adapter.lastFor (adapter.canonicalName flag.1) (flagsMoved config).initArgs).map
          Prod.snd ↔
      Repeats adapter config (adapter.canonicalName flag.1) := by
  rw [lastFor_flagsMoved]
  cases hnew : adapter.lastFor (adapter.canonicalName flag.1) (newFlags config) with
  | some new =>
      rw [Option.some_or, Option.map_some]
      constructor
      · intro h
        obtain ⟨arg, harg, hvalue⟩ := Option.map_eq_some_iff.mp h
        exact .added hnew harg hvalue.symm
      · rintro (⟨hflag', harg, hvalue⟩ | ⟨hflag', -, -⟩)
        · cases hnew.symm.trans hflag'
          rw [harg, Option.map_some, hvalue]
        · cases hnew.symm.trans hflag'
  | none =>
      -- The extra key is one of `init_args`, so there is a last argument.
      have hold : flag.1 ∈ config.initArgs.map Prod.fst := by
        by_contra hnot
        exact lastFor_eq_none_iff.mp hnew flag
          (List.mem_filter.mpr ⟨hflag, by simpa using hnot⟩) rfl
      obtain ⟨old, hmem, hkey⟩ := List.mem_map.mp hold
      rw [Option.none_or, Option.map_map]
      cases hlast : adapter.lastFor (adapter.canonicalName flag.1) config.initArgs with
      | none =>
          exact absurd (congrArg adapter.canonicalName hkey)
            (lastFor_eq_none_iff.mp hlast old hmem)
      | some arg =>
          have hvalue : Option.map Prod.snd (some arg) =
                Option.map (Prod.snd ∘ fun arg =>
                  (arg.1, (config.extra.lookup arg.1).getD arg.2)) (some arg) ↔
              ∀ value, config.extra.lookup arg.1 = some value → value = arg.2 := by
            simp only [Option.map_some, Function.comp_apply, Option.some.injEq]
            cases config.extra.lookup arg.1 <;> simp [eq_comm]
          rw [hvalue]
          constructor
          · exact .replaced hnew hlast
          · rintro (⟨hflag', -, -⟩ | ⟨-, harg, h⟩)
            · cases hnew.symm.trans hflag'
            · cases hlast.symm.trans harg
              exact h

/-- The arguments are the same if the extra keys repeat those of their parameters. -/
theorem sameArguments_flagsMoved_iff
    (adapter : ToolkitAdapter)
    (signature : Option (List (String × Bool)))
    (config : BuiltinToolConfig) :
    SameArguments (adapter.kwargs signature config.initArgs)
        (adapter.kwargs signature (flagsMoved config).initArgs) ↔
      ∀ flag ∈ config.extra, accepts signature (adapter.canonicalName flag.1) = true →
        Repeats adapter config (adapter.canonicalName flag.1) := by
  constructor
  · intro h flag hflag haccepts
    have hkey := h (adapter.canonicalName flag.1)
    rw [lookup_kwargs, lookup_kwargs, if_pos haccepts, if_pos haccepts,
      lookup_renamed_eq_lastFor, lookup_renamed_eq_lastFor] at hkey
    exact (lookup_flagsMoved_iff hflag).mp hkey
  · intro h key
    rw [lookup_kwargs, lookup_kwargs, lookup_renamed_eq_lastFor, lookup_renamed_eq_lastFor]
    split_ifs with haccepts
    · by_cases hflag : ∃ flag ∈ config.extra, adapter.canonicalName flag.1 = key
      · obtain ⟨flag, hmem, rfl⟩ := hflag
        exact (lookup_flagsMoved_iff hmem).mpr (h flag hmem haccepts)
      · rw [lastFor_flagsMoved_of_ne fun flag hmem heq => hflag ⟨flag, hmem, heq⟩]
    · rfl

theorem sameCall_toolkit_iff
    {Object : Type}
    {cls : Object}
    {kwargs kwargs' : PyDict} :
    SameCall (.toolkit cls kwargs) (.toolkit cls kwargs') ↔ SameArguments kwargs kwargs' := by
  constructor
  · rintro (_ | h)
    · exact fun _ => rfl
    · exact h
  · exact .toolkit

/--
Flags beside `init_args` take effect exactly if each that stands for a parameter of the class
repeats what `init_args` says of it.
-/
theorem flags_take_effect_iff
    (config : BuiltinToolConfig)
    (before : List (ToolCall H.Object)) :
    FlagsTakeEffect config before ↔ FlagsRepeat config before := by
  have hname : (flagsMoved config).name = config.name := rfl
  rw [FlagsTakeEffect, entries_build_singleton, entries_build_singleton, FlagsRepeat]
  cases hlookup : builtinRegistry.lookup config.name with
  | none =>
      rw [entries_builtin_of_unknown hlookup, entries_builtin_of_unknown (hname ▸ hlookup)]
      simp
  | some adapter =>
      rw [entries_builtin hlookup, entries_builtin (hname ▸ hlookup), List.forall₂_cons,
        and_iff_right (.same _)]
      cases hanswer : H.answer before (.resolveClass adapter.modulePath adapter.className) with
      | error error => simp [hanswer]
      | ok cls =>
          rw [List.forall₂_cons, and_iff_left .nil, sameCall_toolkit_iff,
            sameArguments_flagsMoved_iff]
          simp [hanswer]

/-- `stock_price` directly on the entry. -/
def directFlag : BuiltinToolConfig where
  name := "yfinance"
  initArgs := []
  extra := [("stock_price", .bool true)]
  name_ne := by decide
  nodup_initArgs := List.nodup_nil
  nodup_extra := List.nodup_singleton _

/-- A flag directly on the entry leaves the toolkit with its default. -/
theorem direct_flag_dropped :
    ¬ ∀ (H : ToolHost) (config : BuiltinToolConfig) (before : List (ToolCall H.Object)),
      FlagsTakeEffect config before := by
  intro hall
  have heffect := hall answeringHost directFlag []
  obtain ⟨-, hcalls⟩ := List.forall₂_cons.mp heffect
  obtain ⟨hcall, -⟩ := List.forall₂_cons.mp hcalls
  have hflag := sameCall_toolkit_iff.mp hcall "enable_stock_price"
  cases hflag

end ToolFactory
end YamlAgno

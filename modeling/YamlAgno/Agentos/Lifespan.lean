import YamlAgno.Library.ExitStack
import Mathlib.Data.List.Count

/-!
# The lifespan adapter

`LifespanAdapter` of `agentos/lifespan.py`.  Registration goes to three lists; `__aenter__`
pushes the handlers of two of them onto an exit stack and then awaits the startup callbacks
and the `start()` of every component; `__aexit__` unwinds the stack.

Three things do not come out as the module says.  The stack is filled before anything is
started, but nothing unwinds it when the startup raises, because Python calls `__aexit__`
only after `__aenter__` has returned (`stopsWhatStarted_iff`).  And the stops are pushed
before the shutdown callbacks, however the two were registered among each other
(`teardown_eq_reverse_iff`).  And of the exceptions that a teardown raises it is the last that
the caller gets, not the first (`teardown_raises_first_iff`).
-/

namespace YamlAgno

open ExitStack

/-- What the adapter awaits: a callback, or a method of a component. -/
inductive Awaitable (C F : Type) where
  | startup (callback : F)
  | start (component : C)
  | stop (component : C)
  | shutdown (callback : F)
deriving DecidableEq

/-- `LifespanAdapter`. -/
structure LifespanAdapter (C F : Type) where
  components : List C
  startupCallbacks : List F
  shutdownCallbacks : List F

/-- A call of one of the three registration methods. -/
inductive Registration (C F : Type) where
  | addComponent (component : C)
  | addStartup (callback : F)
  | addShutdown (callback : F)
deriving DecidableEq

namespace LifespanAdapter

variable {C F E : Type}

/-- `LifespanAdapter()`. -/
def empty : LifespanAdapter C F :=
  ⟨[], [], []⟩

/-- `add_component`, `add_startup` and `add_shutdown`. -/
def register (adapter : LifespanAdapter C F) : Registration C F → LifespanAdapter C F
  | .addComponent component =>
      { adapter with components := adapter.components ++ [component] }
  | .addStartup callback =>
      { adapter with startupCallbacks := adapter.startupCallbacks ++ [callback] }
  | .addShutdown callback =>
      { adapter with shutdownCallbacks := adapter.shutdownCallbacks ++ [callback] }

/-- The adapter after a sequence of registrations. -/
def ofRegistrations (registrations : List (Registration C F)) : LifespanAdapter C F :=
  registrations.foldl register empty

/-- The stack that `__aenter__` fills, top first. -/
def pushed (adapter : LifespanAdapter C F) : List (Awaitable C F) :=
  let stack := adapter.components.foldl (fun stack component => .stop component :: stack) []
  adapter.shutdownCallbacks.foldl (fun stack callback => .shutdown callback :: stack) stack

/-- `__aenter__`: what it awaits, and the stack that it leaves for `__aexit__`. -/
def aenter
    (adapter : LifespanAdapter C F)
    (outcome : Nat → Except E Unit) :
    Journal (Awaitable C F × Except E Unit) E (List (Awaitable C F)) := do
  runAll outcome 0 (adapter.startupCallbacks.map .startup)
  runAll outcome adapter.startupCallbacks.length (adapter.components.map .start)
  return adapter.pushed

/-- `__aexit__`, whose first handler is the `n`-th thing awaited. -/
def aexit
    (stack : List (Awaitable C F))
    (outcome : Nat → Except E Unit)
    (n : Nat) :
    Journal (Awaitable C F × Except E Unit) E Unit :=
  close outcome n (.ok ()) stack

/-- `async with adapter: ...` with a body that ends in `body`. -/
def asyncWith
    (adapter : LifespanAdapter C F)
    (outcome : Nat → Except E Unit)
    (body : Except E Unit) :
    Journal (Awaitable C F × Except E Unit) E Unit :=
  let entered := adapter.aenter outcome
  match entered.result with
  | .error error => ⟨entered.entries, .error error⟩
  | .ok stack =>
      let exited := aexit stack outcome entered.entries.length
      ⟨entered.entries ++ exited.entries,
        match exited.result with
        | .error error => .error error
        | .ok _ => body⟩

/-! ## A startup that fails -/

section Startup

variable {adapter : LifespanAdapter C F} {outcome : Nat → Except E Unit} {error : E}

/-- Everything that the startup awaits, in order. -/
def startupCalls (adapter : LifespanAdapter C F) : List (Awaitable C F) :=
  adapter.startupCallbacks.map .startup ++ adapter.components.map .start

theorem aenter_eq :
    adapter.aenter outcome =
      runAll outcome 0 adapter.startupCalls >>= fun _ => pure adapter.pushed := by
  rw [startupCalls, runAll_append, bind_assoc, List.length_map, Nat.zero_add]
  rfl

theorem runAll_of_aenter_error
    (hfail : (adapter.aenter outcome).result = .error error) :
    (runAll outcome 0 adapter.startupCalls).result = .error error := by
  rw [aenter_eq, Journal.result_bind] at hfail
  cases hresult : (runAll outcome 0 adapter.startupCalls).result with
  | ok value =>
      rw [hresult] at hfail
      cases hfail
  | error error' =>
      rw [hresult] at hfail
      cases hfail
      rfl

/-- When the startup raises, what it awaited is all that is ever awaited. -/
theorem asyncWith_of_aenter_error
    (hfail : (adapter.aenter outcome).result = .error error)
    (body : Except E Unit) :
    asyncWith adapter outcome body =
      ⟨(runAll outcome 0 adapter.startupCalls).entries, .error error⟩ := by
  have hentries : (adapter.aenter outcome).entries =
      (runAll outcome 0 adapter.startupCalls).entries := by
    rw [aenter_eq, Journal.entries_bind_of_error (runAll_of_aenter_error hfail)]
  simp only [asyncWith, hfail, hentries]

/-- The `i`-th call of a startup is a `start()` only after the callbacks. -/
theorem length_le_of_start
    {i : Nat} {component : C}
    (h : adapter.startupCalls[i]? = some (.start component)) :
    adapter.startupCallbacks.length ≤ i := by
  by_contra hlt
  rw [startupCalls, List.getElem?_append_left (by rw [List.length_map]; omega),
    List.getElem?_map, Option.map_eq_some_iff] at h
  obtain ⟨callback, -, hcallback⟩ := h
  cases hcallback

/-- No handler is among what a startup awaits. -/
theorem stop_notMem_startupCalls (component : C) :
    Awaitable.stop component ∉ adapter.startupCalls := by
  simp [startupCalls]

/-- Every component that was started was stopped once. -/
def StopsWhatStarted [DecidableEq C] [DecidableEq F]
    (entries : List (Awaitable C F × Except E Unit)) :
    Prop :=
  ∀ component, (.start component, .ok ()) ∈ entries →
    (entries.map Prod.fst).count (.stop component) = 1

/--
A startup that raises leaves nothing running exactly when one of the startup callbacks or
the first `start()` raised: otherwise the first component has been started, and nothing
stops it.
-/
theorem stopsWhatStarted_iff [DecidableEq C] [DecidableEq F]
    (hfail : (adapter.aenter outcome).result = .error error)
    (body : Except E Unit) :
    (asyncWith adapter outcome body).result = .error error ∧
      (StopsWhatStarted (asyncWith adapter outcome body).entries ↔
        ∃ n ≤ adapter.startupCallbacks.length, ∃ raised, outcome n = .error raised) := by
  rw [asyncWith_of_aenter_error hfail]
  refine ⟨rfl, ⟨fun hstops => ?_, ?_⟩⟩
  · obtain ⟨i, hi, hraised⟩ := exists_of_runAll_error (runAll_of_aenter_error hfail)
    rw [Nat.zero_add] at hraised
    by_contra hnone
    push Not at hnone
    have hok : ∀ j ≤ adapter.startupCallbacks.length, outcome j = .ok () := by
      intro j hj
      cases hj' : outcome j with
      | ok value => rfl
      | error raised => exact absurd hj' (hnone j hj raised)
    -- The call that raised comes after the first component.
    have hlater : adapter.startupCallbacks.length < i := by
      by_contra hle
      cases (hok i (by omega)).symm.trans hraised
    obtain ⟨first, rest, hcomponents⟩ :
        ∃ first rest, adapter.components = first :: rest := by
      cases hcomponents : adapter.components with
      | cons first rest => exact ⟨first, rest, rfl⟩
      | nil =>
          rw [startupCalls, hcomponents, List.map_nil, List.append_nil, List.length_map] at hi
          omega
    have hfirst : adapter.startupCalls[adapter.startupCallbacks.length]? = some (.start first) := by
      rw [startupCalls, List.getElem?_append_right (Nat.le_of_eq (List.length_map _)),
        List.length_map, Nat.sub_self, hcomponents]
      rfl
    have hstarted : (Awaitable.start first, Except.ok ()) ∈
        (runAll outcome 0 adapter.startupCalls).entries :=
      mem_runAll_ok_iff.mpr ⟨_, hfirst, fun j hj => by rw [Nat.zero_add]; exact hok j hj⟩
    have hstopped : Awaitable.stop first ∈
        ((runAll outcome 0 adapter.startupCalls).entries).map Prod.fst :=
      List.count_pos_iff.mp (by rw [hstops first hstarted]; exact Nat.one_pos)
    obtain ⟨entry, hentry, hstop⟩ := List.mem_map.mp hstopped
    have hcall := mem_of_mem_runAll hentry
    rw [hstop] at hcall
    exact stop_notMem_startupCalls first hcall
  · rintro ⟨n, hn, raised, hraised⟩ component hstarted
    obtain ⟨i, hi, hok⟩ := mem_runAll_ok_iff.mp hstarted
    have hle := length_le_of_start hi
    have hnok := hok n (by omega)
    rw [Nat.zero_add, hraised] at hnok
    cases hnok

end Startup

/-- The second of two components fails to start. -/
def mcpAndScheduler : LifespanAdapter String String :=
  ⟨["mcp", "scheduler"], ["init_logging"], []⟩

theorem stopsWhatStarted_initLogging :
    StopsWhatStarted
      (asyncWith mcpAndScheduler (fun _ => .error "no config") (.ok ())).entries := by
  have hfail : (mcpAndScheduler.aenter fun _ => .error "no config").result =
      .error "no config" := rfl
  exact (stopsWhatStarted_iff hfail (.ok ())).2.mpr ⟨0, Nat.zero_le _, _, rfl⟩

/-- The scheduler does not start; the MCP server has been started and is never stopped. -/
theorem not_stopsWhatStarted_scheduler :
    let outcome := fun n => if n = 2 then .error "scheduler crash" else .ok ()
    (asyncWith mcpAndScheduler outcome (.ok ())).result = .error "scheduler crash" ∧
      (asyncWith mcpAndScheduler outcome (.ok ())).entries =
        [(.startup "init_logging", .ok ()), (.start "mcp", .ok ()),
          (.start "scheduler", .error "scheduler crash")] ∧
      ¬ StopsWhatStarted (asyncWith mcpAndScheduler outcome (.ok ())).entries := by
  intro outcome
  refine ⟨rfl, rfl, fun h => ?_⟩
  have hcount := h "mcp" (List.mem_cons_of_mem _ List.mem_cons_self)
  revert hcount
  decide

/-! ## The order of the teardown -/

section Teardown

variable {outcome : Nat → Except E Unit} {stack : List (Awaitable C F)}

/-- The handler that a registration asks for. -/
def handlerOf : Registration C F → Option (Awaitable C F)
  | .addComponent component => some (.stop component)
  | .addStartup _ => none
  | .addShutdown callback => some (.shutdown callback)

/-- The handlers in the order in which they were registered. -/
def handlers (registrations : List (Registration C F)) : List (Awaitable C F) :=
  registrations.filterMap handlerOf

/-- Whether a handler is the `stop()` of a component. -/
def isStop : Awaitable C F → Bool
  | .stop _ => true
  | _ => false

theorem foldl_push
    {X H : Type} (f : X → H) (xs : List X) (stack : List H) :
    xs.foldl (fun stack x => f x :: stack) stack = (xs.map f).reverse ++ stack := by
  induction xs generalizing stack with
  | nil =>
      rfl
  | cons x xs ih =>
      rw [List.foldl_cons, ih, List.map_cons, List.reverse_cons, List.append_assoc,
        List.singleton_append]

/-- The stack undoes the shutdown callbacks, and then the components. -/
theorem pushed_eq (adapter : LifespanAdapter C F) :
    adapter.pushed =
      (adapter.components.map Awaitable.stop ++
        adapter.shutdownCallbacks.map Awaitable.shutdown).reverse := by
  rw [pushed, foldl_push, foldl_push, List.append_nil, List.reverse_append]

/-- Registration sorts the handlers into two lists and keeps the order within each. -/
theorem foldl_register
    (adapter : LifespanAdapter C F)
    (registrations : List (Registration C F)) :
    (registrations.foldl register adapter).components.map .stop =
        adapter.components.map .stop ++ (handlers registrations).filter isStop ∧
      (registrations.foldl register adapter).shutdownCallbacks.map .shutdown =
        adapter.shutdownCallbacks.map .shutdown ++
          (handlers registrations).filter (fun handler => !isStop handler) := by
  induction registrations generalizing adapter with
  | nil =>
      simp [handlers]
  | cons registration registrations ih =>
      rw [List.foldl_cons]
      obtain ⟨hstops, hcallbacks⟩ := ih (adapter.register registration)
      rw [hstops, hcallbacks]
      cases registration with
      | addComponent component =>
          have hcons : handlers (.addComponent component :: registrations) =
              .stop component :: handlers registrations := rfl
          simp [hcons, register, isStop, List.filter_cons]
      | addStartup callback =>
          exact ⟨rfl, rfl⟩
      | addShutdown callback =>
          have hcons : handlers (.addShutdown callback :: registrations) =
              .shutdown callback :: handlers registrations := rfl
          simp [hcons, register, isStop]

theorem pushed_ofRegistrations (registrations : List (Registration C F)) :
    (ofRegistrations registrations).pushed =
      ((handlers registrations).filter isStop ++
        (handlers registrations).filter (fun handler => !isStop handler)).reverse := by
  obtain ⟨hstops, hcallbacks⟩ := foldl_register (C := C) (F := F) empty registrations
  rw [pushed_eq, ofRegistrations, hstops, hcallbacks]
  simp [empty]

/-- A startup that returns has made all its calls, and leaves the stack it has filled. -/
theorem aenter_of_ok
    {adapter : LifespanAdapter C F}
    (hstarted : (adapter.aenter outcome).result = .ok stack) :
    (adapter.aenter outcome).entries.map Prod.fst = adapter.startupCalls ∧
      stack = adapter.pushed := by
  rw [aenter_eq] at hstarted ⊢
  rw [Journal.result_bind] at hstarted
  cases hresult : (runAll outcome 0 adapter.startupCalls).result with
  | error error =>
      rw [hresult] at hstarted
      cases hstarted
  | ok value =>
      rw [hresult] at hstarted
      cases hstarted
      rw [Journal.entries_bind_of_ok hresult, Journal.entries_pure, List.append_nil]
      exact ⟨entries_runAll_of_ok hresult, rfl⟩

/-- After the startup, each handler on the stack runs once, whatever the others raise. -/
theorem asyncWith_of_aenter_ok
    {adapter : LifespanAdapter C F}
    (hstarted : (adapter.aenter outcome).result = .ok stack)
    (body : Except E Unit) :
    (asyncWith adapter outcome body).entries.map Prod.fst =
      adapter.startupCalls ++ adapter.pushed := by
  obtain ⟨hcalls, rfl⟩ := aenter_of_ok hstarted
  simp only [asyncWith, hstarted, List.map_append, hcalls, aexit, entries_close]

/-- Every handler that was registered runs once in the teardown. -/
theorem teardown_perm (registrations : List (Registration C F)) :
    (ofRegistrations registrations).pushed.Perm (handlers registrations) := by
  rw [pushed_ofRegistrations]
  exact (List.reverse_perm _).trans (List.filter_append_perm isStop _)

/-- No shutdown callback was registered before a component. -/
def ComponentsFirst (registrations : List (Registration C F)) : Prop :=
  registrations.Pairwise fun earlier later =>
    ∀ callback component, earlier = .addShutdown callback → later ≠ .addComponent component

theorem componentsFirst_iff (registrations : List (Registration C F)) :
    ComponentsFirst registrations ↔
      (handlers registrations).Pairwise
        (fun earlier later => isStop later = true → isStop earlier = true) := by
  rw [handlers, List.pairwise_filterMap, ComponentsFirst]
  refine List.Pairwise.iff (fun {earlier later} => ?_)
  constructor
  · intro h handler hhandler handler' hhandler' hstop
    cases earlier with
    | addComponent component =>
        cases hhandler
        rfl
    | addStartup callback =>
        cases hhandler
    | addShutdown callback =>
        cases later with
        | addComponent component => exact absurd rfl (h callback component rfl)
        | addStartup callback' => cases hhandler'
        | addShutdown callback' =>
            cases hhandler'
            cases hstop
  · rintro h callback component rfl rfl
    cases h _ rfl _ rfl rfl

instance decidableComponentsFirst
    (registrations : List (Registration C F)) :
    Decidable (ComponentsFirst registrations) :=
  decidable_of_iff _ (componentsFirst_iff registrations).symm

/--
After a startup that returns, the teardown is the reverse of the registration of components
and shutdown callbacks exactly when every component was registered before every callback.
-/
theorem teardown_eq_reverse_iff
    (registrations : List (Registration C F))
    (hstarted : ((ofRegistrations registrations).aenter outcome).result = .ok stack)
    (body : Except E Unit) :
    (asyncWith (ofRegistrations registrations) outcome body).entries.map Prod.fst =
        (ofRegistrations registrations).startupCalls ++ (handlers registrations).reverse ↔
      ComponentsFirst registrations := by
  rw [asyncWith_of_aenter_ok hstarted, List.append_cancel_left_eq, pushed_ofRegistrations,
    List.reverse_inj, filter_append_filter_eq_iff, componentsFirst_iff]

/-- The order in which the module's example registers. -/
def usage : List (Registration String String) :=
  [.addComponent "mcp_lifecycle", .addComponent "scheduler", .addStartup "init_logging",
    .addShutdown "flush_metrics"]

theorem teardown_usage :
    (asyncWith (E := String) (ofRegistrations usage) (fun _ => .ok ())
        (.ok ())).entries.map Prod.fst =
      [.startup "init_logging", .start "mcp_lifecycle", .start "scheduler",
        .shutdown "flush_metrics", .stop "scheduler", .stop "mcp_lifecycle"] := by
  have hstarted : ((ofRegistrations usage).aenter (E := String) fun _ => .ok ()).result =
      .ok (ofRegistrations usage).pushed := rfl
  exact (teardown_eq_reverse_iff usage hstarted (.ok ())).mpr (by decide)

/-- A callback registered before the component runs before the component is stopped. -/
theorem teardown_flushFirst :
    let registrations : List (Registration String String) :=
      [.addShutdown "close_pool", .addComponent "scheduler"]
    (asyncWith (E := String) (ofRegistrations registrations) (fun _ => .ok ())
          (.ok ())).entries.map Prod.fst =
        [.start "scheduler", .shutdown "close_pool", .stop "scheduler"] ∧
      (handlers registrations).reverse = [.stop "scheduler", .shutdown "close_pool"] :=
  ⟨rfl, rfl⟩

/-! ## What a teardown raises -/

/-- What the handlers of the teardown raise, in the order in which they run. -/
def raisedInTeardown (adapter : LifespanAdapter C F) (outcome : Nat → Except E Unit) : List E :=
  raisedBy outcome adapter.startupCalls.length adapter.pushed.length

/-- After the startup, the caller gets what the teardown raised last, if it raised anything. -/
theorem result_asyncWith_of_aenter_ok
    {adapter : LifespanAdapter C F}
    (hstarted : (adapter.aenter outcome).result = .ok stack)
    (body : Except E Unit) :
    (asyncWith adapter outcome body).result =
      match (raisedInTeardown adapter outcome).getLast? with
      | none => body
      | some error => .error error := by
  obtain ⟨hcalls, rfl⟩ := aenter_of_ok hstarted
  have hlength : (adapter.aenter outcome).entries.length = adapter.startupCalls.length := by
    rw [← hcalls, List.length_map]
  simp only [asyncWith, hstarted, aexit, result_close, hlength, raisedInTeardown]
  cases (raisedBy outcome adapter.startupCalls.length adapter.pushed.length).getLast? <;> rfl

/--
After a startup that returns, each `stop()` and each shutdown callback runs once, in the order
of the stack, and the caller gets the first exception that they raise exactly when the last one
that they raise is the same.
-/
theorem teardown_raises_first_iff
    {adapter : LifespanAdapter C F}
    (hstarted : (adapter.aenter outcome).result = .ok stack)
    (body : Except E Unit) :
    (asyncWith adapter outcome body).entries.map Prod.fst =
        adapter.startupCalls ++ (adapter.components.map Awaitable.stop ++
          adapter.shutdownCallbacks.map Awaitable.shutdown).reverse ∧
      ((∀ first, (raisedInTeardown adapter outcome).head? = some first →
          (asyncWith adapter outcome body).result = .error first) ↔
        (raisedInTeardown adapter outcome).head? =
          (raisedInTeardown adapter outcome).getLast?) := by
  rw [asyncWith_of_aenter_ok hstarted, pushed_eq, result_asyncWith_of_aenter_ok hstarted]
  refine ⟨rfl, ?_⟩
  cases hraised : raisedInTeardown adapter outcome with
  | nil =>
      simp
  | cons first rest =>
      have hlast : (first :: rest).getLast? = some (rest.getLast?.getD first) :=
        List.getLast?_cons
      simp only [hlast, List.head?_cons, Option.some.injEq, Except.error.injEq]
      constructor
      · intro h
        exact (h first rfl).symm
      · rintro h _ rfl
        exact h.symm

end Teardown

/-- Of two components, the one stopped last fails to stop. -/
def twoComponents : LifespanAdapter String String :=
  ⟨["mcp", "scheduler"], [], []⟩

theorem teardown_raises_first_scheduler :
    (asyncWith twoComponents
        (fun n => if n = 2 then .error "scheduler crash" else .ok ()) (.ok ())).result =
      .error "scheduler crash" := by
  have hstarted : (twoComponents.aenter
      fun n => if n = 2 then .error "scheduler crash" else .ok ()).result =
      .ok twoComponents.pushed := rfl
  exact (teardown_raises_first_iff hstarted (.ok ())).2.mpr rfl "scheduler crash" rfl

/-- Both components fail to stop; the caller gets what the second `stop()` to run raises. -/
theorem teardown_raises_last :
    let outcome := fun n =>
      if n = 2 then .error "scheduler crash" else if n = 3 then .error "mcp crash" else .ok ()
    (twoComponents.aenter outcome).result = .ok twoComponents.pushed ∧
      (raisedInTeardown twoComponents outcome).head? = some "scheduler crash" ∧
      (asyncWith twoComponents outcome (.ok ())).result = .error "mcp crash" :=
  ⟨rfl, rfl, rfl⟩

end LifespanAdapter
end YamlAgno

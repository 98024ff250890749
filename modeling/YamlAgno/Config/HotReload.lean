import YamlAgno.Config.Bootstrap
import YamlAgno.Library.Runs

/-!
# The hot-reload coordinator

`HotReloadCoordinator` of `config/hotreload.py`.  A background task sleeps, reloads the
configuration, refreshes the flags and starts again.  The model follows the task from one
`await` to the next, so `start()` and `stop()` may come while a reload is under way.

The diagram in the module leaves `Running` by `stop()` only.  The loop does not catch what
`reload_now` raises, and `_task` still refers to the task that this has ended:
`start()` then returns at once, and `stop()` raises the error again when it awaits the task.
`survives_throughout_iff` says that this is all that can go wrong: the diagram is right
about a run exactly when no reload of the loop raises in it.
-/

namespace YamlAgno

open Runs

/-- What `reload_now` raises. -/
inductive ReloadError (X V Y : Type) where
  | config (error : ConfigError X V)
  | flags (error : Y)
deriving DecidableEq

/-- Where `_run` is suspended: in its sleep or in one of the two awaits of `reload_now`. -/
inductive AwaitPoint where
  | sleep
  | configReload
  | flagsRefresh
deriving DecidableEq

/-- The task of `_run`: suspended at an `await`, or ended by an exception. -/
inductive LoopTask (E : Type) where
  | suspended (point : AwaitPoint)
  | ended (error : E)
deriving DecidableEq

/-- The configuration that the coordinator reloads, and `_task`. -/
structure HotReloadCoordinator (σ E : Type) where
  config : ConfigAdapter σ
  task : Option (LoopTask E)

namespace HotReloadCoordinator

variable {Env X V Y σ : Type} (modelValidate : Env → PyDict → Except V σ)
  (isCancelledError : ReloadError X V Y → Bool)

/-- `reload_now`: how it ends, and the configuration after it. -/
def reloadNow
    (config : ConfigAdapter σ)
    (call : CoreCall Env X)
    (refresh : Except Y Unit) :
    Except (ReloadError X V Y) Unit × ConfigAdapter σ :=
  match config.reload modelValidate call with
  | (.error error, config) => (.error (.config error), config)
  | (.ok _, config) => (refresh.mapError .flags, config)

/-- `start`. -/
def start
    (coordinator : HotReloadCoordinator σ (ReloadError X V Y)) :
    HotReloadCoordinator σ (ReloadError X V Y) :=
  match coordinator.task with
  | some _ => coordinator
  | none => { coordinator with task := some (.suspended .sleep) }

/-- `stop`: how it ends, and the coordinator after it. -/
def stop
    (coordinator : HotReloadCoordinator σ (ReloadError X V Y)) :
    Except (ReloadError X V Y) Unit × HotReloadCoordinator σ (ReloadError X V Y) :=
  match coordinator.task with
  | none => (.ok (), coordinator)
  | some (.suspended _) =>
      -- The cancellation reaches the await, and `await task` raises what is suppressed.
      (.ok (), { coordinator with task := none })
  | some (.ended error) =>
      -- Nothing is left to cancel: `await task` raises what the task ended with.
      (if isCancelledError error then .ok () else .error error, { coordinator with task := none })

/-- The sleep of `_run` is over, and `reload_now` awaits `config.reload()`. -/
def intervalElapsed
    (coordinator : HotReloadCoordinator σ (ReloadError X V Y)) :
    Option (HotReloadCoordinator σ (ReloadError X V Y)) :=
  match coordinator.task with
  | some (.suspended .sleep) => some { coordinator with task := some (.suspended .configReload) }
  | _ => none

/-- `config.reload()` returns or raises. -/
def configReloaded
    (coordinator : HotReloadCoordinator σ (ReloadError X V Y))
    (call : CoreCall Env X) :
    Option (HotReloadCoordinator σ (ReloadError X V Y)) :=
  match coordinator.task with
  | some (.suspended .configReload) =>
      match coordinator.config.reload modelValidate call with
      | (.error error, config) => some ⟨config, some (.ended (.config error))⟩
      | (.ok _, config) => some ⟨config, some (.suspended .flagsRefresh)⟩
  | _ => none

/-- `flags.refresh()` returns or raises. -/
def flagsRefreshed
    (coordinator : HotReloadCoordinator σ (ReloadError X V Y))
    (refresh : Except Y Unit) :
    Option (HotReloadCoordinator σ (ReloadError X V Y)) :=
  match coordinator.task with
  | some (.suspended .flagsRefresh) =>
      match refresh with
      | .error error => some { coordinator with task := some (.ended (.flags error)) }
      | .ok _ => some { coordinator with task := some (.suspended .sleep) }
  | _ => none

/-- What happens to a coordinator. -/
inductive Event (Env X Y : Type) where
  | start
  | stop
  | intervalElapsed
  | configReloaded (call : CoreCall Env X)
  | flagsRefreshed (refresh : Except Y Unit)

/-- The events in which the loop itself goes on. -/
def Event.ofLoop : Event Env X Y → Bool
  | .start | .stop => false
  | .intervalElapsed | .configReloaded _ | .flagsRefreshed _ => true

/-- A coordinator, and whether `start()` was called after the last `stop()`. -/
structure Session (σ E : Type) where
  coordinator : HotReloadCoordinator σ E
  started : Bool

/-- One event; `none` where the loop is not at the await that the event is about. -/
def step
    (session : Session σ (ReloadError X V Y)) :
    Event Env X Y → Option (Session σ (ReloadError X V Y))
  | .start => some ⟨session.coordinator.start, true⟩
  | .stop => some ⟨(session.coordinator.stop isCancelledError).2, false⟩
  | .intervalElapsed =>
      session.coordinator.intervalElapsed.map fun coordinator => { session with coordinator }
  | .configReloaded call =>
      (session.coordinator.configReloaded modelValidate call).map
        fun coordinator => { session with coordinator }
  | .flagsRefreshed refresh =>
      (session.coordinator.flagsRefreshed refresh).map
        fun coordinator => { session with coordinator }

/-- `HotReloadCoordinator(config, flags)`. -/
def fresh (config : ConfigAdapter σ) : Session σ (ReloadError X V Y) :=
  ⟨⟨config, none⟩, false⟩

/-- The loop gets to its next `config.reload()` by its own events. -/
def AttemptsReload (session : Session σ (ReloadError X V Y)) : Prop :=
  ∃ (events : List (Event Env X Y)) (session' : Session σ (ReloadError X V Y)),
    (∀ event ∈ events, event.ofLoop = true) ∧
      run (step modelValidate isCancelledError) session events = some session' ∧
      session'.coordinator.task = some (.suspended .configReload)

/-- What the diagram promises of a coordinator. -/
structure Survives (session : Session σ (ReloadError X V Y)) : Prop where
  attempts_of_started :
    session.started = true →
      AttemptsReload modelValidate isCancelledError session
  keeps_config_of_error :
    ∀ (call : CoreCall Env X) session',
      (∃ error, ConfigAdapter.version modelValidate call = .error error) →
        step modelValidate isCancelledError session (.configReloaded call) = some session' →
          session'.coordinator.config = session.coordinator.config
  stop_returns :
    session.coordinator.stop isCancelledError =
      (.ok (), { session.coordinator with task := none })

/-- The core reloads and its values validate; the flags are refreshed. -/
def ReloadSucceeds (_ : Session σ (ReloadError X V Y)) : Event Env X Y → Prop
  | .configReloaded call => ∃ config, ConfigAdapter.version modelValidate call = .ok config
  | .flagsRefreshed refresh => refresh = .ok ()
  | _ => True

/-! ## The events of the loop -/

section Loop

variable {modelValidate isCancelledError}
  {coordinator : HotReloadCoordinator σ (ReloadError X V Y)}
  {session session' : Session σ (ReloadError X V Y)}

/-- A reload of the loop replaces the configuration by a validated one, or ends the loop. -/
theorem configReloaded_eq
    (htask : coordinator.task = some (.suspended .configReload))
    (call : CoreCall Env X) :
    coordinator.configReloaded modelValidate call =
      match ConfigAdapter.version modelValidate call with
      | .error error => some ⟨coordinator.config, some (.ended (.config error))⟩
      | .ok config => some ⟨config, some (.suspended .flagsRefresh)⟩ := by
  rw [configReloaded, htask, ConfigAdapter.reload_eq]
  cases ConfigAdapter.version modelValidate call <;> rfl

/-- An interval of the loop is one `reload_now`, and what it raises ends the task. -/
theorem run_interval
    (config : ConfigAdapter σ) (started : Bool)
    (call : CoreCall Env X)
    (refresh : Except Y Unit) :
    run (step modelValidate isCancelledError) ⟨⟨config, some (.suspended .sleep)⟩, started⟩
        (.intervalElapsed :: .configReloaded call ::
          if (config.reload modelValidate call).1.isOk then [.flagsRefreshed refresh] else []) =
      some ⟨⟨(reloadNow modelValidate config call refresh).2,
        some (match (reloadNow modelValidate config call refresh).1 with
          | .error error => .ended error
          | .ok _ => .suspended .sleep)⟩, started⟩ := by
  have hreload : ∀ ended, config.reload modelValidate call = ended →
      (⟨config, some (.suspended .configReload)⟩ :
        HotReloadCoordinator σ (ReloadError X V Y)).configReloaded modelValidate call =
        match ended with
        | (.error error, config) => some ⟨config, some (.ended (.config error))⟩
        | (.ok _, config) => some ⟨config, some (.suspended .flagsRefresh)⟩ := by
    rintro ended rfl
    rfl
  rcases hended : config.reload modelValidate call with ⟨error | _, config'⟩
  · simp [run, step, intervalElapsed, hreload _ hended, reloadNow, hended, Except.isOk,
      Except.toBool]
  · cases refresh <;>
      simp [run, step, intervalElapsed, hreload _ hended, reloadNow, hended, Except.isOk,
        Except.toBool, flagsRefreshed, Except.mapError]

/-- The loop goes on from an `await` only. -/
theorem suspended_of_step
    {event : Event Env X Y}
    (hloop : event.ofLoop = true)
    (hstep : step modelValidate isCancelledError session event = some session') :
    ∃ point, session.coordinator.task = some (.suspended point) := by
  cases event with
  | start | stop =>
      cases hloop
  | intervalElapsed =>
      obtain ⟨_, hsome, -⟩ := Option.map_eq_some_iff.mp hstep
      unfold intervalElapsed at hsome
      split at hsome
      · exact ⟨_, ‹_›⟩
      · cases hsome
  | configReloaded call =>
      obtain ⟨_, hsome, -⟩ := Option.map_eq_some_iff.mp hstep
      unfold configReloaded at hsome
      split at hsome
      · exact ⟨_, ‹_›⟩
      · cases hsome
  | flagsRefreshed refresh =>
      obtain ⟨_, hsome, -⟩ := Option.map_eq_some_iff.mp hstep
      unfold flagsRefreshed at hsome
      split at hsome
      · exact ⟨_, ‹_›⟩
      · cases hsome

/-- The next reload is attempted exactly when the task is suspended in the loop. -/
theorem attemptsReload_iff :
    AttemptsReload modelValidate isCancelledError session ↔
      ∃ point, session.coordinator.task = some (.suspended point) := by
  constructor
  · rintro ⟨events, session', hloop, hrun, htask⟩
    cases events with
    | nil =>
        cases hrun
        exact ⟨_, htask⟩
    | cons event events =>
        obtain ⟨_, hstep, -⟩ := (run_cons_eq_some _).mp hrun
        exact suspended_of_step (hloop event List.mem_cons_self) hstep
  · rintro ⟨point, htask⟩
    obtain ⟨⟨config, task⟩, started⟩ := session
    cases htask
    cases point with
    | sleep =>
        exact ⟨[.intervalElapsed], _, by simp [Event.ofLoop], rfl, rfl⟩
    | configReload =>
        exact ⟨[], _, by simp, rfl, rfl⟩
    | flagsRefresh =>
        exact ⟨[.flagsRefreshed (.ok ()), .intervalElapsed], _, by simp [Event.ofLoop], rfl, rfl⟩

end Loop

/-! ## Runs -/

section Runs

variable {modelValidate isCancelledError}
  {session session' : Session σ (ReloadError X V Y)}

/-- The two states of the diagram: the task is suspended in its loop, or there is none. -/
inductive InDiagram : Session σ (ReloadError X V Y) → Prop
  | running (config : ConfigAdapter σ) (point : AwaitPoint) :
      InDiagram ⟨⟨config, some (.suspended point)⟩, true⟩
  | stopped (config : ConfigAdapter σ) :
      InDiagram ⟨⟨config, none⟩, false⟩

theorem survives_of_inDiagram
    (h : InDiagram session) :
    Survives modelValidate isCancelledError session where
  attempts_of_started hstarted := by
    cases h with
    | running config point => exact attemptsReload_iff.mpr ⟨point, rfl⟩
    | stopped config => cases hstarted
  keeps_config_of_error := by
    rintro call session' ⟨error, herror⟩ hstep
    obtain ⟨coordinator, hsome, rfl⟩ := Option.map_eq_some_iff.mp hstep
    obtain ⟨point, htask⟩ := suspended_of_step rfl hstep
    cases h with
    | stopped config => cases htask
    | running config point' =>
        cases point' with
        | sleep | flagsRefresh => cases hsome
        | configReload =>
            rw [configReloaded_eq rfl, herror] at hsome
            cases hsome
            rfl
  stop_returns := by
    cases h <;> rfl

/-- A step whose reload succeeds is one of the diagram. -/
theorem inDiagram_of_step
    {event : Event Env X Y}
    (h : InDiagram session)
    (hok : ReloadSucceeds modelValidate session event)
    (hstep : step modelValidate isCancelledError session event = some session') :
    InDiagram session' := by
  cases h with
  | stopped config =>
      cases event with
      | start =>
          cases hstep
          exact .running config .sleep
      | stop =>
          cases hstep
          exact .stopped config
      | intervalElapsed | configReloaded call | flagsRefreshed refresh =>
          cases hstep
  | running config point =>
      cases event with
      | start =>
          cases hstep
          exact .running config point
      | stop =>
          cases hstep
          exact .stopped config
      | intervalElapsed =>
          cases point with
          | sleep =>
              cases hstep
              exact .running config .configReload
          | configReload | flagsRefresh => cases hstep
      | configReloaded call =>
          cases point with
          | sleep | flagsRefresh => cases hstep
          | configReload =>
              obtain ⟨config', hversion⟩ := hok
              rw [step, configReloaded_eq rfl, hversion] at hstep
              cases hstep
              exact .running config' .flagsRefresh
      | flagsRefreshed refresh =>
          cases point with
          | sleep | configReload => cases hstep
          | flagsRefresh =>
              cases hok
              cases hstep
              exact .running config .sleep

/-- A reload that fails ends the loop of a started coordinator. -/
theorem not_survives_of_step
    {event : Event Env X Y}
    (h : InDiagram session)
    (hfail : ¬ ReloadSucceeds modelValidate session event)
    (hstep : step modelValidate isCancelledError session event = some session') :
    ¬ Survives modelValidate isCancelledError session' := by
  intro hsurvives
  have hended : session'.started = true ∧
      ∃ error, session'.coordinator.task = some (.ended error) := by
    cases event with
    | start | stop | intervalElapsed =>
        exact absurd trivial hfail
    | configReloaded call =>
        obtain ⟨point, htask⟩ := suspended_of_step rfl hstep
        cases h with
        | stopped config => cases htask
        | running config point' =>
            cases point' with
            | sleep | flagsRefresh => cases hstep
            | configReload =>
                rw [step, configReloaded_eq rfl] at hstep
                cases hversion : ConfigAdapter.version modelValidate call with
                | ok config' => exact absurd ⟨config', hversion⟩ hfail
                | error error =>
                    rw [hversion] at hstep
                    cases hstep
                    exact ⟨rfl, _, rfl⟩
    | flagsRefreshed refresh =>
        cases h with
        | stopped config => cases hstep
        | running config point =>
            cases point with
            | sleep | configReload => cases hstep
            | flagsRefresh =>
                cases refresh with
                | ok _ => exact absurd rfl hfail
                | error error =>
                    cases hstep
                    exact ⟨rfl, _, rfl⟩
  obtain ⟨hstarted, error, htask⟩ := hended
  obtain ⟨point, hpoint⟩ := attemptsReload_iff.mp (hsurvives.attempts_of_started hstarted)
  cases htask.symm.trans hpoint

/--
In a run of a coordinator the loop is alive whenever `start()` was called last, and
`stop()` always returns, exactly when every reload that the loop attempts succeeds.
-/
theorem survives_throughout_iff
    (config : ConfigAdapter σ)
    {events : List (Event Env X Y)}
    (hrun : run (step modelValidate isCancelledError) (fresh config) events = some session) :
    Throughout (step modelValidate isCancelledError)
        (Survives modelValidate isCancelledError) (fresh config) events ↔
      Along (step modelValidate isCancelledError) (ReloadSucceeds modelValidate)
        (fresh config) events :=
  throughout_iff_along (fun _ => survives_of_inDiagram)
    (fun _ _ _ h hok hstep => inDiagram_of_step h hok hstep)
    (fun _ _ _ h hfail hstep => not_survives_of_step h hfail hstep)
    (InDiagram.stopped config) hrun

end Runs

/-- A configuration in service. -/
def devConfig : ConfigAdapter (YamlAgnoSettings plainCoercions) :=
  ⟨devSections "http://localhost:4317/" [], devSettings "http://localhost:4317/" false⟩

/-- The file is saved with the given entries in its `flags` section. -/
def saved (flags : PyDict) : CoreCall Unit String :=
  ConfigAdapter.coreOf (.ok ()) (devSections "http://localhost:4317/" flags)

/-- An interval with a reload, and `stop()`. -/
def oneInterval : List (Event Unit String Unit) :=
  [.start, .intervalElapsed, .configReloaded (saved []), .flagsRefreshed (.ok ()), .stop]

theorem survives_throughout_oneInterval :
    Throughout (step ConfigAdapter.plainValidate fun _ => false)
      (Survives ConfigAdapter.plainValidate fun _ => false) (fresh devConfig) oneInterval := by
  have hvalid : ConfigAdapter.version ConfigAdapter.plainValidate (saved []) = .ok devConfig := rfl
  have hrun : run (step ConfigAdapter.plainValidate fun _ => false) (fresh devConfig) oneInterval =
      some (fresh devConfig) := rfl
  refine (survives_throughout_iff devConfig hrun).mpr ?_
  refine ⟨trivial, fun s₁ h₁ => ⟨trivial, fun s₂ h₂ => ⟨⟨devConfig, hvalid⟩, fun s₃ h₃ => ?_⟩⟩⟩
  exact ⟨rfl, fun s₄ h₄ => ⟨trivial, fun s₅ h₅ => trivial⟩⟩

/-- A key that the schema does not know is saved; `start()` is called again later. -/
def badSave : List (Event Unit String Unit) :=
  [.start, .intervalElapsed, .configReloaded (saved [("typo", .bool true)]), .start]

/-- Nothing reloads any more, and `stop()` raises the error of the bad save. -/
theorem not_survives_badSave :
    ∃ session,
      run (step ConfigAdapter.plainValidate fun _ => false) (fresh devConfig) badSave =
          some session ∧
        session.started = true ∧
        ¬ Survives ConfigAdapter.plainValidate (fun _ => false) session ∧
        (session.coordinator.stop fun _ => false).1 = .error (.config (.invalid ())) := by
  refine ⟨⟨⟨devConfig, some (.ended (.config (.invalid ())))⟩, true⟩, rfl, rfl, ?_, rfl⟩
  intro hsurvives
  obtain ⟨point, htask⟩ := attemptsReload_iff.mp (hsurvives.attempts_of_started rfl)
  cases htask

end HotReloadCoordinator
end YamlAgno

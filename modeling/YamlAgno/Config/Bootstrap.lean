import YamlAgno.Config.Schemas
import YamlAgno.Library.KeepLast

/-!
# The validated configuration facade

`YamlAgnoConfigAdapter` of `config/bootstrap.py`.  It copies six sections of the core
configuration, validates the copy, and serves two views of it: the raw snapshot behind
the key-based getters, and the typed settings.

A reload asks the core to reload and materializes again; `_materialize` replaces the
snapshot and `reload` the settings, each after everything before it has succeeded.
`reload_eq` says that the two together are one replacement of a version or none
(`Library.KeepLast`), and `versions_stay_coherent` what any history of reloads and
reads therefore sees.
-/

namespace YamlAgno

open Fallible KeepLast

/-- `ValidationError` of the core. -/
structure ValidationError where
  message : String
  details : List (String × String)
deriving DecidableEq

/-- What a getter of numbers raises; `OverflowError` is not among what it handles. -/
inductive GetNumberError where
  | validation (error : ValidationError)
  | overflow (error : PyNumber.OverflowError)
deriving DecidableEq

/-- The sections that are read from the core. -/
def SECTIONS : List String :=
  ["app", "runtime", "persistence", "observability", "security", "flags"]

/-- What the core manager answers to one call of the adapter, and the environment the
settings model reads then. -/
structure CoreCall (Env X : Type) where
  reload : Except X Unit
  getSection : String → Except X PyValue
  environment : Env

/-- What construction and `reload` raise: an exception of the core, or pydantic's. -/
inductive ConfigError (X V : Type) where
  | core (error : X)
  | invalid (error : V)
deriving DecidableEq

/-- The two attributes of an adapter that change: `_snapshot` and `_settings`. -/
structure ConfigAdapter (σ : Type) where
  snapshot : PyDict
  settings : σ

namespace ConfigAdapter

section Materialize

variable {Env X V σ : Type} (modelValidate : Env → PyDict → Except V σ)

/-- The dictionary of the sections, read in order. -/
def readSections (call : CoreCall Env X) : Except X PyDict :=
  SECTIONS.mapM fun name => do
    let value ← call.getSection name
    return (name, value)

/-- `_materialize`: the settings it returns or what it raises, and `_snapshot` after it. -/
def materialize
    (call : CoreCall Env X)
    (snapshot : PyDict) :
    Except (ConfigError X V) σ × PyDict :=
  match readSections call with
  | .error error => (.error (.core error), snapshot)
  | .ok sections =>
      match modelValidate call.environment sections with
      | .error error => (.error (.invalid error), snapshot)
      | .ok settings => (.ok settings, sections)

/-- `YamlAgnoConfigAdapter(core)`. -/
def construct (call : CoreCall Env X) : Except (ConfigError X V) (ConfigAdapter σ) :=
  match materialize modelValidate call [] with
  | (.error error, _) => .error error
  | (.ok settings, snapshot) => .ok ⟨snapshot, settings⟩

/-- `reload`: how it ends, and the adapter after it. -/
def reload
    (adapter : ConfigAdapter σ)
    (call : CoreCall Env X) :
    Except (ConfigError X V) Unit × ConfigAdapter σ :=
  match call.reload with
  | .error error => (.error (.core error), adapter)
  | .ok _ =>
      match materialize modelValidate call adapter.snapshot with
      | (.error error, snapshot) => (.error error, { adapter with snapshot := snapshot })
      | (.ok newSettings, snapshot) => (.ok (), ⟨snapshot, newSettings⟩)

end Materialize

section Sections

variable {Env X : Type}

/-- A snapshot has the six sections and no other. -/
theorem keys_of_readSections
    {call : CoreCall Env X}
    {snapshot : PyDict}
    (h : readSections call = .ok snapshot) :
    snapshot.map Prod.fst = SECTIONS := by
  rw [readSections, mapM_eq_ok_iff] at h
  generalize SECTIONS = names at h ⊢
  induction h with
  | nil =>
      rfl
  | cons hname _ ih =>
      obtain ⟨value, -, h⟩ := bind_eq_ok_iff.mp hname
      cases h
      rw [List.map_cons, ih]

end Sections

section Getters

variable {F σ : Type} (B : PyBuiltins F) (adapter : ConfigAdapter σ)

/-- `_resolve_dotted(self._snapshot, key)`. -/
def resolveDotted (key : String) : PyValue :=
  (PyValue.ofDict adapter.snapshot).resolve (PyValue.keyParts key)

/-- The default of a key that is missing, or the error that names it. -/
def orMissing
    {α : Type}
    (key : String)
    (default : Option α) :
    Except ValidationError α :=
  match default with
  | some value => .ok value
  | none => .error ⟨s!"Missing required config key: {key}", [("key", key)]⟩

/-- The error of a value of another kind. -/
def notA
    (kind key : String)
    (value : PyValue) :
    ValidationError :=
  ⟨s!"Config key '{key}' is not a {kind}: {B.repr value}", [("key", key), ("value", B.str value)]⟩

/-- `get_string`. -/
def getString
    (key : String)
    (default : Option String) :
    Except ValidationError String :=
  match adapter.resolveDotted key with
  | .none => orMissing key default
  | value => .ok (B.str value)

/-- `get_number`. -/
def getNumber
    (key : String)
    (default : Option F) :
    Except GetNumberError F :=
  match adapter.resolveDotted key with
  | .none => (orMissing key default).mapError .validation
  | value =>
      match B.float value with
      | .ok x => .ok x
      | .error (.overflow error) => .error (.overflow error)
      | .error _ => .error (.validation (notA B "number" key value))

/-- `get_boolean`. -/
def getBoolean
    (key : String)
    (default : Option Bool) :
    Except ValidationError Bool :=
  match adapter.resolveDotted key with
  | .none => orMissing key default
  | .bool value => .ok value
  | value => .error (notA B "boolean" key value)

/-- `get_json`; a default of `None` is no default. -/
def getJson
    (key : String)
    (default : PyValue) :
    Except ValidationError PyValue :=
  match adapter.resolveDotted key with
  | .none => orMissing key (match default with | .none => none | value => some value)
  | .str text =>
      (B.jsonLoads text).mapError fun exc =>
        ⟨s!"Config key '{key}' is not valid JSON: {exc}", [("key", key), ("value", text)]⟩
  | value => .ok value

/-- `get_section`. -/
def getSection (namespace_ : String) : List (PyValue × PyValue) :=
  match adapter.resolveDotted namespace_ with
  | .dict entries => entries
  | _ => []

variable {adapter} {B}

theorem getString_of_ne
    {key : String}
    (h : adapter.resolveDotted key ≠ .none)
    (default : Option String) :
    adapter.getString B key default = .ok (B.str (adapter.resolveDotted key)) := by
  rw [getString]
  split
  · next hnone => exact absurd hnone h
  · rfl

theorem getString_of_missing
    {key : String}
    (h : adapter.resolveDotted key = .none)
    (default : Option String) :
    adapter.getString B key default = orMissing key default := by
  rw [getString, h]

theorem getNumber_of_float
    {key : String}
    {x : F}
    (h : B.float (adapter.resolveDotted key) = .ok x)
    (default : Option F) :
    adapter.getNumber B key default = .ok x := by
  rw [getNumber]
  split
  · next hnone =>
      rw [hnone] at h
      cases h
  · rw [h]

end Getters

/-- `get_env`. -/
def getEnv
    {F U : Type} {P : SettingsCoercions F U}
    (adapter : ConfigAdapter (YamlAgnoSettings P)) :
    String :=
  adapter.settings.app.env

/-! ## Histories of reloads and reads -/

/-- A request of a reader. -/
inductive Read (F : Type) where
  | getString (key : String) (default : Option String)
  | getNumber (key : String) (default : Option F)
  | getBoolean (key : String) (default : Option Bool)
  | getJson (key : String) (default : PyValue)
  | getSection (namespace_ : String)
  | getEnv
  | settings

/-- What a reader is told. -/
inductive Answer {F U : Type} (P : SettingsCoercions F U) where
  | string (answer : Except ValidationError String)
  | number (answer : Except GetNumberError F)
  | boolean (answer : Except ValidationError Bool)
  | json (answer : Except ValidationError PyValue)
  | entries (answer : List (PyValue × PyValue))
  | env (answer : String)
  | settings (answer : YamlAgnoSettings P)

/-- The answer to a request. -/
def answer
    {F U : Type} {P : SettingsCoercions F U}
    (B : PyBuiltins F)
    (adapter : ConfigAdapter (YamlAgnoSettings P)) :
    Read F → Answer P
  | .getString key default => .string (adapter.getString B key default)
  | .getNumber key default => .number (adapter.getNumber B key default)
  | .getBoolean key default => .boolean (adapter.getBoolean B key default)
  | .getJson key default => .json (adapter.getJson B key default)
  | .getSection namespace_ => .entries (adapter.getSection namespace_)
  | .getEnv => .env adapter.getEnv
  | .settings => .settings adapter.settings

/-- An event at an adapter; a reload takes effect when the core has finished its own. -/
inductive Event (Env X F : Type) where
  | reload (call : CoreCall Env X)
  | read (request : Read F)

/-- The reply to an event. -/
inductive Reply (X V : Type) {F U : Type} (P : SettingsCoercions F U) where
  | reloaded (result : Except (ConfigError X V) Unit)
  | read (answer : Answer P)

section Versions

variable {Env X V σ : Type} (modelValidate : Env → PyDict → Except V σ)

/-- The version a reload would put in place. -/
def version (call : CoreCall Env X) : Except (ConfigError X V) (ConfigAdapter σ) := do
  call.reload.mapError .core
  construct modelValidate call

theorem construct_eq (call : CoreCall Env X) :
    construct modelValidate call = (do
      let sections ← (readSections call).mapError .core
      let settings ← (modelValidate call.environment sections).mapError .invalid
      return ⟨sections, settings⟩) := by
  unfold construct materialize
  cases readSections call with
  | error error =>
      rfl
  | ok sections =>
      simp only [Except.mapError, bind, Except.bind]
      cases modelValidate call.environment sections <;> rfl

/-- The constructor takes a snapshot of the sections, and settings that validate it. -/
theorem construct_eq_ok_iff
    {call : CoreCall Env X}
    {adapter : ConfigAdapter σ} :
    construct modelValidate call = .ok adapter ↔
      readSections call = .ok adapter.snapshot ∧
        modelValidate call.environment adapter.snapshot = .ok adapter.settings := by
  simp only [construct_eq, bind_eq_ok_iff, mapError_eq_ok_iff]
  constructor
  · rintro ⟨sections, hsections, settings, hsettings, h⟩
    cases h
    exact ⟨hsections, hsettings⟩
  · rintro ⟨hsections, hsettings⟩
    exact ⟨_, hsections, _, hsettings, rfl⟩

/-- A version that a reload puts in place has been validated. -/
theorem version_eq_ok
    {call : CoreCall Env X}
    {adapter : ConfigAdapter σ}
    (h : version modelValidate call = .ok adapter) :
    construct modelValidate call = .ok adapter := by
  obtain ⟨_, -, h⟩ := bind_eq_ok_iff.mp h
  exact h

/-- A reload replaces snapshot and settings together, or raises and keeps both. -/
theorem reload_eq
    (adapter : ConfigAdapter σ)
    (call : CoreCall Env X) :
    reload modelValidate adapter call =
      ((version modelValidate call).map fun _ => (),
        replace adapter (version modelValidate call)) := by
  unfold reload version construct materialize
  cases call.reload with
  | error error =>
      rfl
  | ok _ =>
      cases readSections call with
      | error error =>
          rfl
      | ok sections =>
          dsimp only
          cases modelValidate call.environment sections <;> rfl

end Versions

section Histories

variable {Env X V F U : Type} {P : SettingsCoercions F U}
  (modelValidate : Env → PyDict → Except V (YamlAgnoSettings P)) (B : PyBuiltins F)

/-- One event: the adapter after it and the reply. -/
def step
    (adapter : ConfigAdapter (YamlAgnoSettings P)) :
    Event Env X F → ConfigAdapter (YamlAgnoSettings P) × Reply X V P
  | .reload call =>
      let ended := reload modelValidate adapter call
      (ended.2, .reloaded ended.1)
  | .read request => (adapter, .read (answer B adapter request))

/-- The adapter after a history. -/
def run
    (adapter : ConfigAdapter (YamlAgnoSettings P))
    (history : List (Event Env X F)) :
    ConfigAdapter (YamlAgnoSettings P) :=
  history.foldl (fun adapter event => (step modelValidate B adapter event).1) adapter

/-- The reloads of a history. -/
def reloadsOf (history : List (Event Env X F)) : List (CoreCall Env X) :=
  history.filterMap fun
    | .reload call => some call
    | .read _ => none

/-- The adapter holds the last version that validated. -/
theorem run_eq_keepLast
    (adapter : ConfigAdapter (YamlAgnoSettings P))
    (history : List (Event Env X F)) :
    run modelValidate B adapter history =
      keepLast adapter ((reloadsOf history).map (version modelValidate)) := by
  have hstep : ∀ (adapter : ConfigAdapter (YamlAgnoSettings P)) (event : Event Env X F),
      (step modelValidate B adapter event).1 =
        (match event with
          | .reload call => some (version modelValidate call)
          | .read _ => none).elim adapter (replace adapter) := by
    intro adapter event
    cases event with
    | reload call =>
        simp only [step, reload_eq, Option.elim_some]
    | read request =>
        rfl
  refine (foldl_eq_keepLast id _ hstep adapter history).trans ?_
  rw [id_eq, reloadsOf, List.map_filterMap]
  congr 2
  funext event
  cases event <;> rfl

/-- The version after a history is that of the last call whose values validated. -/
theorem exists_validated_call
    {boot : CoreCall Env X}
    {adapter : ConfigAdapter (YamlAgnoSettings P)}
    (hboot : construct modelValidate boot = .ok adapter)
    (history : List (Event Env X F)) :
    ∃ before call later, boot :: reloadsOf history = before ++ call :: later ∧
      construct modelValidate call = .ok (run modelValidate B adapter history) ∧
      ∀ call' ∈ later, ∃ error, version modelValidate call' = .error error := by
  rw [run_eq_keepLast]
  obtain ⟨before, later, heq, hlater⟩ :=
    exists_keepLast adapter ((reloadsOf history).map (version modelValidate))
  generalize keepLast adapter ((reloadsOf history).map (version modelValidate)) = last at heq
  cases before with
  | nil =>
      -- No reload has succeeded: the version is the one of the constructor.
      obtain ⟨hlast, rfl⟩ := List.cons.inj heq
      cases hlast
      exact ⟨[], boot, reloadsOf history, rfl, hboot,
        fun call' hcall' => hlater _ (List.mem_map_of_mem hcall')⟩
  | cons first before =>
      obtain ⟨-, hreloads⟩ := List.cons.inj heq
      obtain ⟨before', rest, hsplit, rfl, hrest⟩ := List.map_eq_append_iff.mp hreloads
      obtain ⟨call, later', rfl, hversion, rfl⟩ := List.map_eq_cons_iff.mp hrest
      exact ⟨boot :: before', call, later', by rw [hsplit, List.cons_append],
        version_eq_ok modelValidate hversion,
        fun call' hcall' => hlater _ (List.mem_map_of_mem hcall')⟩

/--
Keep-old: after any history, snapshot and settings are those of one call of the core
whose values validated and after which every reload has raised.  Reads answer from these
two; a reload that fails raises and changes neither, and one that succeeds replaces both.
-/
theorem versions_stay_coherent
    {boot : CoreCall Env X}
    {adapter : ConfigAdapter (YamlAgnoSettings P)}
    (hboot : construct modelValidate boot = .ok adapter)
    (history : List (Event Env X F)) :
    (∃ before call later, boot :: reloadsOf history = before ++ call :: later ∧
      readSections call = .ok (run modelValidate B adapter history).snapshot ∧
      modelValidate call.environment (run modelValidate B adapter history).snapshot =
        .ok (run modelValidate B adapter history).settings ∧
      ∀ call' ∈ later, ∃ error, version modelValidate call' = .error error) ∧
    (∀ request : Read F,
      step modelValidate B (run modelValidate B adapter history)
          (.read request : Event Env X F) =
        (run modelValidate B adapter history,
          .read (answer B (run modelValidate B adapter history) request))) ∧
    ∀ call : CoreCall Env X,
      (∀ error, version modelValidate call = .error error →
        step modelValidate B (run modelValidate B adapter history) (.reload call) =
          (run modelValidate B adapter history, .reloaded (.error error))) ∧
      ∀ adapter', version modelValidate call = .ok adapter' →
        step modelValidate B (run modelValidate B adapter history) (.reload call) =
          (adapter', .reloaded (.ok ())) := by
  refine ⟨?_, fun _ => rfl, fun call => ⟨fun error h => ?_, fun adapter' h => ?_⟩⟩
  · obtain ⟨before, call, later, hcalls, hversion, hlater⟩ :=
      exists_validated_call modelValidate B hboot history
    obtain ⟨hsections, hsettings⟩ := (construct_eq_ok_iff modelValidate).mp hversion
    exact ⟨before, call, later, hcalls, hsections, hsettings, hlater⟩
  · rw [step, reload_eq, h]
    rfl
  · rw [step, reload_eq, h]
    rfl

end Histories

/-- A core that answers with the given sections, and with `{}` for any other. -/
def coreOf
    (reload : Except String Unit)
    (sections : PyDict) :
    CoreCall Unit String where
  reload := reload
  getSection name := .ok ((sections.lookup name).getD (.dict []))
  environment := ()

/-- Validation with no variable set in the environment. -/
def plainValidate (_ : Unit) (raw : PyDict) : Except Unit (YamlAgnoSettings plainCoercions) :=
  (YamlAgnoSettings.validate plainCoercions raw).elim (.error ()) .ok

/-- Built-ins for values without objects. -/
def plainBuiltins : PyBuiltins ℚ where
  format := ⟨id, fun _ => 0, 0⟩
  beyondAscii _ := none
  repr _ := ""
  objectStr _ := ""
  objectType _ := "object"
  objectFloat _ := .error .typeError
  jsonLoads _ := .error "Expecting value"

/-- The core fails to reload, then holds an invalid section. -/
def failingReloads : List (Event Unit String ℚ) :=
  [.reload (coreOf (.error "unreadable file") []), .read .getEnv,
    .reload (coreOf (.ok ()) (devSections "http://localhost:4317/" [("typo", .bool true)]))]

theorem versions_stay_coherent_failingReloads :
    ∃ before call later,
      coreOf (.ok ()) (devSections "http://localhost:4317/" []) :: reloadsOf failingReloads =
          before ++ call :: later ∧
        readSections call =
          .ok (run plainValidate plainBuiltins
            ⟨devSections "http://localhost:4317/" [], devSettings "http://localhost:4317/" false⟩
            failingReloads).snapshot := by
  have hboot : construct plainValidate
      (coreOf (.ok ()) (devSections "http://localhost:4317/" [])) =
        .ok ⟨devSections "http://localhost:4317/" [],
          devSettings "http://localhost:4317/" false⟩ := rfl
  obtain ⟨⟨before, call, later, hsplit, hsections, -⟩, -⟩ :=
    versions_stay_coherent plainValidate plainBuiltins hboot failingReloads
  exact ⟨before, call, later, hsplit, hsections⟩

end ConfigAdapter
end YamlAgno

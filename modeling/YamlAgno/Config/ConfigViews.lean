import YamlAgno.Config.Bootstrap

/-!
# The two views of the configuration

The getters of the facade read the raw snapshot, `.settings` is what validation made
of it.  The views agree on a field if the getter that fits its type gives back the
attribute.

Texts and numbers are compared case by case over how pydantic takes a value for a
field of that type (`Documented`); the environment may only add to the snapshot
(`InitFirst`).  The outcome is `views_agree_iff`: numbers always agree where the
snapshot has them, however they are written, but a default, a coerced truth value, a
URL that is not in normal form and a text given as bytes show in one view only.
-/

namespace YamlAgno
namespace ConfigAdapter

open PyNumber

section Library

variable {F U : Type}

/--
What the documentation of pydantic says of the values it takes: texts are taken as they
are, and objects for their content, as bytes are; integers may be given as truth values,
as whole numbers in texts, and as objects such as floats of that value; a float is
`float(value)`.
-/
structure Documented (P : SettingsCoercions F U) (B : PyBuiltins F) : Prop where
  str_cases : ∀ value text, P.str value = some text →
    value = .str text ∨
      ∃ identity truthy, value = .object identity truthy ∧ B.objectStr identity ≠ text
  int_cases : ∀ value n, P.int value = some n →
    (∃ b, value = .bool b ∧ n = if b = true then 1 else 0) ∨ value = .int n ∨
      (∃ s, value = .str s ∧ WholeText B.beyondAscii s n) ∨
      ∃ identity truthy, value = .object identity truthy ∧
        B.objectFloat identity = .ok (B.format.ofRat n)
  float_eq : ∀ value x, P.float value = some x → B.float value = .ok x
  bool_bool : ∀ b, P.bool (.bool b) = some b
  bool_ne : ∀ value b, P.bool value = some b → value ≠ .none ∧ ∀ entries, value ≠ .dict entries
  httpUrl_ne : ∀ value u, P.httpUrl value = some u →
    value ≠ .none ∧ ∀ entries, value ≠ .dict entries

/-- Given values take precedence over the environment, dictionary by dictionary. -/
def InitFirst (sources : PyDict → PyDict) : Prop :=
  ∀ raw section_ field value, fieldOf raw section_ field = some value →
    fieldOf (sources raw) section_ field = some value ∨
      ∃ entries entries', value = .dict entries ∧
        fieldOf (sources raw) section_ field = some (.dict entries')

/-- `YamlAgnoSettings.model_validate(snapshot)` in an environment. -/
def settingsValidate
    {Env : Type}
    (P : SettingsCoercions F U)
    (sources : Env → PyDict → PyDict)
    (environment : Env)
    (snapshot : PyDict) :
    Except Unit (YamlAgnoSettings P) :=
  (YamlAgnoSettings.validate P (sources environment snapshot)).elim (.error ()) .ok

end Library

/-! ## Agreement -/

section Views

variable {F U : Type} {P : SettingsCoercions F U}

/-- Every getter gives back the attribute. -/
structure ViewsAgree
    (B : PyBuiltins F)
    (adapter : ConfigAdapter (YamlAgnoSettings P)) :
    Prop where
  name : adapter.getString B "app.name" none = .ok adapter.settings.app.name.1
  env : adapter.getString B "app.env" none = .ok adapter.settings.app.env.1
  maxConcurrentAgents : adapter.getNumber B "runtime.max_concurrent_agents" none =
    .ok (B.format.ofRat adapter.settings.runtime.maxConcurrentAgents.1)
  requestTimeoutS : adapter.getNumber B "runtime.request_timeout_s" none =
    .ok (B.format.ofRat adapter.settings.runtime.requestTimeoutS.1)
  poolSize : adapter.getNumber B "persistence.pool_size" none =
    .ok (B.format.ofRat adapter.settings.persistence.poolSize.1)
  poolMaxOverflow : adapter.getNumber B "persistence.pool_max_overflow" none =
    .ok (B.format.ofRat adapter.settings.persistence.poolMaxOverflow.1)
  statementTimeoutMs : adapter.getNumber B "persistence.statement_timeout_ms" none =
    .ok (B.format.ofRat adapter.settings.persistence.statementTimeoutMs.1)
  otlpEndpoint : adapter.getString B "observability.otlp_endpoint" none =
    .ok (P.urlStr adapter.settings.observability.otlpEndpoint)
  sampleRate : adapter.getNumber B "observability.sample_rate" none =
    .ok adapter.settings.observability.sampleRate.1
  authMode : adapter.getString B "security.auth_mode" none =
    .ok adapter.settings.security.authMode.1
  tokenTtlMinutes : adapter.getNumber B "security.token_ttl_minutes" none =
    .ok (B.format.ofRat adapter.settings.security.tokenTtlMinutes.1)
  enableExperimentalRag : adapter.getBoolean B "flags.enable_experimental_rag" none =
    .ok adapter.settings.flags.enableExperimentalRag

/-- The fields with a text. -/
def textFields : List (String × String) :=
  [("app", "name"), ("app", "env"), ("security", "auth_mode")]

/-- The fields with a number. -/
def numberFields : List (String × String) :=
  [("runtime", "max_concurrent_agents"), ("runtime", "request_timeout_s"),
    ("persistence", "pool_size"), ("persistence", "pool_max_overflow"),
    ("persistence", "statement_timeout_ms"), ("observability", "sample_rate"),
    ("security", "token_ttl_minutes")]

theorem forall_textFields
    {p : String × String → Prop} :
    (∀ field ∈ textFields, p field) ↔
      p ("app", "name") ∧ p ("app", "env") ∧ p ("security", "auth_mode") := by
  simp only [textFields, List.forall_mem_cons, List.not_mem_nil, false_implies, implies_true,
    and_true]

theorem forall_numberFields
    {p : String × String → Prop} :
    (∀ field ∈ numberFields, p field) ↔
      p ("runtime", "max_concurrent_agents") ∧ p ("runtime", "request_timeout_s") ∧
        p ("persistence", "pool_size") ∧ p ("persistence", "pool_max_overflow") ∧
        p ("persistence", "statement_timeout_ms") ∧ p ("observability", "sample_rate") ∧
        p ("security", "token_ttl_minutes") := by
  simp only [numberFields, List.forall_mem_cons, List.not_mem_nil, false_implies, implies_true,
    and_true]

/--
A snapshot that needs no coercion in the fields where it would show: every field is
there, texts are strings, the endpoint is a URL in its normal form, the flag is a truth
value.
-/
structure Plain
    (P : SettingsCoercions F U)
    (B : PyBuiltins F)
    (snapshot : PyDict) :
    Prop where
  texts : ∀ field ∈ textFields, ∃ text, fieldOf snapshot field.1 field.2 = some (.str text)
  numbers : ∀ field ∈ numberFields, ∃ value, fieldOf snapshot field.1 field.2 = some value
  endpoint : ∃ value u, fieldOf snapshot "observability" "otlp_endpoint" = some value ∧
    P.httpUrl value = some u ∧ P.urlStr u = B.str value
  flag : ∃ b, fieldOf snapshot "flags" "enable_experimental_rag" = some (.bool b)

end Views

/-! ## Field by field -/

section Fields

variable {F U σ : Type} {P : SettingsCoercions F U} {B : PyBuiltins F}
  {sources : PyDict → PyDict} {adapter : ConfigAdapter σ} (key : String)
  {section_ field : String}

/-- The key of a field leads to the field. -/
theorem resolveDotted_eq
    (hkey : PyValue.keyParts key = [section_, field]) :
    adapter.resolveDotted key = (fieldOf adapter.snapshot section_ field).getD .none := by
  rw [resolveDotted, hkey, PyValue.resolve, PyValue.item_ofDict, fieldOf]
  cases adapter.snapshot.lookup section_ with
  | none =>
      rfl
  | some value =>
      simp only [PyValue.resolve, Option.bind_some]
      cases value.item field <;> rfl

/-- A value that the settings have taken is the one in the snapshot. -/
theorem eq_of_reads
    {α : Type}
    {read : PyValue → Option α}
    {a : α}
    (hsources : InitFirst sources)
    (hread : Reads (sources adapter.snapshot) section_ field read a)
    (hdict : ∀ entries, read (.dict entries) ≠ some a)
    {value : PyValue}
    (hvalue : fieldOf adapter.snapshot section_ field = some value) :
    read value = some a := by
  obtain ⟨value', hvalue', hread⟩ := hread
  rcases hsources _ _ _ _ hvalue with hkept | ⟨_, entries', -, hmerged⟩
  · rw [hkept] at hvalue'
    cases hvalue'
    exact hread
  · rw [hmerged] at hvalue'
    cases hvalue'
    exact absurd hread (hdict entries')

/-- A text agrees exactly when it is given as a string. -/
theorem getString_text_iff
    (hdoc : Documented P B)
    (hsources : InitFirst sources)
    (hkey : PyValue.keyParts key = [section_, field])
    {text : String}
    (hread : Reads (sources adapter.snapshot) section_ field P.str text) :
    adapter.getString B key none = .ok text ↔
      ∃ text', fieldOf adapter.snapshot section_ field = some (.str text') := by
  have hdict : ∀ entries, P.str (.dict entries) ≠ some text := by
    intro entries h
    rcases hdoc.str_cases _ _ h with h | ⟨_, _, h, -⟩ <;> cases h
  rw [getString, resolveDotted_eq key hkey]
  cases hvalue : fieldOf adapter.snapshot section_ field with
  | none =>
      simp [orMissing]
  | some value =>
      have hvalue' := eq_of_reads hsources hread hdict hvalue
      rcases hdoc.str_cases value text hvalue' with rfl | ⟨identity, truthy, rfl, hne⟩
      · exact ⟨fun _ => ⟨text, rfl⟩, fun _ => rfl⟩
      · simpa [PyBuiltins.str] using hne

/-- A number agrees exactly when it is there. -/
theorem getNumber_iff
    {α : Type}
    {read : PyValue → Option α}
    {a : α}
    {x : F}
    (hfloat : ∀ value, read value = some a → B.float value = .ok x)
    (hsources : InitFirst sources)
    (hkey : PyValue.keyParts key = [section_, field])
    (hread : Reads (sources adapter.snapshot) section_ field read a) :
    adapter.getNumber B key none = .ok x ↔
      ∃ value, fieldOf adapter.snapshot section_ field = some value := by
  have hdict : ∀ entries, read (.dict entries) ≠ some a := by
    intro entries h
    cases hfloat _ h
  cases hvalue : fieldOf adapter.snapshot section_ field with
  | none =>
      simp [getNumber, resolveDotted_eq key hkey, hvalue, orMissing, Except.mapError]
  | some value =>
      have hvalue' := hfloat value (eq_of_reads hsources hread hdict hvalue)
      refine ⟨fun _ => ⟨value, rfl⟩, fun _ => getNumber_of_float ?_ none⟩
      rw [resolveDotted_eq key hkey, hvalue]
      exact hvalue'

/-- The integers of the schema are far below the overflow of a float. -/
theorem float_of_int
    (hdoc : Documented P B)
    {n : ℤ}
    (hn : n.natAbs < 2 ^ 16)
    (value : PyValue)
    (hread : P.int value = some n) :
    B.float value = .ok (B.format.ofRat n) := by
  rcases hdoc.int_cases value n hread with
    ⟨b, rfl, rfl⟩ | rfl | ⟨s, rfl, hwhole⟩ | ⟨identity, truthy, rfl, hobject⟩
  · cases b <;> simp [PyBuiltins.float]
  · exact B.float_int_of_lt hn (by decide)
  · exact B.float_str_of_wholeText hwhole
  · exact hobject

theorem float_of_bounded
    (hdoc : Documented P B)
    {ge le : ℤ}
    (n : Bounded ge le)
    (hlow : 0 ≤ ge)
    (hhigh : le ≤ 60000)
    (value : PyValue)
    (hread : P.int value = some n.1) :
    B.float value = .ok (B.format.ofRat n.1) := by
  have hn := n.2
  exact float_of_int hdoc (by omega) value hread

/-- The endpoint agrees exactly when it is written in its normal form. -/
theorem getString_url_iff
    (hdoc : Documented P B)
    (hsources : InitFirst sources)
    (hkey : PyValue.keyParts key = [section_, field])
    {u : U}
    (hread : Reads (sources adapter.snapshot) section_ field P.httpUrl u) :
    adapter.getString B key none = .ok (P.urlStr u) ↔
      ∃ value u', fieldOf adapter.snapshot section_ field = some value ∧
        P.httpUrl value = some u' ∧ P.urlStr u' = B.str value := by
  have hdict : ∀ entries, P.httpUrl (.dict entries) ≠ some u :=
    fun entries h => (hdoc.httpUrl_ne _ _ h).2 entries rfl
  have hresolve : adapter.resolveDotted key = _ := resolveDotted_eq key hkey
  cases hvalue : fieldOf adapter.snapshot section_ field with
  | none =>
      rw [hvalue] at hresolve
      simp [getString_of_missing hresolve, orMissing]
  | some value =>
      rw [hvalue, Option.getD_some] at hresolve
      have hvalue' := eq_of_reads hsources hread hdict hvalue
      have hne : adapter.resolveDotted key ≠ .none := by
        rw [hresolve]
        exact (hdoc.httpUrl_ne _ _ hvalue').1
      rw [getString_of_ne hne, hresolve, Except.ok.injEq]
      constructor
      · intro h
        exact ⟨value, u, rfl, hvalue', h.symm⟩
      · rintro ⟨_, u', hvalue'', hu', heq⟩
        cases hvalue''
        rw [hvalue'] at hu'
        cases hu'
        exact heq.symm

/-- The flag agrees exactly when it is given as a truth value. -/
theorem getBoolean_iff
    (hdoc : Documented P B)
    (hsources : InitFirst sources)
    (hkey : PyValue.keyParts key = [section_, field])
    {b : Bool}
    (hread : fieldOf (sources adapter.snapshot) section_ field = none ∨
      Reads (sources adapter.snapshot) section_ field P.bool b) :
    adapter.getBoolean B key none = .ok b ↔
      ∃ b', fieldOf adapter.snapshot section_ field = some (.bool b') := by
  rw [getBoolean, resolveDotted_eq key hkey]
  cases hvalue : fieldOf adapter.snapshot section_ field with
  | none =>
      simp [orMissing]
  | some value =>
      have hdict : ∀ entries, P.bool (.dict entries) ≠ some b :=
        fun entries h => (hdoc.bool_ne _ _ h).2 entries rfl
      have hthere : fieldOf (sources adapter.snapshot) section_ field ≠ none := by
        rcases hsources _ _ _ _ hvalue with h | ⟨_, _, -, h⟩ <;> simp [h]
      have hvalue' :=
        eq_of_reads hsources (hread.resolve_left hthere) hdict hvalue
      rw [Option.getD_some]
      cases value with
      | bool b' =>
          rw [hdoc.bool_bool] at hvalue'
          cases hvalue'
          exact ⟨fun _ => ⟨b, rfl⟩, fun _ => rfl⟩
      | none =>
          exact absurd rfl (hdoc.bool_ne _ _ hvalue').1
      | _ =>
          simp

end Fields

/-! ## All fields -/

section All

variable {Env X F U : Type} {P : SettingsCoercions F U} {B : PyBuiltins F}
  {sources : Env → PyDict → PyDict}

/--
The two views agree on every field exactly when the snapshot is plain: it has every
field, texts and the flag are not coerced, and the endpoint is in its normal form.
-/
theorem views_agree_iff
    (hdoc : Documented P B)
    (hsources : ∀ environment, InitFirst (sources environment))
    {call : CoreCall Env X}
    {adapter : ConfigAdapter (YamlAgnoSettings P)}
    (hboot : construct (settingsValidate P sources) call = .ok adapter) :
    ViewsAgree B adapter ↔ Plain P B adapter.snapshot := by
  obtain ⟨-, hvalidate⟩ := (construct_eq_ok_iff _).mp hboot
  have hread : adapter.settings.ReadFrom (sources call.environment adapter.snapshot) := by
    unfold settingsValidate at hvalidate
    cases hsome : YamlAgnoSettings.validate P (sources call.environment adapter.snapshot) with
    | none =>
        rw [hsome] at hvalidate
        cases hvalidate
    | some settings =>
        rw [hsome] at hvalidate
        cases hvalidate
        exact YamlAgnoSettings.readFrom_of_validate hsome
  have hinit := hsources call.environment
  have hname := getString_text_iff "app.name" hdoc hinit rfl hread.name
  have henv := getString_text_iff "app.env" hdoc hinit rfl hread.env
  have hmode := getString_text_iff "security.auth_mode" hdoc hinit rfl hread.authMode
  have hagents := getNumber_iff "runtime.max_concurrent_agents"
    (float_of_bounded hdoc _ (by decide) (by decide)) hinit rfl hread.maxConcurrentAgents
  have htimeout := getNumber_iff "runtime.request_timeout_s"
    (float_of_bounded hdoc _ (by decide) (by decide)) hinit rfl hread.requestTimeoutS
  have hsize := getNumber_iff "persistence.pool_size"
    (float_of_bounded hdoc _ (by decide) (by decide)) hinit rfl hread.poolSize
  have hoverflow := getNumber_iff "persistence.pool_max_overflow"
    (float_of_bounded hdoc _ (by decide) (by decide)) hinit rfl hread.poolMaxOverflow
  have hstatement := getNumber_iff "persistence.statement_timeout_ms"
    (float_of_bounded hdoc _ (by decide) (by decide)) hinit rfl hread.statementTimeoutMs
  have hrate := getNumber_iff "observability.sample_rate"
    (fun value => hdoc.float_eq value _) hinit rfl hread.sampleRate
  have httl := getNumber_iff "security.token_ttl_minutes"
    (float_of_bounded hdoc _ (by decide) (by decide)) hinit rfl hread.tokenTtlMinutes
  have hendpoint :=
    getString_url_iff "observability.otlp_endpoint" hdoc hinit rfl hread.otlpEndpoint
  have hflag :=
    getBoolean_iff "flags.enable_experimental_rag" hdoc hinit rfl hread.enableExperimentalRag
  constructor
  · intro h
    refine ⟨?_, ?_, hendpoint.mp h.otlpEndpoint, hflag.mp h.enableExperimentalRag⟩
    · exact forall_textFields.mpr ⟨hname.mp h.name, henv.mp h.env, hmode.mp h.authMode⟩
    · exact forall_numberFields.mpr
        ⟨hagents.mp h.maxConcurrentAgents, htimeout.mp h.requestTimeoutS, hsize.mp h.poolSize,
          hoverflow.mp h.poolMaxOverflow, hstatement.mp h.statementTimeoutMs,
          hrate.mp h.sampleRate, httl.mp h.tokenTtlMinutes⟩
  · intro h
    obtain ⟨nname, nenv, nmode⟩ := forall_textFields.mp h.texts
    obtain ⟨nagents, ntimeout, nsize, noverflow, nstatement, nrate, nttl⟩ :=
      forall_numberFields.mp h.numbers
    exact
      { name := hname.mpr nname
        env := henv.mpr nenv
        maxConcurrentAgents := hagents.mpr nagents
        requestTimeoutS := htimeout.mpr ntimeout
        poolSize := hsize.mpr nsize
        poolMaxOverflow := hoverflow.mpr noverflow
        statementTimeoutMs := hstatement.mpr nstatement
        otlpEndpoint := hendpoint.mpr h.endpoint
        sampleRate := hrate.mpr nrate
        authMode := hmode.mpr nmode
        tokenTtlMinutes := httl.mpr nttl
        enableExperimentalRag := hflag.mpr h.flag }

end All

/-- Without variables in the environment the snapshot is what is validated. -/
theorem initFirst_noVariables : InitFirst fun raw => raw :=
  fun _ _ _ _ h => Or.inl h

theorem documented_plain : Documented plainCoercions plainBuiltins where
  str_cases value text h := by
    cases value <;> cases h
    exact Or.inl rfl
  int_cases value n h := by
    cases value <;> cases h
    exact Or.inr (Or.inl rfl)
  float_eq value x h := by
    have hsmall : ∀ n : ℤ, n.natAbs < 2 ^ 1 → plainBuiltins.float (.int n) = .ok (n : ℚ) :=
      fun n hn => plainBuiltins.float_int_of_lt hn (by decide)
    simp only [plainCoercions] at h
    split at h <;> cases h
    · exact hsmall 0 (by decide)
    · exact hsmall 1 (by decide)
  bool_bool b := rfl
  bool_ne value b h := by
    cases value <;> cases h
    exact ⟨by simp, by simp⟩
  httpUrl_ne value u h := by
    cases value <;> cases h
    exact ⟨by simp, by simp⟩

/-- The flag that switches the experimental toggle on. -/
def ragEnabled : PyDict :=
  [("enable_experimental_rag", .bool true)]

theorem views_agree_plain :
    ViewsAgree plainBuiltins
      ⟨devSections "http://localhost:4317/" ragEnabled,
        devSettings "http://localhost:4317/" true⟩ := by
  have hboot : construct (settingsValidate plainCoercions fun (_ : Unit) raw => raw)
      (coreOf (.ok ()) (devSections "http://localhost:4317/" ragEnabled)) =
        .ok ⟨devSections "http://localhost:4317/" ragEnabled,
          devSettings "http://localhost:4317/" true⟩ := rfl
  refine (views_agree_iff documented_plain (fun _ => initFirst_noVariables) hboot).mpr
    ⟨?_, ?_, ?_, ?_⟩
  · exact forall_textFields.mpr ⟨⟨"yaml-agno", rfl⟩, ⟨"dev", rfl⟩, ⟨"jwt", rfl⟩⟩
  · exact forall_numberFields.mpr
      ⟨⟨_, rfl⟩, ⟨_, rfl⟩, ⟨_, rfl⟩, ⟨_, rfl⟩, ⟨_, rfl⟩, ⟨_, rfl⟩, ⟨_, rfl⟩⟩
  · exact ⟨.str "http://localhost:4317/", "http://localhost:4317/", rfl, rfl, rfl⟩
  · exact ⟨true, rfl⟩

/-- The flag is left to its default, which only the settings know. -/
theorem views_differ_on_default :
    construct (settingsValidate plainCoercions fun (_ : Unit) raw => raw)
        (coreOf (.ok ()) (devSections "http://localhost:4317/" [])) =
      .ok ⟨devSections "http://localhost:4317/" [],
        devSettings "http://localhost:4317/" false⟩ ∧
    ¬ ViewsAgree plainBuiltins
      ⟨devSections "http://localhost:4317/" [], devSettings "http://localhost:4317/" false⟩ := by
  refine ⟨rfl, fun h => ?_⟩
  have hflag := h.enableExperimentalRag
  cases hflag

end ConfigAdapter
end YamlAgno

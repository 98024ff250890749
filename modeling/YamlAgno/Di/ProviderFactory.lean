import YamlAgno.Di.ProviderCapabilities
import YamlAgno.Library.Calling
import YamlAgno.Library.OrderedDict
import YamlAgno.Models.SpecDump

/-!
# The provider factory

`ProviderFactory.build` of `di/provider_factory.py` resolves the class of a provider, drops what
the class does not declare from the dump of the specification, puts the key in and calls the
class.

The key is put in after the fields have been dropped, and a class that is no dataclass raises
outside the part that is wrapped.  So the class is called with declared arguments, and nothing
but the documented exceptions is raised, exactly if it is a dataclass that declares `api_key`
whenever a key comes through to it (`passes_declared_iff`).
-/

namespace YamlAgno

open Calling

/-- What a constructor raises: a `TypeError` or a `ValueError`, by the name of its class and its
text, or something else. -/
inductive ConstructorError (E : Type) where
  | caught (typeName message : String)
  | other (error : E)

/-- The keyword arguments of a model. -/
abbrev ModelKwargs (F : Type) : Type :=
  List (String × SpecValue F)

/-- The calls that the factory makes outside. -/
inductive ProviderCall (Class F : Type) where
  | resolveClass (modulePath className : String)
  | resolveSecret (envName : String)
  | construct (cls : Class) (id : String) (kwargs : ModelKwargs F)

/-- The two resolvers and Agno; each answer may depend on the calls before it. -/
structure ProviderHost (F : Type) where
  Class : Type
  Model : Type
  Error : Type
  resolveClass : List (ProviderCall Class F) → String → String → Except Error Class
  resolveSecret : List (ProviderCall Class F) → String → Except Error (Option String)
  construct : List (ProviderCall Class F) → Class → String → ModelKwargs F →
    Except (ConstructorError Error) Model
  /-- The names in `dataclasses.fields`; `none` if the class is no dataclass. -/
  dataclassFields : Class → Option (List String)
  className : Class → String
  repr : String → String

/-- What a `ModelConstructionError` is about. -/
inductive ConstructionCause where
  | exception (typeName message : String)
  | missingKey (envName : String)

/-- `ModelConstructionError`. -/
structure ModelConstructionError where
  provider : String
  modelId : String
  cause : ConstructionCause

/-- The text of the exception. -/
def ModelConstructionError.message
    (repr : String → String)
    (error : ModelConstructionError) :
    String :=
  match error.cause with
  | .missingKey envName =>
      "Missing api_key for provider=" ++ repr error.provider ++ " id=" ++ repr error.modelId ++
        ": set the " ++ repr envName ++
        " environment variable (or add it to the secrets config namespace)."
  | .exception typeName message =>
      "Failed to construct Agno Model for provider=" ++ repr error.provider ++ " id=" ++
        repr error.modelId ++ ": " ++ typeName ++ ": " ++ message

/-- What the factory raises. -/
inductive ProviderFailure (E : Type) where
  | keyError (message : String)
  | modelConstruction (error : ModelConstructionError)
  | typeError (message : String)
  | propagated (error : E)

namespace ProviderFactory

variable {F : Type} {P : SpecCoercions F}

/-- A program of the factory. -/
abbrev ProviderBuild (H : ProviderHost F) : Type → Type :=
  Calling (ProviderCall H.Class F) (ProviderFailure H.Error)

/-- The fields that are never arguments. -/
def excluded : List String :=
  ["id", "fallback", "provider", "thinking"]

variable (H : ProviderHost F)

/-- `_compose_kwargs`. -/
def composeKwargs
    (spec : FullModelSpec P)
    (cls : H.Class) :
    Except (ProviderFailure H.Error) (ModelKwargs F) :=
  let candidates := spec.dump.filter fun item => !excluded.contains item.1
  match H.dataclassFields cls with
  | none =>
      .error (.typeError ("Cannot compose kwargs: " ++ H.repr (H.className cls) ++
        " is not a dataclass. PROVIDER_REGISTRY entries MUST point at Agno Model subclasses."))
  | some allowed => .ok (candidates.filter fun item => allowed.contains item.1)

/-- The class of an entry of the table. -/
def resolveClass (entry : ProviderRegistryEntry) : ProviderBuild H H.Class :=
  call (fun before _ =>
      (H.resolveClass before entry.modulePath entry.className).mapError .propagated)
    (.resolveClass entry.modulePath entry.className)

/-- The secret of a variable. -/
def resolveSecret (envName : String) : ProviderBuild H (Option String) :=
  call (fun before _ => (H.resolveSecret before envName).mapError .propagated)
    (.resolveSecret envName)

/-- The arguments with the key of the provider. -/
def injectApiKey
    (spec : FullModelSpec P)
    (kwargs : ModelKwargs F) :
    Option String → ProviderBuild H (ModelKwargs F)
  | none => pure kwargs
  | some envName => do
      match ← resolveSecret H envName with
      | none =>
          ofExcept (.error (.modelConstruction ⟨spec.provider, spec.id, .missingKey envName⟩))
      | some apiKey => return OrderedDict.set "api_key" (.str apiKey) kwargs

/-- The call of the class; a `TypeError` or a `ValueError` is wrapped. -/
def construct
    (spec : FullModelSpec P)
    (cls : H.Class)
    (kwargs : ModelKwargs F) :
    ProviderBuild H H.Model :=
  let wrap : ConstructorError H.Error → ProviderFailure H.Error
    | .caught typeName message =>
        .modelConstruction ⟨spec.provider, spec.id, .exception typeName message⟩
    | .other error => .propagated error
  call (fun before _ => (H.construct before cls spec.id kwargs).mapError wrap)
    (.construct cls spec.id kwargs)

/-- The last two steps of `build`: the check of the capabilities, and the call. -/
def checkAndConstruct
    (validateCapabilities : Bool)
    (spec : FullModelSpec P)
    (capabilities : ProviderCapabilities)
    (cls : H.Class)
    (kwargs : ModelKwargs F) :
    ProviderBuild H H.Model :=
  let errors := ModelCapabilitiesValidator.validate H.repr spec capabilities
  if validateCapabilities = true ∧ errors ≠ [] then
    ofExcept (.error (.modelConstruction ⟨spec.provider, spec.id, .exception "ValueError"
      ("capability mismatches: [" ++ ", ".intercalate (errors.map H.repr) ++ "]")⟩))
  else construct H spec cls kwargs

/-- `build`. -/
def build (validateCapabilities : Bool) (spec : FullModelSpec P) : ProviderBuild H H.Model :=
  match providerRegistry.lookup spec.provider with
  | none => ofExcept (.error (.keyError ("Unknown provider: " ++ H.repr spec.provider)))
  | some entry => do
      let cls ← resolveClass H entry
      let kwargs ← ofExcept (composeKwargs H spec cls)
      let kwargs ← injectApiKey H spec kwargs entry.apiKeyEnv
      checkAndConstruct H validateCapabilities spec entry.capabilities cls kwargs

/-! ## What is passed -/

variable {H}

/-- The arguments are declared by the class, and the fields of the specification that it declares
are among them as they are. -/
structure Declared
    (spec : FullModelSpec P)
    (cls : H.Class)
    (kwargs : ModelKwargs F) :
    Prop where
  isDataclass : H.dataclassFields cls ≠ none
  declared : ∀ fields ∈ H.dataclassFields cls, ∀ arg ∈ kwargs, arg.1 ∈ fields
  forwarded : ∀ fields ∈ H.dataclassFields cls, ∀ item ∈ spec.dump, item.1 ∉ excluded →
    item.1 ∈ fields → kwargs.lookup item.1 = some item.2

/-- What it is for a run of the factory to pass what the class declares. -/
structure PassesDeclared
    (spec : FullModelSpec P)
    (run : Journal (ProviderCall H.Class F) (ProviderFailure H.Error) H.Model) :
    Prop where
  calls : ∀ cls id kwargs, .construct cls id kwargs ∈ run.entries →
    id = spec.id ∧ Declared spec cls kwargs
  constructs : ∀ model, run.result = .ok model →
    ∃ cls id kwargs, .construct cls id kwargs ∈ run.entries
  /-- No exception of the factory's own but a `KeyError` or a `ModelConstructionError`. -/
  raises : ∀ message, run.result ≠ .error (.typeError message)

/-- A key comes through to the class: the secret is there, and the capabilities do not stop the
build. -/
def KeyComesThrough
    (validateCapabilities : Bool)
    (spec : FullModelSpec P)
    (entry : ProviderRegistryEntry)
    (before : List (ProviderCall H.Class F)) : Prop :=
  ∃ envName ∈ entry.apiKeyEnv, ∃ apiKey,
    H.resolveSecret (before ++ [.resolveClass entry.modulePath entry.className]) envName =
        .ok (some apiKey) ∧
      ¬ (validateCapabilities = true ∧
        ModelCapabilitiesValidator.validate H.repr spec entry.capabilities ≠ [])

/-- The class of the provider is a dataclass, and declares `api_key` if a key comes through. -/
def ClassSuits
    (validateCapabilities : Bool)
    (spec : FullModelSpec P)
    (before : List (ProviderCall H.Class F)) : Prop :=
  ∀ entry ∈ providerRegistry.lookup spec.provider,
    ∀ cls, H.resolveClass before entry.modulePath entry.className = .ok cls →
      ∃ fields ∈ H.dataclassFields cls,
        KeyComesThrough validateCapabilities spec entry before → "api_key" ∈ fields

/-! ### The arguments -/

/-- The arguments before the key. -/
def composed (spec : FullModelSpec P) (fields : List String) : ModelKwargs F :=
  (spec.dump.filter fun item => !excluded.contains item.1).filter
    fun item => fields.contains item.1

theorem mem_composed
    {spec : FullModelSpec P}
    {fields : List String}
    {item : String × SpecValue F} :
    item ∈ composed spec fields ↔ item ∈ spec.dump ∧ item.1 ∉ excluded ∧ item.1 ∈ fields := by
  rw [composed, List.mem_filter, List.mem_filter, and_assoc]
  simp

theorem composed_declared
    {spec : FullModelSpec P}
    {cls : H.Class}
    {fields : List String}
    (h : H.dataclassFields cls = some fields) :
    Declared spec cls (composed spec fields) where
  isDataclass := by simp [h]
  declared := by
    rintro fields' hfields arg harg
    rw [Option.mem_def, h] at hfields
    cases hfields
    exact (mem_composed.mp harg).2.2
  forwarded := by
    rintro fields' hfields item hitem hexcluded hmem
    rw [Option.mem_def, h] at hfields
    cases hfields
    have hsublist : (composed spec fields).Sublist spec.dump :=
      List.filter_sublist.trans List.filter_sublist
    have hnodup : ((composed spec fields).map Prod.fst).Nodup :=
      (hsublist.map Prod.fst).nodup spec.nodup_keys_dump
    exact (OrderedDict.mem_iff_lookup hnodup).mp (mem_composed.mpr ⟨hitem, hexcluded, hmem⟩)

/-- No field of a specification is called `api_key`. -/
theorem ne_apiKey_of_mem_dump
    {spec : FullModelSpec P}
    {item : String × SpecValue F}
    (h : item ∈ spec.dump) :
    item.1 ≠ "api_key" := by
  intro heq
  have hmem : item.1 ∈ FullModelSpec.keys :=
    spec.keys_dump_sublist.subset (List.mem_map_of_mem h)
  rw [heq] at hmem
  exact absurd hmem (by decide)

/-- With the key, the arguments are declared exactly if the key is. -/
theorem declared_set_apiKey_iff
    {spec : FullModelSpec P}
    {cls : H.Class}
    {fields : List String}
    (h : H.dataclassFields cls = some fields)
    (apiKey : String) :
    Declared spec cls (OrderedDict.set "api_key" (.str apiKey) (composed spec fields)) ↔
      "api_key" ∈ fields := by
  have hcomposed : Declared spec cls (composed spec fields) := composed_declared h
  constructor
  · intro hdeclared
    refine hdeclared.declared fields h ("api_key", .str apiKey) ?_
    have hlookup := OrderedDict.lookup_set_self "api_key" (SpecValue.str apiKey)
      (composed spec fields)
    obtain ⟨first, rest, hsplit, -⟩ := List.lookup_eq_some_iff.mp hlookup
    rw [hsplit]
    simp
  · intro hkey
    refine ⟨hcomposed.isDataclass, ?_, ?_⟩
    · intro fields' hfields arg harg
      rcases OrderedDict.mem_of_mem_set harg with rfl | harg
      · rw [Option.mem_def, h] at hfields
        cases hfields
        exact hkey
      · exact hcomposed.declared fields' hfields arg harg
    · intro fields' hfields item hitem hexcluded hmem
      rw [OrderedDict.lookup_set_of_ne (ne_apiKey_of_mem_dump hitem)]
      exact hcomposed.forwarded fields' hfields item hitem hexcluded hmem

/-! ### The run -/

/-- A call that constructs nothing does not matter. -/
theorem passesDeclared_cons_iff
    {spec : FullModelSpec P}
    {next : ProviderCall H.Class F}
    {entries : List (ProviderCall H.Class F)}
    {result : Except (ProviderFailure H.Error) H.Model}
    (h : ∀ cls id kwargs, next ≠ .construct cls id kwargs) :
    PassesDeclared spec ⟨next :: entries, result⟩ ↔ PassesDeclared spec ⟨entries, result⟩ := by
  have hmem : ∀ cls id kwargs, .construct cls id kwargs ∈ next :: entries ↔
      .construct cls id kwargs ∈ entries := by
    intro cls id kwargs
    rw [List.mem_cons, or_iff_right (h cls id kwargs).symm]
  constructor
  · rintro ⟨hcalls, hconstructs, hraises⟩
    simp only [hmem] at hcalls hconstructs
    exact ⟨hcalls, hconstructs, hraises⟩
  · rintro ⟨hcalls, hconstructs, hraises⟩
    simp only [← hmem] at hcalls hconstructs
    exact ⟨hcalls, hconstructs, hraises⟩

/-- A run that raises without a call does so as documented unless it is a `TypeError`. -/
theorem passesDeclared_nil_error_iff
    {spec : FullModelSpec P}
    {failure : ProviderFailure H.Error} :
    PassesDeclared (H := H) spec ⟨[], .error failure⟩ ↔ ∀ message, failure ≠ .typeError message := by
  constructor
  · intro h message heq
    exact h.raises message (congrArg Except.error heq)
  · intro h
    refine ⟨fun _ _ _ hmem => absurd hmem List.not_mem_nil, fun _ hok => (nomatch hok), ?_⟩
    intro message heq
    cases heq
    exact h message rfl

theorem passesDeclared_construct_iff
    (spec : FullModelSpec P)
    (cls : H.Class)
    (kwargs : ModelKwargs F)
    (history : List (ProviderCall H.Class F)) :
    PassesDeclared spec (construct H spec cls kwargs history) ↔ Declared spec cls kwargs := by
  constructor
  · intro h
    exact (h.calls cls spec.id kwargs List.mem_cons_self).2
  · intro h
    refine ⟨?_, fun model _ => ⟨cls, spec.id, kwargs, List.mem_cons_self⟩, ?_⟩
    · intro cls' id' kwargs' hmem
      cases List.mem_singleton.mp hmem
      exact ⟨rfl, h⟩
    · intro message heq
      change Except.mapError _ (H.construct history cls spec.id kwargs) = _ at heq
      cases hanswer : H.construct history cls spec.id kwargs with
      | ok model =>
          rw [hanswer] at heq
          cases heq
      | error error =>
          rw [hanswer] at heq
          cases error <;> cases heq

theorem passesDeclared_checkAndConstruct_iff
    (validateCapabilities : Bool)
    (spec : FullModelSpec P)
    (capabilities : ProviderCapabilities)
    (cls : H.Class)
    (kwargs : ModelKwargs F)
    (history : List (ProviderCall H.Class F)) :
    PassesDeclared spec
        (checkAndConstruct H validateCapabilities spec capabilities cls kwargs history) ↔
      (¬ (validateCapabilities = true ∧
          ModelCapabilitiesValidator.validate H.repr spec capabilities ≠ []) →
        Declared spec cls kwargs) := by
  rw [checkAndConstruct]
  split_ifs with hstop
  · exact iff_of_true (passesDeclared_nil_error_iff.mpr (by simp)) (absurd hstop)
  · rw [passesDeclared_construct_iff]
    exact ⟨fun h _ => h, fun h => h hstop⟩

/-- The steps of `build` after the class has been resolved. -/
def buildWith
    (validateCapabilities : Bool)
    (spec : FullModelSpec P)
    (entry : ProviderRegistryEntry)
    (cls : H.Class) :
    ProviderBuild H H.Model := do
  let kwargs ← ofExcept (composeKwargs H spec cls)
  let kwargs ← injectApiKey H spec kwargs entry.apiKeyEnv
  checkAndConstruct H validateCapabilities spec entry.capabilities cls kwargs

/-- A class that is no dataclass makes the factory raise a `TypeError`. -/
theorem not_passesDeclared_buildWith
    {cls : H.Class}
    (hfields : H.dataclassFields cls = none)
    (validateCapabilities : Bool)
    (spec : FullModelSpec P)
    (entry : ProviderRegistryEntry)
    (history : List (ProviderCall H.Class F)) :
    ¬ PassesDeclared spec (buildWith validateCapabilities spec entry cls history) := by
  intro h
  refine h.raises ("Cannot compose kwargs: " ++ H.repr (H.className cls) ++
    " is not a dataclass. PROVIDER_REGISTRY entries MUST point at Agno Model subclasses.") ?_
  rw [buildWith, composeKwargs, hfields]
  rfl

/-- The key, and then the call: declared if the key is, or if there is no call. -/
theorem passesDeclared_injectApiKey_iff
    {cls : H.Class}
    {fields : List String}
    (hfields : H.dataclassFields cls = some fields)
    (validateCapabilities : Bool)
    (spec : FullModelSpec P)
    (capabilities : ProviderCapabilities)
    (envName : String)
    (history : List (ProviderCall H.Class F)) :
    PassesDeclared spec ((injectApiKey H spec (composed spec fields) (some envName) >>=
        checkAndConstruct H validateCapabilities spec capabilities cls) history) ↔
      ∀ apiKey, H.resolveSecret history envName = .ok (some apiKey) →
        ¬ (validateCapabilities = true ∧
          ModelCapabilitiesValidator.validate H.repr spec capabilities ≠ []) →
        "api_key" ∈ fields := by
  rw [injectApiKey, bind_assoc, resolveSecret]
  cases hsecret : H.resolveSecret history envName with
  | error error =>
      rw [call_bind_of_error (by rw [hsecret]; rfl), passesDeclared_cons_iff (by simp)]
      refine iff_of_true ?_ (fun apiKey h => by cases h)
      exact passesDeclared_nil_error_iff.mpr (by simp)
  | ok secret =>
      rw [call_bind_of_ok (a := secret) (by rw [hsecret]; rfl), passesDeclared_cons_iff (by simp)]
      cases secret with
      | none =>
          refine iff_of_true ?_ (fun apiKey h => by cases h)
          exact passesDeclared_nil_error_iff.mpr (by simp)
      | some apiKey =>
          dsimp only
          rw [pure_bind_eq]
          have hcheck := passesDeclared_checkAndConstruct_iff validateCapabilities spec
            capabilities cls (OrderedDict.set "api_key" (.str apiKey) (composed spec fields))
            (history ++ [.resolveSecret envName])
          rw [declared_set_apiKey_iff hfields] at hcheck
          refine hcheck.trans ⟨fun h apiKey' _ => h, fun h => h apiKey rfl⟩

/-- A dataclass is called with declared arguments if it declares the key that comes through. -/
theorem passesDeclared_buildWith_iff
    {cls : H.Class}
    {fields : List String}
    (hfields : H.dataclassFields cls = some fields)
    (validateCapabilities : Bool)
    (spec : FullModelSpec P)
    (entry : ProviderRegistryEntry)
    (before : List (ProviderCall H.Class F)) :
    PassesDeclared spec (buildWith validateCapabilities spec entry cls
        (before ++ [.resolveClass entry.modulePath entry.className])) ↔
      (KeyComesThrough validateCapabilities spec entry before → "api_key" ∈ fields) := by
  have hcompose : composeKwargs H spec cls = .ok (composed spec fields) := by
    rw [composeKwargs, hfields]
    rfl
  rw [buildWith, hcompose, ofExcept_ok_bind, KeyComesThrough]
  cases entry.apiKeyEnv with
  | none =>
      rw [injectApiKey, pure_bind_eq, passesDeclared_checkAndConstruct_iff]
      exact iff_of_true (fun _ => composed_declared hfields) (by simp)
  | some envName =>
      rw [passesDeclared_injectApiKey_iff hfields]
      constructor
      · rintro h ⟨envName', hmem, apiKey, hsecret, hgo⟩
        cases hmem
        exact h apiKey hsecret hgo
      · intro h apiKey hsecret hgo
        exact h ⟨envName, rfl, apiKey, hsecret, hgo⟩

/--
The factory calls the class with declared arguments, or raises as documented, exactly if the
class is a dataclass, with a field `api_key` if a key comes through to it.
-/
theorem passes_declared_iff
    (validateCapabilities : Bool)
    (spec : FullModelSpec P)
    (before : List (ProviderCall H.Class F)) :
    PassesDeclared spec (build H validateCapabilities spec before) ↔
      ClassSuits validateCapabilities spec before := by
  obtain ⟨entry, hentry⟩ := exists_providerRegistry_entry spec.provider_mem
  have hbuild : build H validateCapabilities spec =
      resolveClass H entry >>= buildWith validateCapabilities spec entry := by
    rw [build, hentry]
    rfl
  rw [hbuild, ClassSuits, hentry, resolveClass]
  simp only [Option.mem_some_iff, forall_eq']
  cases hclass : H.resolveClass before entry.modulePath entry.className with
  | error error =>
      rw [call_bind_of_error (by rw [hclass]; rfl), passesDeclared_cons_iff (by simp)]
      refine iff_of_true ?_ (fun cls h => by cases h)
      exact passesDeclared_nil_error_iff.mpr (by simp)
  | ok cls =>
      rw [call_bind_of_ok (a := cls) (by rw [hclass]; rfl), passesDeclared_cons_iff (by simp)]
      cases hfields : H.dataclassFields cls with
      | none =>
          refine iff_of_false (not_passesDeclared_buildWith hfields _ _ _ _) ?_
          intro h
          obtain ⟨fields, hmem, -⟩ := h cls rfl
          rw [Option.mem_def, hfields] at hmem
          cases hmem
      | some fields =>
          refine (passesDeclared_buildWith_iff hfields _ _ _ _).trans ?_
          constructor
          · rintro h cls' heq
            cases heq
            exact ⟨fields, hfields, h⟩
          · intro h
            obtain ⟨fields', hmem, hkey⟩ := h cls rfl
            rw [Option.mem_def, hfields] at hmem
            cases hmem
            exact hkey

/-- Every class is a dataclass with an `id`, and every secret is there. -/
def keylessHost : ProviderHost ℚ where
  Class := Unit
  Model := Unit
  Error := Unit
  resolveClass _ _ _ := .ok ()
  resolveSecret _ _ := .ok (some "sk-test")
  construct _ _ _ _ := .error (.caught "TypeError" "unexpected keyword argument 'api_key'")
  dataclassFields _ := some ["id"]
  className _ := "Keyless"
  repr text := text

/-- The key is passed to a class that does not declare it. -/
theorem undeclared_apiKey_passed :
    ¬ ∀ (H : ProviderHost ℚ) (validateCapabilities : Bool)
        (spec : FullModelSpec SpecCoercions.exact) (before : List (ProviderCall H.Class ℚ)),
      PassesDeclared spec (build H validateCapabilities spec before) := by
  intro hall
  have hcall : ProviderCall.construct () "gpt-4o" [("api_key", .str "sk-test")] ∈
      (build keylessHost false .gpt4o []).entries := .tail _ (.tail _ (.head _))
  obtain ⟨-, hdeclared⟩ := (hall keylessHost false .gpt4o []).calls _ _ _ hcall
  have hmem := hdeclared.declared ["id"] rfl _ List.mem_cons_self
  exact absurd hmem (by decide)

end ProviderFactory
end YamlAgno

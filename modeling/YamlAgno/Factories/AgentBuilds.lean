import YamlAgno.Di.ProviderFactory
import YamlAgno.Factories.AgentFactory
import YamlAgno.Persistence.StoredAgentConfig
import YamlAgno.Tools.FactoryErrors

/-!
# The build of an agent

`AgentFactory.build` of `factories/agent_factory.py` as a whole, with `SkillsFactory.build` of
`skills/factory.py`.  The tools of a config are built if there is a resolver, its skills if it
has any, its model if there is a provider factory, in this order, and `Agent` is called with
what has come of them.

Each of the three asks the outside in its own way, and each may raise.  What a run of the build
has done is one of two things: it has raised before `Agent` was called, or `Agent` is its last
call and has the arguments that the config says (`run_build`).  The resolver has been asked for
classes of Agno's tools and models only, and for none that the config and the caller do not
need.  The strings of a config are texts without surrogates here.
-/

/-! ## What the factories see of a document -/

namespace PyDocument

/-- A scalar, as the object that it is; `identity` numbers the objects that are seen by their
truth value only. -/
def Scalar.pyValue (identity : Value String → ℕ) : Scalar String → PyValue
  | none => .none
  | bool value => .bool value
  | int value => .int value
  | str value => .str value
  | float repr =>
      .object (identity (.scalar (.float repr))) (repr != "0.0" && repr != "-0.0")
  | bytes value => .object (identity (.scalar (.bytes value))) (!value.isEmpty)
  | date iso => .object (identity (.scalar (.date iso))) true
  | datetime iso => .object (identity (.scalar (.datetime iso))) true

mutual

/-- A value, as the object that it is. -/
def Value.pyValue (identity : Value String → ℕ) : Value String → PyValue
  | .scalar value => value.pyValue identity
  | .list items => .list (pyItems identity items)
  | .tuple items => .object (identity (.tuple items)) (!items.isEmpty)
  | .set members => .object (identity (.set members)) (!members.isEmpty)
  | .dict entries => .dict (pyEntries identity entries)
  | .enclosing levels => .object (identity (.enclosing levels)) true

def pyItems (identity : Value String → ℕ) : List (Value String) → List PyValue
  | [] => []
  | item :: items => item.pyValue identity :: pyItems identity items

def pyEntries (identity : Value String → ℕ) :
    List (Scalar String × Value String) → List (PyValue × PyValue)
  | [] => []
  | (key, value) :: entries =>
      (key.pyValue identity, value.pyValue identity) :: pyEntries identity entries

end

/-- An opaque block. -/
def StrDict.pyDict (identity : Value String → ℕ) (block : StrDict String) : PyDict :=
  block.entries.map fun entry => (entry.1, entry.2.pyValue identity)

end PyDocument

namespace YamlAgno

open Calling PyDocument

/-! ## The schema of skills -/

/-- `SkillsConfig`. -/
structure SkillsConfig where
  path : {text : String // text ≠ ""}
  validateSkills : Bool := true

namespace SkillsConfig

/-- The key that holds `validate_skills`: its alias, else its own name. -/
def validateKey (raw : PyDict) : String :=
  if (raw.lookup "validate").isSome then "validate" else "validate_skills"

/-- The validation of a dictionary; other keys are forbidden. -/
def read (C : Coercions) (raw : PyDict) : Option SkillsConfig := do
  let path ← PyField.required (PyField.checked (fun text => text ≠ "") C.str) raw "path"
  let validateSkills ← PyField.withDefault true C.bool raw (validateKey raw)
  if raw.all (fun entry => entry.1 == "path" || entry.1 == validateKey raw) = true then
    some ⟨path, validateSkills⟩
  else none

end SkillsConfig

/-- What is passed for the skills: a dictionary, or a config that is already parsed. -/
inductive RawSkills where
  | raw (entries : PyDict)
  | parsed (config : SkillsConfig)

/-! ## The calls of a build -/

/-- The arguments of `Agent`; `none` is `None`. -/
structure AgentArguments (Tool Skills Model : Type) where
  name : String
  instructions : Option String
  description : Option String
  model : AgentModel Model
  tools : Option (List Tool)
  toolCallLimit : Option ℤ
  skills : Option Skills

/-- The calls that a build makes outside. -/
inductive AgentCall {F : Type} (T : ToolHost) (M : ProviderHost F) (Loader Skills : Type) where
  | tools (toolCall : ToolCall T.Object)
  | localSkills (path : String) (validate : Bool)
  | skills (loaders : List Loader)
  | models (providerCall : ProviderCall M.Class F)
  | agent (arguments : AgentArguments T.Object Skills M.Model)

namespace AgentCall

variable {F : Type} {T : ToolHost} {M : ProviderHost F} {Loader Skills : Type}

/-- The call, if it is one of the tool modules. -/
def tools? : AgentCall T M Loader Skills → Option (ToolCall T.Object)
  | tools toolCall => some toolCall
  | _ => none

/-- The call, if it is one of the provider factory. -/
def models? : AgentCall T M Loader Skills → Option (ProviderCall M.Class F)
  | models providerCall => some providerCall
  | _ => none

end AgentCall

/-- The resolver, Agno and the schema library. -/
structure AgentHost (F : Type) where
  tools : ToolHost
  models : ProviderHost F
  Loader : Type
  Skills : Type
  Agent : Type
  Error : Type
  localSkills : List (AgentCall tools models Loader Skills) → String → Bool → Except Error Loader
  skills : List (AgentCall tools models Loader Skills) → List Loader → Except Error Skills
  agent : List (AgentCall tools models Loader Skills) →
    AgentArguments tools.Object Skills models.Model → Except Error Agent
  coercions : Coercions
  identity : Value String → ℕ
  repr : String → String

namespace AgentHost

variable {F : Type} (H : AgentHost F)

/-- A call of a build. -/
abbrev Call : Type :=
  AgentCall H.tools H.models H.Loader H.Skills

/-- The arguments of an agent. -/
abbrev Arguments : Type :=
  AgentArguments H.tools.Object H.Skills H.models.Model

end AgentHost

/-- What a build raises. -/
inductive AgentFailure {F : Type} (H : AgentHost F) where
  | tools (failure : ToolFailure H.tools.Error)
  /-- The `ValidationError` of the skills. -/
  | skillsConfig
  | modelSpec (error : SpecError)
  | models (failure : ProviderFailure H.models.Error)
  | propagated (error : H.Error)

/-- A program of the agent factory. -/
abbrev AgentBuild {F : Type} (H : AgentHost F) : Type → Type :=
  Calling H.Call (AgentFailure H)

variable {F : Type} (H : AgentHost F)

namespace SkillsFactory

/-- The config that is passed or validated. -/
def config : RawSkills → Except (AgentFailure H) SkillsConfig
  | .raw entries => (SkillsConfig.read H.coercions entries).elim (.error .skillsConfig) .ok
  | .parsed config => .ok config

/-- `build`. -/
def build : Option RawSkills → AgentBuild H (Option H.Skills)
  | none => pure none
  | some raw => do
      let config ← ofExcept (config H raw)
      let localSkills ← call
        (fun before _ =>
          (H.localSkills before config.path.1 config.validateSkills).mapError .propagated)
        (.localSkills config.path.1 config.validateSkills)
      let skills ← call (fun before _ => (H.skills before [localSkills]).mapError .propagated)
        (.skills [localSkills])
      return some skills

end SkillsFactory

namespace AgentFactory

/-- The optional arguments of `build`: whether there is a resolver, and the setting
`validate_capabilities` of the provider factory, if there is one. -/
structure Wiring where
  resolver : Bool := false
  providerFactory : Option Bool := none

/-- The entries of the tools. -/
def toolEntries (cfg : AgentConfig String) : List RawEntry :=
  cfg.tools.1.map fun entry => .raw (entry.pyDict H.identity)

/-- The tools; without a resolver there are none. -/
def buildTools (resolver : Bool) (cfg : AgentConfig String) : AgentBuild H (List H.tools.Object) :=
  if !cfg.tools.1.isEmpty && resolver then
    within .tools AgentCall.tools? .tools
      (ToolFactory.build (toolEntries H cfg))
  else pure []

/-- The skills; an empty dictionary is as good as none. -/
def buildSkills (cfg : AgentConfig String) : AgentBuild H (Option H.Skills) :=
  match cfg.skills with
  | none => pure none
  | some raw =>
      if raw.entries.isEmpty then pure none
      else SkillsFactory.build H (some (.raw (raw.pyDict H.identity)))

variable (P : SpecCoercions F)

/-- The model: as it is written, or as the provider factory builds it. -/
def passModel (model : String) : Option Bool → AgentBuild H (AgentModel H.models.Model)
  | none => pure (.asWritten model)
  | some validateCapabilities => do
      let spec ← ofExcept ((modelSpec H.repr model).mapError .modelSpec)
      -- The promotion sets no other field (`FullModelSpec.modelValidate_pair`).
      let full : FullModelSpec P := { toModelExpandedSpec := spec }
      let built ← within .models AgentCall.models? .models
        (ProviderFactory.build H.models validateCapabilities full)
      return .built built

/-- The arguments that `build` passes to `Agent`. -/
def arguments (wiring : Wiring) (cfg : AgentConfig String) : AgentBuild H H.Arguments := do
  let tools ← buildTools H wiring.resolver cfg
  let skills ← buildSkills H cfg
  let model ← passModel H P cfg.model.1 wiring.providerFactory
  return {
    name := cfg.name.1
    instructions := cfg.instructions.map (·.1)
    description := cfg.description
    model := model
    tools := MCPResolver.orNone tools
    toolCallLimit := cfg.toolCallLimit.map (·.1)
    skills := skills }

/-- `build`. -/
def build (wiring : Wiring) (cfg : AgentConfig String) : AgentBuild H H.Agent := do
  let args ← arguments H P wiring cfg
  call (fun before _ => (H.agent before args).mapError .propagated) (.agent args)

/-! ## What a build may do -/

variable {H P}

/-- The config has skills to load. -/
def HasSkills (cfg : AgentConfig String) : Prop :=
  ∃ raw ∈ cfg.skills, raw.entries ≠ []

/-- A call that asks for the class of a model asks for one of Agno's. -/
def InsideModels {Class : Type} : ProviderCall Class F → Prop
  | .resolveClass modulePath _ => "agno.models.".toList <+: modulePath.toList
  | .resolveSecret _ | .construct _ _ _ => True

/-- A call that comes before `Agent`: the caller has passed what it is made with, the config
asks for it, and a class is one of Agno's. -/
def Permitted (wiring : Wiring) (cfg : AgentConfig String) : H.Call → Prop
  | .tools toolCall =>
      wiring.resolver = true ∧ cfg.tools.1 ≠ [] ∧ ToolFactory.InsideCall toolCall
  | .localSkills _ _ | .skills _ => HasSkills cfg
  | .models providerCall => wiring.providerFactory ≠ none ∧ InsideModels providerCall
  | .agent _ => False

/-- The arguments of `Agent` say what the config and the caller say, after the calls before the
build. -/
structure Passes
    (P : SpecCoercions F)
    (wiring : Wiring)
    (cfg : AgentConfig String)
    (before : List H.Call)
    (args : H.Arguments) :
    Prop where
  name : args.name = cfg.name.1
  instructions : args.instructions = cfg.instructions.map (·.1)
  description : args.description = cfg.description
  toolCallLimit : args.toolCallLimit = cfg.toolCallLimit.map (·.1)
  no_tools : wiring.resolver = false → args.tools = none
  /-- With a resolver, the tools are what the tool factory has built, entry by entry. -/
  tools : wiring.resolver = true → ∃ tools, args.tools = MCPResolver.orNone tools ∧
    Traversed ToolFactory.buildRaw (toolEntries H cfg) (before.filterMap AgentCall.tools?) tools
  /-- Their entries name paths inside the allowlist only. -/
  inside : wiring.resolver = true →
    ∀ raw ∈ cfg.tools.1, ∀ entry, H.tools.validatePython (raw.pyDict H.identity) = .ok entry →
      ∀ path ∈ entry.dottedPaths, ToolFactory.Inside (ToolFactory.moduleOf path)
  no_skills : ¬ HasSkills cfg → args.skills = none
  /-- The skills are loaded from the path of the validated dictionary, after the tools. -/
  skills : ∀ raw ∈ cfg.skills, raw.entries ≠ [] →
    ∃ config, SkillsConfig.read H.coercions (raw.pyDict H.identity) = some config ∧
      ∃ localSkills, H.localSkills (before ++ (buildTools H wiring.resolver cfg before).entries)
          config.path.1 config.validateSkills = .ok localSkills ∧
        ∃ skills, H.skills (before ++ (buildTools H wiring.resolver cfg before).entries ++
            [.localSkills config.path.1 config.validateSkills]) [localSkills] = .ok skills ∧
          args.skills = some skills
  asWritten : wiring.providerFactory = none → args.model = .asWritten cfg.model.1
  /-- The model is what the provider factory has built of the spec that the text is parsed to. -/
  built : ∀ validateCapabilities ∈ wiring.providerFactory,
    ∃ spec, modelSpec H.repr cfg.model.1 = .ok spec ∧
      ∃ model, (ProviderFactory.build H.models validateCapabilities
          ({ toModelExpandedSpec := spec } : FullModelSpec P)
          (before.filterMap AgentCall.models?)).result = .ok model ∧
        args.model = .built model

/-! ### The model -/

/-- The table names modules of Agno's models only. -/
theorem inside_of_providerRegistry :
    ∀ item ∈ providerRegistry, "agno.models.".toList <+: item.2.modulePath.toList := by
  decide

theorem guarded_injectApiKey
    {M : ProviderHost F}
    (spec : FullModelSpec P)
    (kwargs : ModelKwargs F)
    (envName : Option String) :
    Guarded InsideModels (ProviderFactory.injectApiKey M spec kwargs envName)
      (fun _ => True) := by
  cases envName with
  | none => exact .pure trivial
  | some envName =>
      have hsecret : Guarded InsideModels (ProviderFactory.resolveSecret M envName)
          (fun _ => True) := Guarded.call (P := InsideModels) (w := .resolveSecret envName) trivial
      refine hsecret.bind fun secret _ => ?_
      cases secret with
      | none => exact .ofExcept fun _ _ => trivial
      | some apiKey => exact .pure trivial

theorem guarded_checkAndConstruct
    {M : ProviderHost F}
    (validateCapabilities : Bool)
    (spec : FullModelSpec P)
    (capabilities : ProviderCapabilities)
    (cls : M.Class)
    (kwargs : ModelKwargs F) :
    Guarded InsideModels
      (ProviderFactory.checkAndConstruct M validateCapabilities spec capabilities cls kwargs)
      (fun _ => True) := by
  rw [ProviderFactory.checkAndConstruct]
  by_cases hmismatch : validateCapabilities = true ∧
      ModelCapabilitiesValidator.validate M.repr spec capabilities ≠ []
  · simp only [if_pos hmismatch]
    exact .ofExcept fun _ _ => trivial
  · simp only [if_neg hmismatch]
    unfold ProviderFactory.construct
    exact Guarded.call (P := InsideModels) (w := .construct cls spec.id kwargs) trivial

/-- The provider factory asks for modules of the table only. -/
theorem guarded_providerFactory
    {M : ProviderHost F}
    (validateCapabilities : Bool)
    (spec : FullModelSpec P) :
    Guarded InsideModels (ProviderFactory.build M validateCapabilities spec)
      (fun _ => True) := by
  rw [ProviderFactory.build]
  cases hlookup : providerRegistry.lookup spec.provider with
  | none => exact .ofExcept fun _ _ => trivial
  | some entry =>
      obtain ⟨before, after, htable, -⟩ := List.lookup_eq_some_iff.mp hlookup
      have hinside : "agno.models.".toList <+: entry.modulePath.toList :=
        inside_of_providerRegistry (spec.provider, entry) (by rw [htable]; simp)
      have hclass : Guarded InsideModels (ProviderFactory.resolveClass M entry)
          (fun _ => True) := .call hinside
      refine hclass.bind fun cls _ => ?_
      refine Guarded.bind (Q := fun _ => True) (.ofExcept fun _ _ => trivial) fun kwargs _ => ?_
      refine (guarded_injectApiKey spec kwargs entry.apiKeyEnv).bind fun kwargs _ => ?_
      exact guarded_checkAndConstruct validateCapabilities spec entry.capabilities cls kwargs

/-! ### The parts of a build -/

section Parts

variable {wiring : Wiring} {cfg : AgentConfig String}

theorem guarded_buildTools :
    Guarded (Permitted (H := H) wiring cfg) (buildTools H wiring.resolver cfg)
      (fun _ => wiring.resolver = true → ∀ raw ∈ cfg.tools.1, ∀ entry,
        H.tools.validatePython (raw.pyDict H.identity) = .ok entry →
          ∀ path ∈ entry.dottedPaths, ToolFactory.Inside (ToolFactory.moduleOf path)) := by
  rw [buildTools]
  by_cases hbuild : (!cfg.tools.1.isEmpty && wiring.resolver) = true
  · rw [if_pos hbuild]
    rw [Bool.and_eq_true, Bool.not_eq_true', List.isEmpty_eq_false_iff] at hbuild
    obtain ⟨hne, hresolver⟩ := hbuild
    refine Guarded.mono (Guarded.within (ToolFactory.guarded_build _)
      (fun toolCall hcall => ⟨hresolver, hne, hcall⟩) _ _) fun tools htools _ raw hraw => ?_
    exact htools (.raw (raw.pyDict H.identity)) (List.mem_map.mpr ⟨raw, hraw, rfl⟩)
  · rw [if_neg hbuild]
    refine .pure fun hresolver => ?_
    have hempty : cfg.tools.1 = [] := by
      simpa [hresolver] using hbuild
    rw [hempty]
    simp

theorem guarded_buildSkills :
    Guarded (Permitted (H := H) wiring cfg) (buildSkills H cfg) (fun _ => True) := by
  rw [buildSkills]
  cases hskills : cfg.skills with
  | none => exact .pure trivial
  | some raw =>
      by_cases hempty : raw.entries.isEmpty = true
      · simp only [if_pos hempty]
        exact .pure trivial
      · simp only [if_neg hempty]
        have hhas : HasSkills cfg := ⟨raw, hskills, fun h => hempty (List.isEmpty_iff.mpr h)⟩
        refine Guarded.bind (Q := fun _ => True) (.ofExcept fun _ _ => trivial)
          fun config _ => ?_
        refine Guarded.bind (Guarded.call hhas) fun localSkills _ => ?_
        exact Guarded.bind (Guarded.call hhas) fun skills _ => .pure trivial

theorem guarded_passModel :
    Guarded (Permitted (H := H) wiring cfg) (passModel H P cfg.model.1 wiring.providerFactory)
      (fun _ => True) := by
  cases hfactory : wiring.providerFactory with
  | none => exact .pure trivial
  | some validateCapabilities =>
      have hpermitted : ∀ providerCall : ProviderCall H.models.Class F,
          InsideModels providerCall → Permitted (H := H) wiring cfg (.models providerCall) :=
        fun providerCall hinside => ⟨by rw [hfactory]; exact Option.some_ne_none _, hinside⟩
      refine Guarded.bind (Q := fun _ => True) (.ofExcept fun _ _ => trivial) fun spec _ => ?_
      refine Guarded.bind (Guarded.within (guarded_providerFactory validateCapabilities _)
        hpermitted _ _) fun built _ => .pure trivial

/-- The calls before `Agent`. -/
theorem guarded_arguments :
    Guarded (Permitted (H := H) wiring cfg) (arguments H P wiring cfg) (fun _ => True) :=
  guarded_buildTools.bind fun _ _ => guarded_buildSkills.bind fun _ _ =>
    guarded_passModel.bind fun _ _ => .pure trivial

/-! ### What the parts return -/

/-- With a resolver, the tools are those of the entries in their order. -/
theorem traversed_of_buildTools
    {before : List H.Call}
    {tools : List H.tools.Object}
    (h : (buildTools H true cfg before).result = .ok tools) :
    Traversed ToolFactory.buildRaw (toolEntries H cfg) (before.filterMap AgentCall.tools?)
      tools := by
  rw [buildTools, Bool.and_true] at h
  by_cases hempty : cfg.tools.1.isEmpty = true
  · rw [if_neg (by simp [hempty])] at h
    cases h
    rw [toolEntries, List.isEmpty_iff.mp hempty]
    exact .nil _
  · rw [if_pos (by simpa using hempty)] at h
    exact traversed_of_mapM (Fallible.mapError_eq_ok_iff.mp h)

theorem eq_nil_of_buildTools
    {before : List H.Call}
    {tools : List H.tools.Object}
    (h : (buildTools H false cfg before).result = .ok tools) :
    tools = [] := by
  rw [buildTools, Bool.and_false, if_neg Bool.false_ne_true] at h
  cases h
  rfl

theorem eq_none_of_buildSkills
    {before : List H.Call}
    {skills : Option H.Skills}
    (hno : ¬ HasSkills cfg)
    (h : (buildSkills H cfg before).result = .ok skills) :
    skills = none := by
  rw [buildSkills] at h
  cases hskills : cfg.skills with
  | none =>
      rw [hskills] at h
      cases h
      rfl
  | some raw =>
      have hempty : raw.entries.isEmpty = true := by
        by_contra hne
        exact hno ⟨raw, hskills, fun heq => hne (List.isEmpty_iff.mpr heq)⟩
      rw [hskills] at h
      simp only [if_pos hempty] at h
      cases h
      rfl

/-- The skills are what the two calls return, for the validated dictionary. -/
theorem exists_of_buildSkills
    {before : List H.Call}
    {raw : StrDict String}
    {skills : Option H.Skills}
    (hraw : cfg.skills = some raw)
    (hne : raw.entries ≠ [])
    (h : (buildSkills H cfg before).result = .ok skills) :
    ∃ config, SkillsConfig.read H.coercions (raw.pyDict H.identity) = some config ∧
      ∃ localSkills, H.localSkills before config.path.1 config.validateSkills = .ok localSkills ∧
        ∃ built, H.skills (before ++ [.localSkills config.path.1 config.validateSkills])
            [localSkills] = .ok built ∧ skills = some built := by
  rw [buildSkills, hraw] at h
  simp only [if_neg (mt List.isEmpty_iff.mp hne)] at h
  obtain ⟨config, hconfig, h⟩ := result_bind_eq_ok_iff.mp h
  have hread : SkillsConfig.read H.coercions (raw.pyDict H.identity) = some config := by
    have hconfig' : (SkillsConfig.read H.coercions (raw.pyDict H.identity)).elim
        (.error .skillsConfig) .ok = Except.ok (ε := AgentFailure H) config := hconfig
    cases hread : SkillsConfig.read H.coercions (raw.pyDict H.identity) with
    | none =>
        rw [hread] at hconfig'
        cases hconfig'
    | some config' =>
        rw [hread] at hconfig'
        cases hconfig'
        rfl
  obtain ⟨localSkills, hlocal, h⟩ := result_bind_eq_ok_iff.mp h
  obtain ⟨built, hbuilt, h⟩ := result_bind_eq_ok_iff.mp h
  cases h
  have hhistory : before ++ (ofExcept (W := H.Call) (SkillsFactory.config H
      (.raw (raw.pyDict H.identity))) before).entries = before := List.append_nil _
  rw [hhistory] at hlocal hbuilt
  exact ⟨config, hread, localSkills, Fallible.mapError_eq_ok_iff.mp hlocal, built,
    Fallible.mapError_eq_ok_iff.mp hbuilt, rfl⟩

/-- The first two parts call no provider factory. -/
theorem guarded_no_models :
    Guarded (fun made : H.Call => made.models? = none)
      (buildTools H wiring.resolver cfg >>= fun _ => buildSkills H cfg) (fun _ => True) := by
  refine Guarded.bind (Q := fun _ => True) ?_ fun _ _ => ?_
  · rw [buildTools]
    split_ifs
    · have hnone : ∀ toolCall : ToolCall H.tools.Object, ToolFactory.InsideCall toolCall →
          AgentCall.models? (.tools toolCall : H.Call) = none := fun _ _ => rfl
      exact ((ToolFactory.guarded_build (toolEntries H cfg)).within hnone _ _).mono
        fun _ _ => trivial
    · exact .pure trivial
  · rw [buildSkills]
    cases cfg.skills with
    | none => exact .pure trivial
    | some raw =>
        by_cases hempty : raw.entries.isEmpty = true
        · simp only [if_pos hempty]
          exact .pure trivial
        · simp only [if_neg hempty]
          refine Guarded.bind (Q := fun _ => True) (.ofExcept fun _ _ => trivial)
            fun config _ => ?_
          refine Guarded.bind (Guarded.call rfl) fun localSkills _ => ?_
          exact Guarded.bind (Guarded.call rfl) fun skills _ => .pure trivial

theorem exists_of_passModel
    {before : List H.Call}
    {validateCapabilities : Bool}
    {model : AgentModel H.models.Model}
    (h : (passModel H P cfg.model.1 (some validateCapabilities) before).result = .ok model) :
    ∃ spec, modelSpec H.repr cfg.model.1 = .ok spec ∧
      ∃ built, (ProviderFactory.build H.models validateCapabilities
          ({ toModelExpandedSpec := spec } : FullModelSpec P)
          (before.filterMap AgentCall.models?)).result = .ok built ∧
        model = .built built := by
  obtain ⟨spec, hspec, h⟩ := result_bind_eq_ok_iff.mp h
  obtain ⟨built, hbuilt, h⟩ := result_bind_eq_ok_iff.mp h
  cases h
  have hhistory : before ++ (ofExcept (W := H.Call)
      ((modelSpec H.repr cfg.model.1).mapError (AgentFailure.modelSpec (H := H))) before).entries =
        before := List.append_nil _
  rw [hhistory] at hbuilt
  exact ⟨spec, Fallible.mapError_eq_ok_iff.mp hspec, built,
    Fallible.mapError_eq_ok_iff.mp hbuilt, rfl⟩

/-- The arguments are what parsing and the factories return. -/
theorem passes_of_arguments
    {before : List H.Call}
    {args : H.Arguments}
    (h : (arguments H P wiring cfg before).result = .ok args) :
    Passes P wiring cfg before args := by
  obtain ⟨tools, htools, h⟩ := result_bind_eq_ok_iff.mp h
  obtain ⟨skills, hskills, h⟩ := result_bind_eq_ok_iff.mp h
  obtain ⟨model, hmodel, h⟩ := result_bind_eq_ok_iff.mp h
  cases h
  have hinside := guarded_buildTools.value before tools htools
  -- The provider factory is told of its own calls only.
  have hown : ((before ++ (buildTools H wiring.resolver cfg before).entries ++
      (buildSkills H cfg (before ++ (buildTools H wiring.resolver cfg before).entries)).entries
        ).filterMap AgentCall.models?) = before.filterMap AgentCall.models? := by
    have hguarded : Guarded (fun made : H.Call => made.models? = none)
        (buildTools H wiring.resolver cfg >>= fun _ => buildSkills H cfg) (fun _ => True) :=
      guarded_no_models
    have hnone := hguarded.calls before
    rw [bind_of_ok htools] at hnone
    rw [List.append_assoc, List.filterMap_append, List.filterMap_eq_nil_iff.mpr hnone,
      List.append_nil]
  exact
    { name := rfl
      instructions := rfl
      description := rfl
      toolCallLimit := rfl
      no_tools := fun hresolver => by
        rw [hresolver] at htools
        rw [eq_nil_of_buildTools htools]
        rfl
      tools := fun hresolver => by
        rw [hresolver] at htools
        exact ⟨tools, rfl, traversed_of_buildTools htools⟩
      inside := hinside
      no_skills := fun hno => eq_none_of_buildSkills hno hskills
      skills := fun raw hraw hne => exists_of_buildSkills hraw hne hskills
      asWritten := fun hfactory => by
        rw [hfactory] at hmodel
        cases hmodel
        rfl
      built := fun validateCapabilities hfactory => by
        rw [Option.mem_def.mp hfactory] at hmodel
        obtain ⟨spec, hspec, built, hbuilt, rfl⟩ := exists_of_passModel hmodel
        rw [hown] at hbuilt
        exact ⟨spec, hspec, built, hbuilt, rfl⟩ }

/-- An agent is what `Agent` has returned for arguments that the config says. -/
theorem exists_of_build
    {before : List H.Call}
    {agent : H.Agent}
    (h : (build H P wiring cfg before).result = .ok agent) :
    ∃ history args, Passes P wiring cfg before args ∧ H.agent history args = .ok agent := by
  obtain ⟨args, hargs, hagent⟩ := result_bind_eq_ok_iff.mp h
  exact ⟨_, args, passes_of_arguments hargs, Fallible.mapError_eq_ok_iff.mp hagent⟩

end Parts

/-- What a run of `build` comes to: it raises before `Agent` is called, or `Agent` is called
last and only then, with the arguments that the config says.  Every call before is permitted. -/
theorem run_build
    (wiring : Wiring)
    (cfg : AgentConfig String)
    (before : List H.Call) :
    (∃ calls failure, (∀ made ∈ calls, Permitted wiring cfg made) ∧
        build H P wiring cfg before = ⟨calls, .error failure⟩) ∨
      ∃ calls args, (∀ made ∈ calls, Permitted wiring cfg made) ∧
        Passes P wiring cfg before args ∧
        build H P wiring cfg before =
          ⟨calls ++ [.agent args], (H.agent (before ++ calls) args).mapError .propagated⟩ := by
  have hpermitted : Guarded (Permitted (H := H) wiring cfg) (arguments H P wiring cfg)
      (fun _ => True) := guarded_arguments
  have hcalls := hpermitted.calls before
  cases hargs : (arguments H P wiring cfg before).result with
  | error failure => exact .inl ⟨_, failure, hcalls, bind_of_error hargs _⟩
  | ok args => exact .inr ⟨_, args, hcalls, passes_of_arguments hargs, bind_of_ok hargs _⟩

/-- Nothing fails, and an agent is what `Agent` has been called with. -/
def recordingHostWith (F : Type) (tools : ToolHost) : AgentHost F where
  tools := tools
  models :=
    { Class := Unit
      Model := Unit
      Error := Unit
      resolveClass := fun _ _ _ => .ok ()
      resolveSecret := fun _ _ => .ok none
      construct := fun _ _ _ _ => .ok ()
      dataclassFields := fun _ => some []
      className := fun _ => "Model"
      repr := id }
  Loader := String
  Skills := List String
  Agent := AgentArguments tools.Object (List String) Unit
  Error := Unit
  localSkills _ path _ := .ok path
  skills _ loaders := .ok loaders
  agent _ args := .ok args
  coercions := .exact
  identity _ := 0
  repr := id

/-- That host, with no entry for a tool. -/
abbrev recordingHost (F : Type) : AgentHost F :=
  recordingHostWith F ToolFactory.answeringHost

/-- The entry of every tool is that of the calculator. -/
def calculatorHost : AgentHost ℚ :=
  recordingHostWith ℚ
    { ToolFactory.answeringHost with
      validatePython := fun _ => .ok (.builtin
        { name := "calculator"
          initArgs := []
          extra := []
          name_ne := by decide
          nodup_initArgs := List.nodup_nil
          nodup_extra := List.nodup_nil }) }

/-- A config with a tool, skills and a model without an API key. -/
def equipped : AgentConfig String :=
  { AgentConfig.helper .empty with
    model := ⟨"ollama:llama3", by decide⟩
    tools := ⟨[⟨[("kind", .scalar (.str "builtin")), ("name", .scalar (.str "calculator"))],
      by decide⟩], by decide⟩
    skills := some ⟨[("path", .scalar (.str "skills"))], by decide⟩ }

/-- `Agent` is called with the tool, the skills and the model. -/
theorem run_build_equipped :
    ∃ calls args, (∀ made ∈ calls, Permitted ⟨true, some true⟩ equipped made) ∧
      Passes SpecCoercions.exact ⟨true, some true⟩ equipped [] args ∧
      (build calculatorHost SpecCoercions.exact ⟨true, some true⟩ equipped []).entries =
        calls ++ [.agent args] := by
  have hbuilt : (build calculatorHost SpecCoercions.exact ⟨true, some true⟩ equipped []).result =
      .ok (⟨"helper", none, none, .built (), some [()], none, some ["skills"]⟩ :
        AgentArguments Unit (List String) Unit) := by
    rfl
  rcases run_build (H := calculatorHost) (P := SpecCoercions.exact) ⟨true, some true⟩ equipped
    [] with ⟨calls, failure, -, hrun⟩ | ⟨calls, args, hcalls, hpasses, hrun⟩
  · rw [hrun] at hbuilt
    cases hbuilt
  · exact ⟨calls, args, hcalls, hpasses, by rw [hrun]⟩

/-- A config with a name and a model: nothing is asked for but `Agent`. -/
example (P : SpecCoercions ℚ) :
    build (recordingHost ℚ) P {} (AgentConfig.helper .empty) [] =
      ⟨[.agent ⟨"helper", none, none, .asWritten "openai:gpt-4o", none, none, none⟩],
        .ok ⟨"helper", none, none, .asWritten "openai:gpt-4o", none, none, none⟩⟩ := by
  rfl

end AgentFactory

end YamlAgno

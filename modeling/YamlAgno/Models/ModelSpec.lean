import YamlAgno.Di.AgnoResolver
import YamlAgno.Library.PyRegex

/-!
# Model strings

A model is declared as a string `provider:id`.  `AgentConfig.validate_model_format` of
`models/config/agent_config.py` takes every string with text on both sides of its first
colon; `models/model_spec.py` reads the same string with a regular expression, and
`ProviderResolver` replaces an alias by the provider it stands for.

The expression restricts the characters of the id, the schema does not: for a supported
provider `fromString_eq_ok_iff` says which strings it takes, and how they are read.
-/

namespace YamlAgno

open Fallible PyRegex PyText

/-- `AgentConfig.validate_model_format`. -/
def AgentConfig.validateModelFormat (v : String) : Except String String :=
  let invalid := "Invalid model format: " ++ v ++ ". Expected 'provider:id'."
  if ':' ∉ v.toList then .error invalid
  else
    let (provider, _, modelId) := partition v ':'
    if provider = "" ∨ modelId = "" then .error invalid else .ok v

/-- The class `[A-Za-z0-9_]`. -/
def isWordChar (c : Char) : Bool :=
  ('A' ≤ c ∧ c ≤ 'Z') ∨ ('a' ≤ c ∧ c ≤ 'z') ∨ ('0' ≤ c ∧ c ≤ '9') ∨ c = '_'

/-- The class `[A-Za-z0-9_./\-@]`. -/
def isModelIdChar (c : Char) : Bool :=
  isWordChar c ∨ c = '.' ∨ c = '/' ∨ c = '-' ∨ c = '@'

/-- `_PROVIDER_ID_RE`, between its anchors. -/
def providerIdRe : List Piece :=
  [.many isWordChar, .one (· == ':'), .many isModelIdChar]

/-- What a specification is refused for. -/
inductive SpecError where
  | valueError (message : String)
  /-- A validation error, with the messages of its fields. -/
  | fields (errors : List (String × String))
deriving DecidableEq

/-- `ModelStringSpec`. -/
structure ModelStringSpec where
  provider : String
  id : String
  provider_ne : provider ≠ ""
  id_ne : id ≠ ""

/-- `ModelExpandedSpec`, for a mapping that has no other keys. -/
structure ModelExpandedSpec where
  provider : String
  id : String
  provider_mem : provider ∈ supportedProviders
  id_ne : id ≠ ""

/-- `ModelSpec`. -/
inductive ModelSpec where
  | string (spec : ModelStringSpec)
  | expanded (spec : ModelExpandedSpec)

namespace ModelSpec

def provider : ModelSpec → String
  | string spec => spec.provider
  | expanded spec => spec.provider

def id : ModelSpec → String
  | string spec => spec.id
  | expanded spec => spec.id

end ModelSpec

/-- The error of `min_length=1`. -/
def minLength (field value : String) : List (String × String) :=
  if value = "" then [(field, "String should have at least 1 character")] else []

section Parsing

variable (repr : String → String)

/-- The message about a provider that is not in the catalogue. -/
def unknownProvider (provider : String) : String :=
  "Unknown provider: " ++ repr provider ++ ". Supported providers: [" ++
    ", ".intercalate ((supportedProviders.mergeSort (· ≤ ·)).map repr) ++ "]."

/-- `ModelStringSpec._from_string`. -/
def ModelStringSpec.fromString (value : String) : Except SpecError ModelStringSpec :=
  if matchLine providerIdRe value.toList = false then
    .error (.valueError ("Invalid model string: " ++ repr value ++
      ". Expected 'provider:id' (e.g. 'openai:gpt-4o')."))
  else
    let (provider, _, modelId) := partition value ':'
    if provider ∉ supportedProviders then .error (.valueError (unknownProvider repr provider))
    else if h : provider ≠ "" ∧ modelId ≠ "" then .ok ⟨provider, modelId, h.1, h.2⟩
    else .error (.fields (minLength "provider" provider ++ minLength "id" modelId))

/-- `ModelExpandedSpec.model_validate` of a mapping with a provider and an id. -/
def ModelExpandedSpec.modelValidate (provider id : String) : Except SpecError ModelExpandedSpec :=
  if h : provider ∈ supportedProviders ∧ id ≠ "" then .ok ⟨provider, id, h.1, h.2⟩
  else
    let unknown :=
      if provider = "" ∨ provider ∈ supportedProviders then []
      else [("provider", "Value error, " ++ unknownProvider repr provider)]
    .error (.fields (minLength "provider" provider ++ unknown ++ minLength "id" id))

/-- `parse_model_spec` of a string. -/
def parseModelSpec (obj : String) : Except SpecError ModelSpec :=
  (ModelStringSpec.fromString repr obj).map .string

/-- `ProviderResolver._canonical_provider`, with the proof of its check. -/
def ProviderResolver.canonicalProvider
    (aliases : List (String × String))
    (provider : String) :
    Except SpecError {canonical // canonical ∈ supportedProviders} :=
  let canonical := YamlAgno.canonicalProvider aliases provider
  if h : canonical ∈ supportedProviders then .ok ⟨canonical, h⟩
  else
    .error (.valueError ("Resolved provider " ++ repr canonical ++ " (from " ++ repr provider ++
      ") is not in SUPPORTED_PROVIDERS."))

theorem ne_empty_of_supported
    {provider : String}
    (h : provider ∈ supportedProviders) :
    provider ≠ "" := by
  rintro rfl
  revert h
  decide

/-- `ProviderResolver.resolve`. -/
def ProviderResolver.resolve
    (aliases : List (String × String)) :
    ModelSpec → Except SpecError ModelSpec
  | .string spec => do
      let ⟨canonical, h⟩ ← canonicalProvider repr aliases spec.provider
      return .string { spec with provider := canonical, provider_ne := ne_empty_of_supported h }
  | .expanded spec => do
      let ⟨canonical, h⟩ ← canonicalProvider repr aliases spec.provider
      return .expanded { spec with provider := canonical, provider_mem := h }

variable {repr : String → String} {s : String} {provider id : List Char}

/-! ## What the readers accept -/

theorem partition_of_splitFirst
    (h : splitFirst ':' s.toList = some (provider, id)) :
    partition s ':' = (String.ofList provider, ":", String.ofList id) := by
  rw [partition, h]

theorem ofList_ne_empty_iff
    {cs : List Char} :
    String.ofList cs ≠ "" ↔ cs ≠ [] := by
  rw [Ne, String.ofList_eq_empty_iff]

/-- The schema takes a string with text on both sides of its first colon. -/
theorem validateModelFormat_eq_ok_iff :
    AgentConfig.validateModelFormat s = .ok s ↔
      ∃ provider id, splitFirst ':' s.toList = some (provider, id) ∧ provider ≠ [] ∧ id ≠ [] := by
  rw [AgentConfig.validateModelFormat]
  by_cases hcolon : ':' ∈ s.toList
  · obtain ⟨before, after, hs⟩ := List.append_of_mem hcolon
    obtain ⟨⟨provider, id⟩, hsplit⟩ := splitFirst_append_isSome ':' before after
    rw [← hs] at hsplit
    rw [if_neg (not_not_intro hcolon), partition_of_splitFirst hsplit]
    constructor
    · intro h
      by_cases hempty : String.ofList provider = "" ∨ String.ofList id = ""
      · simp only [if_pos hempty] at h
        cases h
      · rw [not_or] at hempty
        exact ⟨provider, id, hsplit, ofList_ne_empty_iff.mp hempty.1,
          ofList_ne_empty_iff.mp hempty.2⟩
    · rintro ⟨provider', id', hsplit', hprovider, hid⟩
      cases hsplit.symm.trans hsplit'
      have hnot : ¬ (String.ofList provider = "" ∨ String.ofList id = "") :=
        not_or.mpr ⟨ofList_ne_empty_iff.mpr hprovider, ofList_ne_empty_iff.mpr hid⟩
      exact if_neg hnot
  · rw [if_pos hcolon]
    constructor
    · intro h
      cases h
    · rintro ⟨provider, id, hsplit, -, -⟩
      refine absurd ?_ hcolon
      rw [((splitFirst_eq_some_iff ':' s.toList provider id).mp hsplit).1]
      simp

/-- Every supported provider is a word. -/
theorem run_of_supported
    (h : String.ofList provider ∈ supportedProviders) :
    Run isWordChar provider := by
  have hall : ∀ name ∈ supportedProviders, Run isWordChar name.toList := by
    simp only [supportedProviders, List.forall_mem_cons, List.not_mem_nil, false_implies,
      implies_true, and_true, String.reduceToList]
    decide
  simpa using hall _ h

/--
The expression takes a string with a supported provider when its id is a run of the
characters in the class, up to the end of the line.
-/
theorem fromString_eq_ok_iff
    {spec : ModelStringSpec} :
    ModelStringSpec.fromString repr s = .ok spec ↔
      ∃ provider id, splitFirst ':' s.toList = some (provider, id) ∧
        String.ofList provider ∈ supportedProviders ∧ LineRun isModelIdChar id ∧
        spec.provider = String.ofList provider ∧ spec.id = String.ofList id := by
  have hmatch : matchLine providerIdRe s.toList = true ↔
      ∃ provider id, splitFirst ':' s.toList = some (provider, id) ∧
        Run isWordChar provider ∧ LineRun isModelIdChar id :=
    matchLine_fields_iff (by decide)
  rw [ModelStringSpec.fromString]
  constructor
  · intro h
    by_cases hline : matchLine providerIdRe s.toList = false
    · rw [if_pos hline] at h
      cases h
    · rw [if_neg hline] at h
      obtain ⟨provider, id, hsplit, -, hid⟩ := hmatch.mp (by simpa using hline)
      rw [partition_of_splitFirst hsplit] at h
      by_cases hmem : String.ofList provider ∉ supportedProviders
      · simp only [if_pos hmem] at h
        cases h
      · simp only [if_neg hmem] at h
        split at h
        · cases h
          exact ⟨provider, id, hsplit, not_not.mp hmem, hid, rfl, rfl⟩
        · cases h
  · rintro ⟨provider, id, hsplit, hmem, hid, hprovider', hid'⟩
    have hline := hmatch.mpr ⟨provider, id, hsplit, run_of_supported hmem, hid⟩
    have hne : String.ofList provider ≠ "" ∧ String.ofList id ≠ "" :=
      ⟨ne_empty_of_supported hmem, hid' ▸ spec.id_ne⟩
    rw [if_neg (by simp [hline]), partition_of_splitFirst hsplit]
    simp only [if_neg (not_not_intro hmem), dif_pos hne]
    obtain ⟨_, _, _, _⟩ := spec
    subst hprovider' hid'
    rfl

/-- The alias table stays inside the catalogue. -/
theorem canonicalProvider_mem :
    ∀ provider ∈ supportedProviders,
      canonicalProvider providerAliases provider ∈ supportedProviders := by
  decide

/-- A specification with a supported provider keeps its id, the provider becomes canonical. -/
theorem exists_resolve
    (repr : String → String)
    {spec : ModelSpec}
    (h : spec.provider ∈ supportedProviders) :
    ∃ canonical, ProviderResolver.resolve repr providerAliases spec = .ok canonical ∧
      canonical.provider = canonicalProvider providerAliases spec.provider ∧
      canonical.id = spec.id := by
  have hcanonical : ProviderResolver.canonicalProvider repr providerAliases spec.provider =
      .ok ⟨canonicalProvider providerAliases spec.provider, canonicalProvider_mem _ h⟩ :=
    dif_pos (canonicalProvider_mem _ h)
  cases spec with
  | string spec =>
      refine ⟨.string { spec with
        provider := canonicalProvider providerAliases spec.provider
        provider_ne := ne_empty_of_supported (canonicalProvider_mem _ h) }, ?_, rfl, rfl⟩
      exact bind_eq_ok_iff.mpr ⟨_, hcanonical, rfl⟩
  | expanded spec =>
      refine ⟨.expanded { spec with
        provider := canonicalProvider providerAliases spec.provider
        provider_mem := canonicalProvider_mem _ h }, ?_, rfl, rfl⟩
      exact bind_eq_ok_iff.mpr ⟨_, hcanonical, rfl⟩

end Parsing

end YamlAgno

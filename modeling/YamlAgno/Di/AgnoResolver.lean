import YamlAgno.Library.Fallible
import YamlAgno.Library.PyText

/-!
# The resolver of Agno classes

The catalogues of `di/registries.py` and `di/provider_capabilities.py`, and the part of
`di/agno_resolver.py` that turns a model string into a model.  A provider that the second
catalogue supports is in the first one under its canonical name
(`exists_modelRegistry_of_supported`).
-/

namespace YamlAgno

open Fallible

/-- `MODEL_REGISTRY`: module and class of each provider. -/
def modelRegistry : List (String × String × String) :=
  [("anthropic", "agno.models.anthropic", "Claude"),
   ("openai", "agno.models.openai", "OpenAIChat"),
   ("openai_chat", "agno.models.openai", "OpenAIChat"),
   ("openai_responses", "agno.models.openai", "OpenAIResponses"),
   ("google", "agno.models.google", "Gemini"),
   ("mistral", "agno.models.mistral", "MistralChat"),
   ("deepseek", "agno.models.deepseek", "DeepSeek"),
   ("cohere", "agno.models.cohere", "Cohere"),
   ("perplexity", "agno.models.perplexity", "Perplexity"),
   ("xai", "agno.models.xai", "xAI"),
   ("meta", "agno.models.meta", "Llama"),
   ("dashscope", "agno.models.dashscope", "DashScope"),
   ("vercel", "agno.models.vercel", "V0"),
   ("ollama", "agno.models.ollama", "Ollama"),
   ("llamacpp", "agno.models.llama_cpp", "LlamaCpp"),
   ("lm_studio", "agno.models.lmstudio", "LMStudio"),
   ("vllm", "agno.models.vllm", "VLLM"),
   ("bedrock", "agno.models.aws", "AwsBedrock"),
   ("azure", "agno.models.azure", "OpenAIChat"),
   ("vertex", "agno.models.vertexai.claude", "Claude"),
   ("openrouter", "agno.models.openrouter", "OpenRouter"),
   ("together", "agno.models.together", "Together"),
   ("groq", "agno.models.groq", "Groq"),
   ("fireworks", "agno.models.fireworks", "Fireworks"),
   ("langdb", "agno.models.langdb", "LangDB"),
   ("nebius", "agno.models.nebius", "Nebius"),
   ("mistral_gateway", "agno.models.mistral", "MistralChat")]

/-- `PROVIDER_ALIASES`. -/
def providerAliases : List (String × String) :=
  [("openai", "openai_chat")]

/-- The keys of `PROVIDER_REGISTRY`. -/
def supportedProviders : List String :=
  ["anthropic", "openai", "openai_chat", "openai_responses", "google", "mistral", "deepseek",
   "cohere", "perplexity", "xai", "meta", "dashscope", "vercel", "ollama", "llamacpp",
   "lm_studio", "vllm", "bedrock", "azure", "vertex", "openrouter", "together", "groq",
   "fireworks", "langdb", "nebius", "mistral_gateway"]

/-- The provider that an alias stands for. -/
def canonicalProvider (aliases : List (String × String)) (provider : String) : String :=
  (aliases.lookup provider).getD provider

/-- A supported provider is in the model catalogue under its canonical name. -/
theorem exists_modelRegistry_of_supported :
    ∀ provider ∈ supportedProviders, ∃ entry,
      modelRegistry.lookup (canonicalProvider providerAliases provider) = some entry := by
  have hall : ∀ provider ∈ supportedProviders,
      (modelRegistry.lookup (canonicalProvider providerAliases provider)).isSome = true := by
    decide
  exact fun provider hmem => Option.isSome_iff_exists.mp (hall provider hmem)

/-- Exceptions of `resolve_model`; the last are those of the adapter and the constructor. -/
inductive ResolveFailure (E : Type) where
  | valueError (message : String)
  | keyError (message : String)
  | propagated (error : E)

/-- `AgnoResolver`: its adapter, and the constructors of the classes that the adapter loads. -/
structure AgnoResolver (E Class Model : Type) where
  resolveClass : String → String → Except E Class
  construct : Class → String → Except E Model
  models : List (String × String × String) := modelRegistry

namespace AgnoResolver

variable {E Class Model : Type} (repr : String → String)

/-- The provider and the model id that `resolve_model` reads in a model string. -/
def modelKey (spec : String) : Except (ResolveFailure E) (String × String) :=
  match PyText.splitFirst ':' spec.toList with
  | none =>
      .error (.valueError ("Invalid model spec: " ++ repr spec ++ ". Expected 'provider:id'."))
  | some (provider, modelId) =>
      .ok (canonicalProvider providerAliases (String.ofList provider), String.ofList modelId)

/-- `resolve_model`. -/
def resolveModel
    (resolver : AgnoResolver E Class Model)
    (spec : String) :
    Except (ResolveFailure E) Model := do
  let (provider, modelId) ← modelKey repr spec
  match resolver.models.lookup provider with
  | none => .error (.keyError ("Unknown model provider: " ++ repr provider))
  | some (modulePath, className) =>
      let cls ← (resolver.resolveClass modulePath className).mapError .propagated
      (resolver.construct cls modelId).mapError .propagated

/-- A pair in the catalogue is the class that is loaded and the id that it is given. -/
theorem resolveModel_of_modelKey
    {resolver : AgnoResolver E Class Model}
    {spec provider modelId : String}
    {entry : String × String}
    (hkey : modelKey (E := E) repr spec = .ok (provider, modelId))
    (hentry : resolver.models.lookup provider = some entry) :
    resolver.resolveModel repr spec =
      ((resolver.resolveClass entry.1 entry.2).mapError .propagated >>= fun cls =>
        (resolver.construct cls modelId).mapError .propagated) := by
  simp only [resolveModel, hkey, bind, Except.bind, hentry]

end AgnoResolver

end YamlAgno

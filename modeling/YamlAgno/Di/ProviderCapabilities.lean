import YamlAgno.Models.ExpandedSpec

/-!
# Declared capabilities of the providers

`PROVIDER_REGISTRY` of `di/provider_capabilities.py` with the class of each provider, the variable
of its key, and whether it declares caching and reasoning; and the check of
`di/capabilities_validator.py` of a specification against what is declared.
-/

namespace YamlAgno

/-- `ProviderCapabilities`, as far as it is checked. -/
structure ProviderCapabilities where
  caching : Bool
  reasoning : Bool

/-- `ProviderRegistryEntry`. -/
structure ProviderRegistryEntry where
  modulePath : String
  className : String
  /-- `None` for a local provider. -/
  apiKeyEnv : Option String
  capabilities : ProviderCapabilities

/-- `PROVIDER_REGISTRY`. -/
def providerRegistry : List (String × ProviderRegistryEntry) :=
  [("anthropic",
      ⟨"agno.models.anthropic", "Claude", some "ANTHROPIC_API_KEY", ⟨true, true⟩⟩),
   ("openai",
      ⟨"agno.models.openai", "OpenAIChat", some "OPENAI_API_KEY", ⟨true, true⟩⟩),
   ("openai_chat",
      ⟨"agno.models.openai", "OpenAIChat", some "OPENAI_API_KEY", ⟨true, true⟩⟩),
   ("openai_responses",
      ⟨"agno.models.openai", "OpenAIResponses", some "OPENAI_API_KEY", ⟨true, true⟩⟩),
   ("google",
      ⟨"agno.models.google", "Gemini", some "GOOGLE_API_KEY", ⟨true, true⟩⟩),
   ("mistral",
      ⟨"agno.models.mistral", "MistralChat", some "MISTRAL_API_KEY", ⟨false, false⟩⟩),
   ("deepseek",
      ⟨"agno.models.deepseek", "DeepSeek", some "DEEPSEEK_API_KEY", ⟨false, true⟩⟩),
   ("cohere",
      ⟨"agno.models.cohere", "Cohere", some "COHERE_API_KEY", ⟨false, false⟩⟩),
   ("perplexity",
      ⟨"agno.models.perplexity", "Perplexity", some "PERPLEXITY_API_KEY", ⟨false, false⟩⟩),
   ("xai",
      ⟨"agno.models.xai", "xAI", some "XAI_API_KEY", ⟨false, true⟩⟩),
   ("meta",
      ⟨"agno.models.meta", "Llama", some "META_API_KEY", ⟨false, false⟩⟩),
   ("dashscope",
      ⟨"agno.models.dashscope", "DashScope", some "DASHSCOPE_API_KEY", ⟨false, false⟩⟩),
   ("vercel",
      ⟨"agno.models.vercel", "V0", some "VERCEL_API_KEY", ⟨false, false⟩⟩),
   ("ollama",
      ⟨"agno.models.ollama", "Ollama", none, ⟨false, false⟩⟩),
   ("llamacpp",
      ⟨"agno.models.llama_cpp", "LlamaCpp", none, ⟨false, false⟩⟩),
   ("lm_studio",
      ⟨"agno.models.lmstudio", "LMStudio", none, ⟨false, false⟩⟩),
   ("vllm",
      ⟨"agno.models.vllm", "VLLM", none, ⟨false, false⟩⟩),
   ("bedrock",
      ⟨"agno.models.aws", "AwsBedrock", some "AWS_ACCESS_KEY_ID", ⟨false, false⟩⟩),
   ("azure",
      ⟨"agno.models.azure", "OpenAIChat", some "AZURE_OPENAI_API_KEY", ⟨true, true⟩⟩),
   ("vertex",
      ⟨"agno.models.vertexai.claude", "Claude", some "GOOGLE_APPLICATION_CREDENTIALS", ⟨true, true⟩⟩),
   ("openrouter",
      ⟨"agno.models.openrouter", "OpenRouter", some "OPENROUTER_API_KEY", ⟨false, false⟩⟩),
   ("together",
      ⟨"agno.models.together", "Together", some "TOGETHER_API_KEY", ⟨false, false⟩⟩),
   ("groq",
      ⟨"agno.models.groq", "Groq", some "GROQ_API_KEY", ⟨false, false⟩⟩),
   ("fireworks",
      ⟨"agno.models.fireworks", "Fireworks", some "FIREWORKS_API_KEY", ⟨false, false⟩⟩),
   ("langdb",
      ⟨"agno.models.langdb", "LangDB", some "LANGDB_API_KEY", ⟨false, false⟩⟩),
   ("nebius",
      ⟨"agno.models.nebius", "Nebius", some "NEBIUS_API_KEY", ⟨false, false⟩⟩),
   ("mistral_gateway",
      ⟨"agno.models.mistral", "MistralChat", some "MISTRAL_API_KEY", ⟨false, false⟩⟩)]

/-- `SUPPORTED_PROVIDERS` are the keys of the table. -/
theorem keys_providerRegistry :
    providerRegistry.map Prod.fst = supportedProviders :=
  rfl

/-- A supported provider is in the table. -/
theorem exists_providerRegistry_entry
    {provider : String}
    (h : provider ∈ supportedProviders) :
    ∃ entry, providerRegistry.lookup provider = some entry := by
  rw [← Option.ne_none_iff_exists']
  intro hnone
  rw [← keys_providerRegistry] at h
  obtain ⟨item, hitem, rfl⟩ := List.mem_map.mp h
  simpa using List.lookup_eq_none_iff.mp hnone item hitem

namespace ModelCapabilitiesValidator

variable {F : Type} {P : SpecCoercions F} (repr : String → String)

/-- `None`, or the representation of a value. -/
def reprOption {α : Type} (repr : α → String) : Option α → String
  | none => "None"
  | some value => repr value

/-- The representation of a truth value. -/
def reprBool : Bool → String
  | true => "True"
  | false => "False"

/-- `_check_reasoning`. -/
def checkReasoning (spec : FullModelSpec P) (capabilities : ProviderCapabilities) : List String :=
  if (spec.reasoningEffort.isSome ∨ spec.thinking.isSome) ∧ capabilities.reasoning = false then
    ["Provider declares reasoning=False but spec sets reasoning_effort=" ++
      reprOption (fun effort => repr effort.1) spec.reasoningEffort ++ " or thinking=" ++
      reprOption reprBool spec.thinking ++ "."]
  else []

/-- `_check_caching`. -/
def checkCaching (spec : FullModelSpec P) (capabilities : ProviderCapabilities) : List String :=
  if (spec.cacheResponse.isSome ∨ spec.cacheTtl.isSome ∨ spec.cacheDir.isSome) ∧
      capabilities.caching = false then
    ["Provider declares caching=False but spec sets cache_response=" ++
      reprOption reprBool spec.cacheResponse ++ ", cache_ttl=" ++
      reprOption (fun ttl => toString ttl.1) spec.cacheTtl ++ ", or cache_dir=" ++
      reprOption repr spec.cacheDir ++ "."]
  else []

/-- `validate`. -/
def validate (spec : FullModelSpec P) (capabilities : ProviderCapabilities) : List String :=
  checkReasoning repr spec capabilities ++ checkCaching repr spec capabilities

end ModelCapabilitiesValidator
end YamlAgno

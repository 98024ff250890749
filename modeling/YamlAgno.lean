import YamlAgno.Library.PyText
import YamlAgno.Library.Brackets
import YamlAgno.Library.PyRegex
import YamlAgno.Library.PyFormat
import YamlAgno.Library.UrlText
import YamlAgno.Library.PyNumber
import YamlAgno.Library.PyValue
import YamlAgno.Library.PyBuiltins
import YamlAgno.Library.KeepLast
import YamlAgno.Library.Substitution
import YamlAgno.Library.TrackedText
import YamlAgno.Library.Runs
import YamlAgno.Library.TaskPool
import YamlAgno.Library.Fallible
import YamlAgno.Library.Journal
import YamlAgno.Library.Calling
import YamlAgno.Library.ExitStack
import YamlAgno.Library.Attempt
import YamlAgno.Library.Descent
import YamlAgno.Library.Paired
import YamlAgno.Library.OrderedWalk
import YamlAgno.Library.TraceSets
import YamlAgno.Library.NumberedCalls
import YamlAgno.Library.OrderedDict
import YamlAgno.Library.NestedDict
import YamlAgno.Library.PyString
import YamlAgno.Library.PyDocument
import YamlAgno.Library.JsonFormat
import YamlAgno.Library.JsonStrings
import YamlAgno.Library.JsonText
import YamlAgno.Library.JsonKeys
import YamlAgno.Library.SchemaFields
import YamlAgno.Library.YamlFormat
import YamlAgno.Library.RowStore
import YamlAgno.Library.SqlCatalog
import YamlAgno.Library.SqlMemory
import YamlAgno.Library.Unwinding
import YamlAgno.Memory.UserIdentity
import YamlAgno.Memory.PrincipalTemplate
import YamlAgno.Resilience.CircuitBreaker
import YamlAgno.Resilience.ConcurrentBreaker
import YamlAgno.Resilience.BreakerLiveness
import YamlAgno.Resilience.BreakerThreshold
import YamlAgno.Workflow.Config
import YamlAgno.Workflow.Factory
import YamlAgno.Workflow.BuildWalk
import YamlAgno.Workflow.Termination
import YamlAgno.Workflow.BuiltTree
import YamlAgno.Workflow.NestedSteps
import YamlAgno.Workflow.BuildSuccess
import YamlAgno.Workflow.Execution
import YamlAgno.Workflow.ExecutorWrapping
import YamlAgno.Workflow.ConditionEvaluator
import YamlAgno.Workflow.TemplateBraces
import YamlAgno.Workflow.RetryPolicy
import YamlAgno.Workflow.RetryRuns
import YamlAgno.Workflow.RetryDelays
import YamlAgno.Workflow.StepExecutor
import YamlAgno.Workflow.FailFast
import YamlAgno.Workflow.AwaitedWork
import YamlAgno.Agentos.Authorization
import YamlAgno.Agentos.SecretReferences
import YamlAgno.Agentos.ReferenceSyntax
import YamlAgno.Agentos.AuthorizationPaths
import YamlAgno.Api.App
import YamlAgno.Config.FlagRepository
import YamlAgno.Config.FlagLookup
import YamlAgno.Config.Merge
import YamlAgno.Config.Schemas
import YamlAgno.Config.Bootstrap
import YamlAgno.Config.ConfigViews
import YamlAgno.Config.SecretManager
import YamlAgno.Config.Environments
import YamlAgno.Persistence.AgentConfigRepository
import YamlAgno.Persistence.DbRegistry
import YamlAgno.Persistence.RegistryBuilds
import YamlAgno.Persistence.DsnPassword
import YamlAgno.Config.DeclaredSections
import YamlAgno.Config.HotReload
import YamlAgno.Config.SecretAudit
import YamlAgno.Agentos.Lifespan
import YamlAgno.Agentos.ResyncManager
import YamlAgno.Di.ValueResolution
import YamlAgno.Di.TemplateTokens
import YamlAgno.Di.AgnoResolver
import YamlAgno.Models.ModelSpec
import YamlAgno.Models.Grammars
import YamlAgno.Models.ExpandedSpec
import YamlAgno.Models.SpecDump
import YamlAgno.Models.SpecRoundTrip
import YamlAgno.Models.CacheKey
import YamlAgno.Models.FallbackChain
import YamlAgno.Models.FallbackProviders
import YamlAgno.Di.ProviderCapabilities
import YamlAgno.Di.ProviderFactory
import YamlAgno.Persistence.StoredAgentConfig
import YamlAgno.Persistence.TenantRows
import YamlAgno.Tools.Schema
import YamlAgno.Tools.Registry
import YamlAgno.Tools.ToolFactory
import YamlAgno.Tools.FactoryErrors
import YamlAgno.Tools.McpServers
import YamlAgno.Tools.ToolkitArguments
import YamlAgno.Agentos.Interfaces
import YamlAgno.Factories.AgentOSFactory
import YamlAgno.Factories.AgentOSFields
import YamlAgno.Factories.AgentOSKwargs
import YamlAgno.Api.FastapiAppBuilder
import YamlAgno.Factories.AgentFactory
import YamlAgno.Workflow.Meaning
import YamlAgno.Agentos.ResyncRuns
import YamlAgno.Workflow.SharedBreaker
import YamlAgno.Workflow.ParallelSteps
import YamlAgno.Persistence.ConfigQueues
import YamlAgno.Persistence.Provisioner
import YamlAgno.Resilience.OpenCircuit
import YamlAgno.Di.ModelCache
import YamlAgno.Config.ReloadLoops
import YamlAgno.Config.MergeLayers
import YamlAgno.Agentos.InterfaceBuilds
import YamlAgno.Api.YamlBoot

import YamlAgno.Library.Calling
import YamlAgno.Library.Fallible
import YamlAgno.Library.OrderedDict
import YamlAgno.Library.Timedelta
import YamlAgno.Tools.Schema

/-!
# The built-in toolkits

`BUILTIN_REGISTRY` of `tools/registry.py`, and how an adapter of it makes a toolkit: it
resolves the class, renames the arguments by its alias map, drops those that the class does
not declare and calls the class.

The calls to the resolver and to Agno leave the repository: they are those of `ToolCall`, and
what they answer is up to a `ToolHost`.
-/

namespace YamlAgno

open Calling PyNumber

/-- A value of a keyword argument of `@tool`. -/
inductive ToolFlag (Object : Type) where
  | plain (value : PyValue)
  | callable (hook : Object)
  | callables (hooks : List Object)

/-- The arguments of `MCPTools`. -/
inductive McpToolsArguments (Object : Type) where
  | command (command : String) (env : Option (List (String × String)))
  | serverParams (params : Object) (transport : String) (refreshConnection : Bool)
      (headerProvider : Option Object)

/-- The arguments of `MultiMCPTools`; `none` is `None`. -/
structure MultiMcpToolsArguments (Object : Type) where
  commands : Option (List String)
  urls : Option (List String)
  urlsTransports : Option (List String)
  serverParamsList : Option (List Object)
  allowPartialFailure : Bool
  refreshConnection : Bool

/-- The arguments of `SSEClientParams` and `StreamableHTTPClientParams`. -/
structure ClientParamsArguments (Timeout : Type) where
  url : String
  headers : Option (List (String × String))
  timeout : Option Timeout
  sseReadTimeout : Option Timeout

/-- The calls that the build of tools makes outside. -/
inductive ToolCall (Object : Type) where
  | resolveClass (modulePath name : String)
  | toolkit (cls : Object) (kwargs : PyDict)
  | tool (flags : List (String × ToolFlag Object)) (callable : Object)
  | sseClientParams (arguments : ClientParamsArguments PyFloat)
  | streamableHttpClientParams (arguments : ClientParamsArguments Timedelta)
  | mcpTools (arguments : McpToolsArguments Object)
  | multiMcpTools (arguments : MultiMcpToolsArguments Object)

/-- The resolver, Agno and the schema library. -/
structure ToolHost where
  Object : Type
  Error : Type
  /-- What a call returns or raises, after the calls before it. -/
  answer : List (ToolCall Object) → ToolCall Object → Except Error Object
  isType : Object → Bool
  typeName : Object → String
  /-- The parameters of a class, each with whether it is a `**` parameter; `none` if
  `inspect.signature` raises. -/
  signature : Object → Option (List (String × Bool))
  /-- `TypeAdapter(ToolEntry).validate_python`. -/
  validatePython : PyDict → Except Error ToolEntry
  repr : String → String

/-- Exceptions of a build. -/
inductive ToolFailure (E : Type) where
  | valueError (message : String)
  | securityError (message : String)
  | keyError (key : String)
  | assertionError (message : String)
  | overflowError (error : OverflowError)
  | propagated (error : E)

/-- A program of the tool modules. -/
abbrev ToolBuild (H : ToolHost) : Type → Type :=
  Calling (ToolCall H.Object) (ToolFailure H.Error)

/-- A call to the host. -/
def ToolHost.call (H : ToolHost) (toolCall : ToolCall H.Object) : ToolBuild H H.Object :=
  Calling.call (fun before next => (H.answer before next).mapError .propagated) toolCall

/-- `ToolkitAdapter`. -/
structure ToolkitAdapter where
  modulePath : String
  className : String
  aliasMap : List (String × String)

namespace ToolkitAdapter

variable {H : ToolHost}

/-- `_normalize_aliases`. -/
def normalizeAliases (adapter : ToolkitAdapter) (initArgs : PyDict) : PyDict :=
  initArgs.foldl
    (fun kwargs arg => OrderedDict.set ((adapter.aliasMap.lookup arg.1).getD arg.1) arg.2 kwargs) []

/-- `_filter_kwargs`. -/
def filterKwargs (signature : Option (List (String × Bool))) (kwargs : PyDict) : PyDict :=
  match signature with
  | none => kwargs
  | some parameters =>
      if parameters.any (·.2) then kwargs
      else kwargs.filter fun arg => (parameters.map (·.1)).contains arg.1 && arg.1 != "self"

/-- `build`. -/
def build (adapter : ToolkitAdapter) (initArgs : PyDict) : ToolBuild H H.Object := do
  let cls ← H.call (.resolveClass adapter.modulePath adapter.className)
  H.call (.toolkit cls (filterKwargs (H.signature cls) (adapter.normalizeAliases initArgs)))

end ToolkitAdapter

/-- `BUILTIN_REGISTRY`. -/
def builtinRegistry : List (String × ToolkitAdapter) :=
  [("calculator", ⟨"agno.tools.calculator", "CalculatorTools", []⟩),
   ("yfinance", ⟨"agno.tools.yfinance", "YFinanceTools",
      [("stock_price", "enable_stock_price"),
       ("company_info", "enable_company_info"),
       ("news", "enable_company_news"),
       ("analyst", "enable_analyst_recommendations")]⟩),
   ("hackernews", ⟨"agno.tools.hackernews", "HackerNewsTools",
      [("top_stories", "enable_get_top_stories"),
       ("user_details", "enable_get_user_details")]⟩),
   ("duckduckgo", ⟨"agno.tools.duckduckgo", "DuckDuckGoTools", []⟩),
   ("shell", ⟨"agno.tools.shell", "ShellTools", []⟩),
   ("airflow", ⟨"agno.tools.airflow", "AirflowTools", []⟩),
   ("coding", ⟨"agno.tools.coding", "CodingTools", []⟩),
   ("csv_toolkit", ⟨"agno.tools.csv_toolkit", "CsvTools", []⟩),
   ("email", ⟨"agno.tools.email", "EmailTools", []⟩),
   ("file", ⟨"agno.tools.file", "FileTools", []⟩),
   ("file_generation", ⟨"agno.tools.file_generation", "FileGenerationTools", []⟩),
   ("knowledge", ⟨"agno.tools.knowledge", "KnowledgeTools", []⟩),
   ("local_file_system", ⟨"agno.tools.local_file_system", "LocalFileSystemTools", []⟩),
   ("memory", ⟨"agno.tools.memory", "MemoryTools", []⟩),
   ("python", ⟨"agno.tools.python", "PythonTools", []⟩),
   ("reasoning", ⟨"agno.tools.reasoning", "ReasoningTools", []⟩),
   ("sleep", ⟨"agno.tools.sleep", "SleepTools", []⟩),
   ("user_control_flow", ⟨"agno.tools.user_control_flow", "UserControlFlowTools", []⟩),
   ("user_feedback", ⟨"agno.tools.user_feedback", "UserFeedbackTools", []⟩),
   ("webbrowser", ⟨"agno.tools.webbrowser", "WebBrowserTools", []⟩),
   ("website", ⟨"agno.tools.website", "WebsiteTools", []⟩),
   ("visualization", ⟨"agno.tools.visualization", "VisualizationTools", []⟩),
   ("workspace", ⟨"agno.tools.workspace", "Workspace", []⟩),
   ("websearch", ⟨"agno.tools.websearch", "WebSearchTools", []⟩),
   ("unsplash", ⟨"agno.tools.unsplash", "UnsplashTools", []⟩),
   ("llms_txt", ⟨"agno.tools.llms_txt", "LLMsTxtTools", []⟩),
   ("models_labs", ⟨"agno.tools.models_labs", "ModelsLabTools", []⟩),
   ("pubmed", ⟨"agno.tools.pubmed", "PubmedTools", []⟩),
   ("searxng", ⟨"agno.tools.searxng", "Searxng", []⟩),
   ("spotify", ⟨"agno.tools.spotify", "SpotifyTools", []⟩),
   ("webtools", ⟨"agno.tools.webtools", "WebTools", []⟩),
   ("youcom", ⟨"agno.tools.youcom", "YouTools", []⟩),
   ("brandfetch", ⟨"agno.tools.brandfetch", "BrandfetchTools", []⟩),
   ("jina", ⟨"agno.tools.jina", "JinaReaderTools", []⟩),
   ("whatsapp", ⟨"agno.tools.whatsapp", "WhatsAppTools", []⟩),
   ("shopify", ⟨"agno.tools.shopify", "ShopifyTools", []⟩),
   ("desi_vocal", ⟨"agno.tools.desi_vocal", "DesiVocalTools", []⟩),
   ("giphy", ⟨"agno.tools.giphy", "GiphyTools", []⟩),
   ("antigravity", ⟨"agno.tools.antigravity", "AntigravityTools", []⟩),
   ("perplexity", ⟨"agno.tools.perplexity", "PerplexitySearch", []⟩),
   ("studio", ⟨"agno.tools.studio", "StudioTools", []⟩),
   ("bitbucket", ⟨"agno.tools.bitbucket", "BitbucketTools", []⟩),
   ("discord", ⟨"agno.tools.discord", "DiscordTools", []⟩),
   ("linear", ⟨"agno.tools.linear", "LinearTools", []⟩),
   ("searchapi", ⟨"agno.tools.searchapi", "SearchApiTools", []⟩),
   ("serper", ⟨"agno.tools.serper", "SerperTools", []⟩),
   ("sofya", ⟨"agno.tools.sofya", "SofyaTools", []⟩),
   ("zoom", ⟨"agno.tools.zoom", "ZoomTools", []⟩),
   ("financial_datasets", ⟨"agno.tools.financial_datasets", "FinancialDatasetsTools", []⟩),
   ("azure_openai", ⟨"agno.tools.models.azure_openai", "AzureOpenAITools", []⟩),
   ("nebius", ⟨"agno.tools.models.nebius", "NebiusTools", []⟩),
   ("agentql", ⟨"agno.tools.agentql", "AgentQLTools", []⟩),
   ("apify", ⟨"agno.tools.apify", "ApifyTools", []⟩),
   ("arxiv", ⟨"agno.tools.arxiv", "ArxivTools", []⟩),
   ("aws_lambda", ⟨"agno.tools.aws_lambda", "AWSLambdaTools", []⟩),
   ("aws_ses", ⟨"agno.tools.aws_ses", "AWSSESTool", []⟩),
   ("baidusearch", ⟨"agno.tools.baidusearch", "BaiduSearchTools", []⟩),
   ("bravesearch", ⟨"agno.tools.bravesearch", "BraveSearchTools", []⟩),
   ("browserbase", ⟨"agno.tools.browserbase", "BrowserbaseTools", []⟩),
   ("calcom", ⟨"agno.tools.calcom", "CalComTools", []⟩),
   ("cartesia", ⟨"agno.tools.cartesia", "CartesiaTools", []⟩),
   ("clickup", ⟨"agno.tools.clickup", "ClickUpTools", []⟩),
   ("confluence", ⟨"agno.tools.confluence", "ConfluenceTools", []⟩),
   ("crawl4ai", ⟨"agno.tools.crawl4ai", "Crawl4aiTools", []⟩),
   ("dalle", ⟨"agno.tools.dalle", "DalleTools", []⟩),
   ("daytona", ⟨"agno.tools.daytona", "DaytonaTools", []⟩),
   ("docker", ⟨"agno.tools.docker", "DockerTools", []⟩),
   ("docling", ⟨"agno.tools.docling", "DoclingTools", []⟩),
   ("duckdb", ⟨"agno.tools.duckdb", "DuckDbTools", []⟩),
   ("e2b", ⟨"agno.tools.e2b", "E2BTools", []⟩),
   ("eleven_labs", ⟨"agno.tools.eleven_labs", "ElevenLabsTools", []⟩),
   ("evm", ⟨"agno.tools.evm", "EvmTools", []⟩),
   ("exa", ⟨"agno.tools.exa", "ExaTools", []⟩),
   ("fal", ⟨"agno.tools.fal", "FalTools", []⟩),
   ("firecrawl", ⟨"agno.tools.firecrawl", "FirecrawlTools", []⟩),
   ("github", ⟨"agno.tools.github", "GithubTools", []⟩),
   ("gitlab", ⟨"agno.tools.gitlab", "GitlabTools", []⟩),
   ("jira", ⟨"agno.tools.jira", "JiraTools", []⟩),
   ("linkup", ⟨"agno.tools.linkup", "LinkupTools", []⟩),
   ("lumalab", ⟨"agno.tools.lumalab", "LumaLabTools", []⟩),
   ("mem0", ⟨"agno.tools.mem0", "Mem0Tools", []⟩),
   ("mlx_transcribe", ⟨"agno.tools.mlx_transcribe", "MLXTranscribeTools", []⟩),
   ("moviepy_video", ⟨"agno.tools.moviepy_video", "MoviePyVideoTools", []⟩),
   ("nano_banana", ⟨"agno.tools.nano_banana", "NanoBananaTools", []⟩),
   ("neo4j", ⟨"agno.tools.neo4j", "Neo4jTools", []⟩),
   ("newspaper", ⟨"agno.tools.newspaper", "NewspaperTools", []⟩),
   ("newspaper4k", ⟨"agno.tools.newspaper4k", "Newspaper4kTools", []⟩),
   ("notion", ⟨"agno.tools.notion", "NotionTools", []⟩),
   ("openai", ⟨"agno.tools.openai", "OpenAITools", []⟩),
   ("openbb", ⟨"agno.tools.openbb", "OpenBBTools", []⟩),
   ("opencv", ⟨"agno.tools.opencv", "OpenCVTools", []⟩),
   ("openweather", ⟨"agno.tools.openweather", "OpenWeatherTools", []⟩),
   ("oxylabs", ⟨"agno.tools.oxylabs", "OxylabsTools", []⟩),
   ("pandas", ⟨"agno.tools.pandas", "PandasTools", []⟩),
   ("parallel", ⟨"agno.tools.parallel", "ParallelTools", []⟩),
   ("postgres", ⟨"agno.tools.postgres", "PostgresTools", []⟩),
   ("reddit", ⟨"agno.tools.reddit", "RedditTools", []⟩),
   ("redshift", ⟨"agno.tools.redshift", "RedshiftTools", []⟩),
   ("replicate", ⟨"agno.tools.replicate", "ReplicateTools", []⟩),
   ("resend", ⟨"agno.tools.resend", "ResendTools", []⟩),
   ("salesforce", ⟨"agno.tools.salesforce", "SalesforceTools", []⟩),
   ("scavio", ⟨"agno.tools.scavio", "ScavioTools", []⟩),
   ("scrapegraph", ⟨"agno.tools.scrapegraph", "ScrapeGraphTools", []⟩),
   ("seltz", ⟨"agno.tools.seltz", "SeltzTools", []⟩),
   ("serpapi", ⟨"agno.tools.serpapi", "SerpApiTools", []⟩),
   ("slack", ⟨"agno.tools.slack", "SlackTools", []⟩),
   ("spider", ⟨"agno.tools.spider", "SpiderTools", []⟩),
   ("sql", ⟨"agno.tools.sql", "SQLTools", []⟩),
   ("tavily", ⟨"agno.tools.tavily", "TavilyTools", []⟩),
   ("telegram", ⟨"agno.tools.telegram", "TelegramTools", []⟩),
   ("todoist", ⟨"agno.tools.todoist", "TodoistTools", []⟩),
   ("trafilatura", ⟨"agno.tools.trafilatura", "TrafilaturaTools", []⟩),
   ("trello", ⟨"agno.tools.trello", "TrelloTools", []⟩),
   ("twelvelabs", ⟨"agno.tools.twelvelabs", "TwelveLabsTools", []⟩),
   ("twilio", ⟨"agno.tools.twilio", "TwilioTools", []⟩),
   ("valyu", ⟨"agno.tools.valyu", "ValyuTools", []⟩),
   ("webex", ⟨"agno.tools.webex", "WebexTools", []⟩),
   ("wikipedia", ⟨"agno.tools.wikipedia", "WikipediaTools", []⟩),
   ("x", ⟨"agno.tools.x", "XTools", []⟩),
   ("zendesk", ⟨"agno.tools.zendesk", "ZendeskTools", []⟩),
   ("zep", ⟨"agno.tools.zep", "ZepTools", []⟩),
   ("zep_async", ⟨"agno.tools.zep", "ZepAsyncTools", []⟩),
   ("youtube", ⟨"agno.tools.youtube", "YouTubeTools", []⟩),
   ("gemini", ⟨"agno.tools.models.gemini", "GeminiTools", []⟩),
   ("groq", ⟨"agno.tools.models.groq", "GroqTools", []⟩),
   ("morph", ⟨"agno.tools.models.morph", "MorphTools", []⟩),
   ("google_bigquery", ⟨"agno.tools.google.bigquery", "GoogleBigQueryTools", []⟩),
   ("google_calendar", ⟨"agno.tools.google.calendar", "GoogleCalendarTools", []⟩),
   ("google_drive", ⟨"agno.tools.google.drive", "GoogleDriveTools", []⟩),
   ("google_sheets", ⟨"agno.tools.google.sheets", "GoogleSheetsTools", []⟩),
   ("google_slides", ⟨"agno.tools.google.slides", "GoogleSlidesTools", []⟩),
   ("google_maps", ⟨"agno.tools.google.maps", "GoogleMapTools", []⟩),
   ("gmail", ⟨"agno.tools.google.gmail", "GmailTools", []⟩),
   ("brightdata", ⟨"agno.tools.brightdata", "BrightDataTools", []⟩)]

end YamlAgno

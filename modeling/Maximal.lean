import Maximal.Apps.ClaudeCodeConfig
import Maximal.Apps.ClaudeCodeForeign
import Maximal.Apps.ClaudeCodeRestore
import Maximal.Apps.ClaudeDesktop
import Maximal.Auth.AccountFlags
import Maximal.Auth.AccountRegistry
import Maximal.Auth.AdditionalSignIn
import Maximal.Auth.ApiKeyHelper
import Maximal.Auth.BearerOfAccount
import Maximal.Auth.Connectivity
import Maximal.Auth.Controller
import Maximal.Auth.Credential
import Maximal.Auth.FailedSwitch
import Maximal.Auth.FlowOutcome
import Maximal.Auth.Frame
import Maximal.Auth.HelperCommand
import Maximal.Auth.LiveSession
import Maximal.Auth.OneFlow
import Maximal.Auth.OnlineRetry
import Maximal.Auth.Overtaken
import Maximal.Auth.Ownership
import Maximal.Auth.ReauthCleared
import Maximal.Auth.ReauthFlagged
import Maximal.Auth.Recovery
import Maximal.Auth.RegistryFile
import Maximal.Auth.RegistryObject
import Maximal.Auth.RegistryStore
import Maximal.Auth.Reported
import Maximal.Auth.RequestAuth
import Maximal.Auth.ResolveApiKey
import Maximal.Auth.Runtime
import Maximal.Auth.SignOut
import Maximal.Auth.Token
import Maximal.Auth.TokenWrites
import Maximal.Auth.Traced
import Maximal.Auth.Verdict
import Maximal.Config.ApiKeys
import Maximal.Config.Config
import Maximal.Config.ConfigFrame
import Maximal.Config.ConfigKept
import Maximal.Config.ConfigSchema
import Maximal.Control.AccountActions
import Maximal.Control.ControlRpc
import Maximal.Control.RpcDispatch
import Maximal.Copilot.AgentInitiator
import Maximal.Copilot.VisionInput
import Maximal.Github.PollAccessToken
import Maximal.Http.ActiveClients
import Maximal.Http.Listeners
import Maximal.Http.RateLimit
import Maximal.Http.SendRequest
import Maximal.Lib.Batch
import Maximal.Lib.Blocks
import Maximal.Lib.Chain
import Maximal.Lib.Cuts
import Maximal.Lib.Distribution
import Maximal.Lib.Emitter
import Maximal.Lib.FileSystem
import Maximal.Lib.Inquiry
import Maximal.Lib.Js.Counts
import Maximal.Lib.Js.Equality
import Maximal.Lib.Js.Frame
import Maximal.Lib.Js.JsonText
import Maximal.Lib.Js.Map
import Maximal.Lib.Js.Meaning
import Maximal.Lib.Js.Number
import Maximal.Lib.Js.NumberText
import Maximal.Lib.Js.OrderedMap
import Maximal.Lib.Js.Regex
import Maximal.Lib.Js.Schema
import Maximal.Lib.Js.Text
import Maximal.Lib.Js.Value
import Maximal.Lib.Lru
import Maximal.Lib.Meter
import Maximal.Lib.Pages
import Maximal.Lib.Pointwise
import Maximal.Lib.Recency
import Maximal.Lib.Rewrite
import Maximal.Lib.Router
import Maximal.Lib.Runs
import Maximal.Lib.Turns
import Maximal.Lib.Utf8
import Maximal.Lib.Windows
import Maximal.Live.Client
import Maximal.Live.Delivery
import Maximal.Live.Hub
import Maximal.Live.Queue
import Maximal.Live.QueueOrder
import Maximal.Live.Reconnect
import Maximal.Live.Service
import Maximal.Live.ServiceClient
import Maximal.Live.ServiceRuns
import Maximal.Live.StreamSubscription
import Maximal.Live.StreamText
import Maximal.Live.Supervisor
import Maximal.Messages.AnthropicPayload
import Maximal.Messages.AnthropicTypes
import Maximal.Messages.CacheControl
import Maximal.Messages.Carriers
import Maximal.Messages.ChatHistory
import Maximal.Messages.ChatUsage
import Maximal.Messages.ChunkArguments
import Maximal.Messages.ChunkBlocks
import Maximal.Messages.ChunkClosure
import Maximal.Messages.ChunkConservation
import Maximal.Messages.ChunkFrame
import Maximal.Messages.ChunkGrammar
import Maximal.Messages.ChunkText
import Maximal.Messages.ChunkTolerance
import Maximal.Messages.FrameTolerance
import Maximal.Messages.NonStreamTranslation
import Maximal.Messages.Preprocess
import Maximal.Messages.PreprocessConservation
import Maximal.Messages.ResponsesBlocks
import Maximal.Messages.ResponsesDelivery
import Maximal.Messages.ResponsesFailures
import Maximal.Messages.ResponsesFragments
import Maximal.Messages.ResponsesHistory
import Maximal.Messages.ResponsesPartBlocks
import Maximal.Messages.ResponsesParts
import Maximal.Messages.ResponsesRequest
import Maximal.Messages.ResponsesResult
import Maximal.Messages.ResponsesSilence
import Maximal.Messages.ResponsesStreamTranslation
import Maximal.Messages.StreamTranslation
import Maximal.Messages.StreamedBlocks
import Maximal.Messages.ThinkingBudget
import Maximal.Messages.WhitespaceDeltas
import Maximal.Messages.WhitespaceGuard
import Maximal.Models.Catalog
import Maximal.Models.IdRewrite
import Maximal.Models.Models
import Maximal.Models.Refresh
import Maximal.Net.NetworkHysteresis
import Maximal.Platform.AtomicJson
import Maximal.Platform.LogRedact
import Maximal.Platform.Logger
import Maximal.Platform.Migrations
import Maximal.Platform.ProcessCleanup
import Maximal.Platform.ReplaceRunning
import Maximal.Platform.SqliteDbStore
import Maximal.Responses.StreamIdRuns
import Maximal.Responses.StreamIdSync
import Maximal.RuntimeState.Cache
import Maximal.RuntimeState.EventBus
import Maximal.RuntimeState.Recall
import Maximal.Start.BootStatus
import Maximal.Start.Port
import Maximal.Start.Session
import Maximal.Update.UpdateCheck
import Maximal.Update.VersionOrder
import Maximal.Usage.EventsPage
import Maximal.Usage.ProviderStream
import Maximal.Usage.Series
import Maximal.Usage.Store
import Maximal.Usage.Summary
import Maximal.Usage.WriteQueue
import Maximal.WebTools.Agent
import Maximal.WebTools.Agreement
import Maximal.WebTools.CarriedTurns
import Maximal.WebTools.ClientGrammar
import Maximal.WebTools.DeclaredTools
import Maximal.WebTools.DomainPolicy
import Maximal.WebTools.Execution
import Maximal.WebTools.OllamaExecutor
import Maximal.WebTools.Pairing
import Maximal.WebTools.StopReason
import Maximal.WebTools.Stream
import Maximal.WebTools.StreamTurns
import Maximal.WebTools.TurnEvents
import Maximal.WebTools.UsageTotal
import Maximal.WebTools.UseBound

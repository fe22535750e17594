import AiOpenRouter.ResponsesToClaudeBlocks
import AiOpenRouter.ResponsesToClaudeTools
import AiOpenRouter.ChatToClaudeBlocks
import AiOpenRouter.ChatToClaudeTools
import AiOpenRouter.ChatToResponsesItems
import AiOpenRouter.ChatToResponsesUsage
import AiOpenRouter.StreamChunking
import AiOpenRouter.ClientReading
import AiOpenRouter.ChatToClaudeStop
import AiOpenRouter.StreamTruncation
import AiOpenRouter.SseFraming
import AiOpenRouter.SseParsers
import AiOpenRouter.ClaudeStreamToChat
import AiOpenRouter.ClaudeStreamToResponses
import AiOpenRouter.ResponsesStreamToChat
import AiOpenRouter.ResponsesStreamToClaude
import AiOpenRouter.ChatStreamToClaude
import AiOpenRouter.TextToolCalls
import AiOpenRouter.ClaudeRequestToResponses
import AiOpenRouter.KeptInput
import AiOpenRouter.ChatRequestToResponses
import AiOpenRouter.ToolResultTexts
import AiOpenRouter.ResponseBodies
import AiOpenRouter.CallIdentity
import AiOpenRouter.GenerationParameters
import AiOpenRouter.RouteRefresh
import AiOpenRouter.ForwardHeaders
import AiOpenRouter.ConfigStore
import AiOpenRouter.LogStore
import AiOpenRouter.FuzzyRouting
import AiOpenRouter.StatsStore
import AiOpenRouter.RemoteRequests
import AiOpenRouter.StreamUsage
import AiOpenRouter.ConcurrentSaves
import AiOpenRouter.RemoteSessions
import AiOpenRouter.IterationOrder
import AiOpenRouter.ConcurrentImports
import AiOpenRouter.RuntimeSync
import AiOpenRouter.ProviderLookups
import AiOpenRouter.InterruptedMigration
import AiOpenRouter.OwnConflicts
import AiOpenRouter.LostEdits
import AiOpenRouter.EntryTakesEffect
import AiOpenRouter.FailedAgentWrites
import AiOpenRouter.EntryFrame
import AiOpenRouter.IntegrationStore
import AiOpenRouter.AgentPaths
import AiOpenRouter.HeadlessSaves
import AiOpenRouter.ImportModes
import AiOpenRouter.SourceReferences
import AiOpenRouter.AgentSettings
import AiOpenRouter.SettingsReadBack
import AiOpenRouter.NormalForms
import AiOpenRouter.BackupRestore
import AiOpenRouter.RendererConfig
import AiOpenRouter.UneditedSaves
import AiOpenRouter.UiCopy
import AiOpenRouter.RendererRoutes
import AiOpenRouter.MigrationSteps
import AiOpenRouter.ThinkSpans
import AiOpenRouter.RuleSelections
import AiOpenRouter.JsonTexts
import AiOpenRouter.PlaceholderCalls
import AiOpenRouter.QuotaExpressions
import AiOpenRouter.QuotaMappings
import AiOpenRouter.PathReferences
import AiOpenRouter.AorLauncher
import AiOpenRouter.Interleavings
import AiOpenRouter.ProxyPipeline
import AiOpenRouter.LiveCounters
import AiOpenRouter.PipelineAnswers
import AiOpenRouter.ExpressionValues
import AiOpenRouter.QuotaAnswers
import AiOpenRouter.FiniteQuotas
import AiOpenRouter.PathSteps
import AiOpenRouter.CostSnapshots
import AiOpenRouter.PromptTokens
import AiOpenRouter.TokenTotals
import AiOpenRouter.WebUrls
import AiOpenRouter.ServerAddresses
import AiOpenRouter.SsePrelude
import AiOpenRouter.TrimmedPieces
import AiOpenRouter.ModelTestTexts
import AiOpenRouter.HostAndPort
import AiOpenRouter.EntryUrls
import AiOpenRouter.StreamCapture
import AiOpenRouter.CookieValues
import AiOpenRouter.PasswordFile
import AiOpenRouter.ObjectEnds
import AiOpenRouter.TextTemplates
import AiOpenRouter.QuotaQueries
import AiOpenRouter.CaseMappings
import AiOpenRouter.WslPaths
import AiOpenRouter.AgentTargets

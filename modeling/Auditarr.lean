import Auditarr.SeverityInvariant
import Auditarr.TrashDurability
import Auditarr.RuleAggregation
import Auditarr.SwapSafety
import Auditarr.PluginContainment
import Auditarr.NotifyThrottle
import Auditarr.VtEnqueue
import Auditarr.QueueRaces
import Auditarr.ForeignAudio
import Auditarr.AiSuggestions
import Auditarr.PluginPersistence
import Auditarr.PluginRegistry
import Auditarr.PluginOrder
import Auditarr.PlaybackDelivery
import Auditarr.PlexDelivery
import Auditarr.ScanIndex
import Auditarr.ScanOrphans
import Auditarr.ScanSeverity
import Auditarr.SessionManager
import Auditarr.SessionLifecycle
import Auditarr.Calendar
import Auditarr.WindowCounter
import Auditarr.VtQuota
import Auditarr.VtDrain
import Auditarr.Overlay
import Auditarr.PathTranslation
import Auditarr.RuntimeSettings
import Auditarr.Cron
import Auditarr.Scheduler
import Auditarr.SchedulerTicks
import Auditarr.PlaybackAnalyzer
import Auditarr.Updater
import Auditarr.UpdaterHistory
import Auditarr.UpdaterAtomicity
import Auditarr.TracearrPath
import Auditarr.TracearrReconciler
import Auditarr.TracearrRoundTrip
import Auditarr.TracearrCounts
import Auditarr.TagSync
import Auditarr.MediaDelete
import Auditarr.BulkDelete
import Auditarr.AuthService
import Auditarr.CredentialRevocation
import Auditarr.SingleUse
import Auditarr.TokenRaces
import Auditarr.WebhookReceiver
import Auditarr.RulesFrame
import Auditarr.Housekeeping
import Auditarr.RuleImport
import Auditarr.VtScope
import Auditarr.SeverityRank
import Auditarr.AiBudget
import Auditarr.PlaybackHeuristics
import Auditarr.RuleSuggestions
import Auditarr.SuggestionRefresh
import Auditarr.JellyfinDelivery
import Auditarr.SuggestionColumns
import Auditarr.ScanFrame
import Auditarr.ScanParties
import Auditarr.ScanRunLaw
import Auditarr.LanguageSpelling
import Auditarr.NotificationDispatcher
import Auditarr.UpstreamSearches
import Auditarr.RepeatedPass
import Auditarr.ThrottleWindows
import Auditarr.QueueOrder
import Auditarr.SwapFrame
import Auditarr.PassCoverage
import Auditarr.AiContext
import Auditarr.SingleFlight
import Auditarr.Ordinal
import Auditarr.WallCron
import Auditarr.PathPrefixes
import Auditarr.SqlLike
import Auditarr.TagLiteral
import Auditarr.Paging
import Auditarr.MediaListing
import Auditarr.MediaSearch
import Auditarr.EventListing
import Auditarr.BitrateCeiling
import Auditarr.DeviceCounters
import Auditarr.PollCounts
import Auditarr.Versioning
import Auditarr.ListOperators
import Auditarr.UnorderedLimit
import Auditarr.TitleHeuristic
import Auditarr.TextLines
import Auditarr.SseBlock
import Auditarr.AiBatch
import Auditarr.AuditedCalls
import Auditarr.LoginAudit
import Auditarr.ScheduleZones
import Auditarr.SuggestedFiles
import Auditarr.AuthRefinement
import Auditarr.HashFreshness
import Auditarr.RateLimiter
import Auditarr.RuleEditors
import Auditarr.FactoryReset
import Auditarr.PlexLive
import Auditarr.RoutedPoller
import Auditarr.InvertedIndex
import Auditarr.Amounts
import Auditarr.DocSearch
import Auditarr.RoutedRaces
import Auditarr.RuleBundles
import Auditarr.QuarantineMigration
import Auditarr.OffsetCursor
import Auditarr.LogBuffer
import Auditarr.LogPages
import Auditarr.PathMappingStore
import Auditarr.BuiltinRules
import Auditarr.SseStream
import Auditarr.ListenerPool
import Auditarr.Journal
import Auditarr.SettingsHistory
import Auditarr.EventFanout
import Auditarr.PathDiscovery
import Auditarr.Grouping
import Auditarr.Composition
import Auditarr.DashboardStats

import Momento.Foundation.Runs
import Momento.Foundation.Table
import Momento.Foundation.OrderedAggregate
import Momento.Foundation.EveryRow
import Momento.Foundation.Transaction
import Momento.Foundation.NumberText
import Momento.Model.Json
import Momento.Model.KeyPaths
import Momento.Model.Platform
import Momento.Model.Privacy
import Momento.Model.Database
import Momento.Service.Accept
import Momento.Service.Amounts
import Momento.Service.Process
import Momento.Service.DataDeletion
import Momento.Service.Selected
import Momento.Service.Derived
import Momento.Service.Stored
import Momento.Service.Runs
import Momento.Service.Batch
import Momento.Service.Inbox
import Momento.Service.Conservation
import Momento.Service.ContractCheck
import Momento.Service.InboxJobs
import Momento.Service.Redelivery
import Momento.Service.Processable
import Momento.Service.Identity
import Momento.Service.Sessions
import Momento.Service.SessionLabels
import Momento.Service.SessionCounters
import Momento.Service.IdentityLinks
import Momento.Service.DailyMetrics
import Momento.Sdk.Tracker
import Momento.Sdk.Runs
import Momento.Sdk.Custody
import Momento.Sdk.NoSilentLoss
import Momento.Sdk.LossCounter
import Momento.Sdk.Withdrawal
import Momento.Sdk.ConsentStorage
import Momento.Sdk.Attribution
import Momento.Service.SessionProperties
import Momento.Foundation.XmlText
import Momento.Foundation.Binary64Order
import Momento.Foundation.Buckets
import Momento.Model.Figures
import Momento.Automation.Payload
import Momento.Automation.RankedInsights
import Momento.Foundation.OrderStatistics
import Momento.Automation.AnomalyBaseline
import Momento.Automation.ConfluencePage
import Momento.Automation.PageStructure
import Momento.Automation.DeliveredRows
import Momento.Automation.AnomalyState
import Momento.Automation.Announcements
import Momento.Automation.Alternation
import Momento.Service.PiiMasking
import Momento.Service.BlockedCounter
import Momento.Service.BlockedProperties
import Momento.Service.Detectors
import Momento.Service.MaskingTwice
import Momento.Service.Rebuild
import Momento.Service.RollupRetention
import Momento.Service.RetentionClosure
import Momento.Service.KeyStorage
import Momento.Service.KeyIndependence
import Momento.Service.KeySecrecy
import Momento.Foundation.ReadCommitted
import Momento.Foundation.Regexp
import Momento.Service.Interleaving
import Momento.Service.RebuildBooks
import Momento.Service.RebuildInterleaving
import Momento.Service.RebuildRetries
import Momento.Segment.Compile
import Momento.Segment.Hoisting
import Momento.Foundation.LikePattern
import Momento.Foundation.IpText
import Momento.Foundation.IpNetwork
import Momento.Http.NetworkRanges
import Momento.Segment.LikeLiteral
import Momento.Service.Keyring
import Momento.Service.Rekeying
import Momento.Service.Roles
import Momento.Service.Retirement
import Momento.Settings.Store
import Momento.Settings.PartialWrites
import Momento.Settings.Validity
import Momento.Settings.Readability
import Momento.Service.AllowedDomains
import Momento.Service.UrlSanitising
import Momento.Service.MaskedPayload
import Momento.Service.UserAdministration
import Momento.Service.WorkspaceIsolation
import Momento.Service.ErasureCompleteness
import Momento.Reports.CohortMaturity
import Momento.Reports.Funnel
import Momento.Reports.Attribution
import Momento.Reports.FirstSeen
import Momento.Foundation.GroupSummary
import Momento.Reports.DailyTables
import Momento.Foundation.DistinctCount
import Momento.Reports.VisitorFlow
import Momento.Foundation.SortedRows
import Momento.Reports.OverviewTrend
import Momento.Reports.CohortGrid
import Momento.Reports.ChannelCounts
import Momento.Governance.ContractActivation
import Momento.Sdk.RefusedEvent
import Momento.Sdk.SessionBoundaries
import Momento.Sdk.Identifiers
import Momento.Reports.SharedReads
import Momento.Reports.RunParallel
import Momento.Database.Migrations
import Momento.Reports.Periods
import Momento.Reports.SharedHandlers
import Momento.Governance.SemanticMetrics
import Momento.Foundation.FixedWindow
import Momento.Foundation.Timetable
import Momento.Foundation.Since
import Momento.Automation.Deliveries
import Momento.Http.RateLimit
import Momento.Http.ClientAddress
import Momento.Http.OauthDiscovery
import Momento.Http.Credentials
import Momento.Http.McpGate
import Momento.Http.TraceSessions
import Momento.Http.TimelinePages
import Momento.Secret.Rotation
import Momento.Governance.MetricGoals

import ScamOn.Lib.Machine
import ScamOn.Lib.Loop
import ScamOn.Lib.Dict
import ScamOn.Lib.IndexedTable
import ScamOn.Lib.Text
import ScamOn.Lib.Decimal
import ScamOn.Lib.Chars
import ScamOn.Lib.Percent
import ScamOn.Lib.Hex
import ScamOn.Lib.IpAddress
import ScamOn.Lib.UrlParse
import ScamOn.Lib.UrlJoin
import ScamOn.Lib.Floats
import ScamOn.Lib.Json
import ScamOn.Lib.Rounding
import ScamOn.Lib.RingBuffer
import ScamOn.Lib.BoundedQueue
import ScamOn.Lib.Interleaving
import ScamOn.Lib.SlidingWindow
import ScamOn.Lib.DepthFirst
import ScamOn.Lib.TopologicalSort
import ScamOn.Lib.PyValue
import ScamOn.Lib.JsonValue
import ScamOn.Lib.Cosine
import ScamOn.Lib.Ranking
import ScamOn.Lib.FirstOccurrences
import ScamOn.Remediation.PolicyEngine
import ScamOn.Remediation.Dispatcher
import ScamOn.Remediation.Once
import ScamOn.Risk.Assessment
import ScamOn.Risk.Fusion
import ScamOn.Risk.MultimodalScore
import ScamOn.Feedback.Convergence
import ScamOn.Feedback.AuditTrail
import ScamOn.Feedback.Service
import ScamOn.Feedback.Analytics
import ScamOn.Feedback.Tuner
import ScamOn.Common.RedisClient
import ScamOn.Common.LeaseLock
import ScamOn.Common.AsyncRedis
import ScamOn.Common.RateLimiter
import ScamOn.IngestionGateway.Dedup
import ScamOn.IngestionGateway.DedupCalls
import ScamOn.IngestionGateway.RedisDedup
import ScamOn.IngestionGateway.DeadLetterStorage
import ScamOn.IngestionGateway.DeadLetter
import ScamOn.IngestionGateway.DeadLetterRuns
import ScamOn.IngestionGateway.Gateway
import ScamOn.IngestionGateway.Imap
import ScamOn.IngestionGateway.Daemons
import ScamOn.IngestionGateway.Webhook
import ScamOn.IngestionGateway.Routing
import ScamOn.IngestionGateway.Registry
import ScamOn.IngestionGateway.Coordinator
import ScamOn.Notifications.Engine
import ScamOn.Notifications.RateLimit
import ScamOn.Realtime.Broadcaster
import ScamOn.Realtime.TenantGroups
import ScamOn.Messaging.EventBus
import ScamOn.Security.TokenManager
import ScamOn.Security.Sessions
import ScamOn.Security.Password
import ScamOn.Security.AuthService
import ScamOn.ThreatIntel.Resilience
import ScamOn.ThreatIntel.Manager
import ScamOn.ThreatIntel.Throttling
import ScamOn.Analyzers.Url.Normalizer
import ScamOn.Analyzers.Url.Idempotence
import ScamOn.Analyzers.Url.Extractor
import ScamOn.Analyzers.Url.Components
import ScamOn.Analyzers.Url.Observations
import ScamOn.Analyzers.Url.Engine
import ScamOn.Parsing.UrlExtractor
import ScamOn.UrlIntelligence.SsrfValidator
import ScamOn.UrlIntelligence.RedirectExpander
import ScamOn.UrlIntelligence.Pinning
import ScamOn.UrlIntelligence.Pipeline
import ScamOn.Planner.Models
import ScamOn.Planner.Policies
import ScamOn.Planner.Sort
import ScamOn.Planner.Orchestration
import ScamOn.Planner.Runs
import ScamOn.Planner.Dependencies
import ScamOn.Planner.PlannerService
import ScamOn.Planner.Investigator
import ScamOn.Memory.Models
import ScamOn.Memory.VectorStore
import ScamOn.Memory.Retrieval
import ScamOn.Memory.Manager
import ScamOn.Memory.Snapshot
import ScamOn.Memory.PgVectorStore
import ScamOn.Registry.ModuleRegistry
import ScamOn.UrlIntelligence.SsrfSoundness
import ScamOn.UrlIntelligence.Destination
import ScamOn.Lib.Pattern
import ScamOn.Analyzers.Sender.Authentication
import ScamOn.Authentication.SpfEvaluator
import ScamOn.Authentication.Pipeline
import ScamOn.Planner.RiskScoring
import ScamOn.Lib.FixedPoint
import ScamOn.SecurityIntelligence.Detectors
import ScamOn.Planner.Reasoning
import ScamOn.ThreatCorrelation.Pipeline
import ScamOn.Lib.Markup
import ScamOn.Memory.Rag.Sanitizer
import ScamOn.Memory.Rag.ContextBuilder
import ScamOn.Memory.Rag.Engine
import ScamOn.Lib.UuidText
import ScamOn.Lib.KeyedTables
import ScamOn.Ops.Migrator
import ScamOn.Planner.LowVerdict
import ScamOn.Parsing.MimeTree
import ScamOn.Lib.HtmlEvents
import ScamOn.Parsing.HtmlText
import ScamOn.Parsing.LinkExtraction
import ScamOn.Lib.Deletion
import ScamOn.Parsing.HtmlSanitizer
import ScamOn.Parsing.Attachments
import ScamOn.Parsing.Pipeline
import ScamOn.Common.ThreatIntelCache
import ScamOn.Lib.LruCache
import ScamOn.Authentication.DnsResolver
import ScamOn.Common.LruCaches
import ScamOn.Analyzers.Agent.Evidence
import ScamOn.Authentication.ArcValidator
import ScamOn.Notifications.Sanitizer
import ScamOn.Realtime.EventFrame
import ScamOn.Transmission.HopTimeline
import ScamOn.Analyzers.Url.Scanning
import ScamOn.Analyzers.Url.Locality
import ScamOn.Lib.DotSegments
import ScamOn.Analyzers.Url.DotSegments
import ScamOn.Lib.PercentTokens
import ScamOn.Analyzers.Url.Encoding
import ScamOn.Parsing.CanonicalUrl
import ScamOn.UrlIntelligence.VisitedUrls
import ScamOn.Analyzers.Url.AuditTrail
import ScamOn.Analyzers.Url.Spellings
import ScamOn.Lib.Readers
import ScamOn.Lib.EmailAddresses
import ScamOn.Lib.AddressScan
import ScamOn.Lib.AddressBrackets
import ScamOn.Lib.EncodedWords
import ScamOn.Lib.HeaderTails
import ScamOn.Parsing.HeaderParser
import ScamOn.Parsing.DisplayPhrases
import ScamOn.Lib.EditDistance
import ScamOn.SecurityIntelligence.TypoDistance
import ScamOn.SecurityIntelligence.BrandOrder
import ScamOn.Security.LoginRoutes
import ScamOn.Analyzers.Sender.ClaimedStatuses
import ScamOn.Parsing.AttachmentNames
import ScamOn.ThreatCorrelation.CampaignCount
import ScamOn.Risk.FeatureVector
import ScamOn.Lib.Gather
import ScamOn.Analyzers.Agent.AttachmentTool
import ScamOn.Lib.PlainAddresses
import ScamOn.Analyzers.Sender.AddressNormalization
import ScamOn.Analyzers.Sender.AddressPresentations
import ScamOn.Lib.Traced
import ScamOn.Lib.Adjacency
import ScamOn.ThreatCorrelation.GraphBuilder
import ScamOn.ThreatIntel.Enrichment
import ScamOn.Orchestrator.Pipeline
import ScamOn.Orchestrator.Engine
import ScamOn.Ingestion.Sync
import ScamOn.Ingestion.SyncRuns
import ScamOn.AiDecision.Pipeline
import ScamOn.Planner.Explainability
import ScamOn.Lib.Origins
import ScamOn.Memory.Learning
import ScamOn.Memory.LearningLoop
import ScamOn.Memory.Corrections
import ScamOn.Memory.Organizations
import ScamOn.Lib.Cooldown
import ScamOn.Notifications.Subscribers
import ScamOn.Lib.UniqueTable
import ScamOn.Api.Database
import ScamOn.Api.Server
import ScamOn.Api.Isolation
import ScamOn.Api.AuditTrail

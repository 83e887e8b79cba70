import Ketebe.AccessApi
import Ketebe.AcknowledgedWrites
import Ketebe.Activation
import Ketebe.ActivationRecovery
import Ketebe.ApiKeyLifecycle
import Ketebe.ApiKeys
import Ketebe.Authentication
import Ketebe.CharacterChunking
import Ketebe.CheckpointFile
import Ketebe.ChunkCoverage
import Ketebe.Collection
import Ketebe.CollectionAuthorization
import Ketebe.CollectionFiles
import Ketebe.CollectionMetadata
import Ketebe.CollectionPolicies
import Ketebe.CollectionQuota
import Ketebe.CollectionRecovery
import Ketebe.CollectionSession
import Ketebe.Compaction
import Ketebe.ConstrainedRates
import Ketebe.ControlPlane
import Ketebe.ControlPlaneApi
import Ketebe.ControlPlaneCodec
import Ketebe.ControlPlaneFiles
import Ketebe.ControlPlaneRuns
import Ketebe.ControlPlaneStore
import Ketebe.ControlPlaneUpdates
import Ketebe.CostPlanner
import Ketebe.CursorFiles
import Ketebe.CursorReaders
import Ketebe.CutoverOverlap
import Ketebe.CutoverRecovery
import Ketebe.DataPlaneIsolation
import Ketebe.DataPlaneRequest
import Ketebe.DocumentChunks
import Ketebe.DocumentReplacement
import Ketebe.Doubles
import Ketebe.EmbeddingCache
import Ketebe.EmbeddingMigration
import Ketebe.ExactReads
import Ketebe.FilteredSearch
import Ketebe.FloatScores
import Ketebe.Governance
import Ketebe.Grants
import Ketebe.Hnsw
import Ketebe.HnswBuild
import Ketebe.HnswEdges
import Ketebe.HnswExact
import Ketebe.HnswGraph
import Ketebe.HnswReach
import Ketebe.HnswSnapshot
import Ketebe.HnswSnapshotCodec
import Ketebe.HnswTraversal
import Ketebe.HtmlBoundaries
import Ketebe.HybridQuery
import Ketebe.Identifiers
import Ketebe.Incarnations
import Ketebe.IndexHistory
import Ketebe.IntegrityVerifier
import Ketebe.JobAccounts
import Ketebe.Jobs
import Ketebe.KafkaFlush
import Ketebe.KafkaIngestion
import Ketebe.KafkaLoop
import Ketebe.KafkaPoison
import Ketebe.KafkaRebalance
import Ketebe.LexicalAnswers
import Ketebe.LexicalBuilds
import Ketebe.LexicalBuildsSafety
import Ketebe.LexicalCorruption
import Ketebe.LexicalHistory
import Ketebe.LexicalIndex
import Ketebe.LexicalRuntime
import Ketebe.LexicalSnapshot
import Ketebe.LexicalStore
import Ketebe.LexicalWriters
import Ketebe.Lib.Attempts
import Ketebe.Lib.BinaryPrecision
import Ketebe.Lib.BoundedSort
import Ketebe.Lib.ByteCodec
import Ketebe.Lib.CachedFile
import Ketebe.Lib.CheckedCursor
import Ketebe.Lib.Directories
import Ketebe.Lib.Durable
import Ketebe.Lib.FairRuns
import Ketebe.Lib.FixedWindow
import Ketebe.Lib.Frame
import Ketebe.Lib.FramedFile
import Ketebe.Lib.Groups
import Ketebe.Lib.KeyedTable
import Ketebe.Lib.LatestVersion
import Ketebe.Lib.LruCache
import Ketebe.Lib.Occurrences
import Ketebe.Lib.OrderedSources
import Ketebe.Lib.PrefixCode
import Ketebe.Lib.Runs
import Ketebe.Lib.SequentialTasks
import Ketebe.Lib.SlidingLog
import Ketebe.Lib.SlidingWindows
import Ketebe.Lib.SortedSet
import Ketebe.Lib.Tally
import Ketebe.Lib.TaskAnswers
import Ketebe.Lib.WholeFiles
import Ketebe.Lib.Words
import Ketebe.Lifecycle
import Ketebe.Lowercase
import Ketebe.McpContext
import Ketebe.McpFusion
import Ketebe.McpRateLimit
import Ketebe.Memberships
import Ketebe.MigratedRecords
import Ketebe.NamespaceCatalog
import Ketebe.NamespaceOwnership
import Ketebe.OrganizationGovernance
import Ketebe.Ownership
import Ketebe.Predicate
import Ketebe.ProfileCutover
import Ketebe.ProfileVersions
import Ketebe.ProjectDeletion
import Ketebe.ProjectRequests
import Ketebe.Provenance
import Ketebe.QueryCursors
import Ketebe.QueryReranking
import Ketebe.RankFusion
import Ketebe.RateWindows
import Ketebe.ReadPaths
import Ketebe.Record
import Ketebe.RecordFetch
import Ketebe.RecordSizes
import Ketebe.RequestAuthorization
import Ketebe.Reranking
import Ketebe.ResourceAccounts
import Ketebe.ResourceGovernance
import Ketebe.ResourceScheduler
import Ketebe.RestMetadata
import Ketebe.Runtime
import Ketebe.Scope
import Ketebe.Score
import Ketebe.Search
import Ketebe.SearchPages
import Ketebe.SearchProfileStore
import Ketebe.SearchProfiles
import Ketebe.SecurityFailures
import Ketebe.SecurityStores
import Ketebe.Segment
import Ketebe.SegmentCodec
import Ketebe.SegmentFiles
import Ketebe.SegmentStore
import Ketebe.ServiceAccounts
import Ketebe.SharedMemberships
import Ketebe.StoreHistory
import Ketebe.StoreIntegrity
import Ketebe.StoreNumbers
import Ketebe.StoreProgress
import Ketebe.StoreSoundness
import Ketebe.StoreStep
import Ketebe.StreamIngestion
import Ketebe.TenantPolicies
import Ketebe.TextBoundaries
import Ketebe.TokenChunking
import Ketebe.Wal
import Ketebe.WalAppend
import Ketebe.WalCodec
import Ketebe.WalFailures
import Ketebe.WalReclaim
import Ketebe.WalRecovery
import Ketebe.WalReplay
import Ketebe.WalRoundTrip
import Ketebe.WriteService

import TurbineProxy.Accounts
import TurbineProxy.Accumulators
import TurbineProxy.Admission
import TurbineProxy.AlikeTexts
import TurbineProxy.AllowedQueries
import TurbineProxy.AllowedTokens
import TurbineProxy.AnalyticsFlush
import TurbineProxy.AppAnalytics
import TurbineProxy.AtMostOnce
import TurbineProxy.Attribution
import TurbineProxy.AuditLog
import TurbineProxy.AuthCache
import TurbineProxy.Backend
import TurbineProxy.BackendCompression
import TurbineProxy.BackendPool
import TurbineProxy.Breaker
import TurbineProxy.BreakerHistory
import TurbineProxy.CacheHistory
import TurbineProxy.CacheKeys
import TurbineProxy.CacheWorld
import TurbineProxy.Calendar
import TurbineProxy.Claims
import TurbineProxy.Classifier
import TurbineProxy.ClusterSync
import TurbineProxy.Coherence
import TurbineProxy.Collector
import TurbineProxy.CompressedReader
import TurbineProxy.CompressedWriter
import TurbineProxy.ConfigApi
import TurbineProxy.ConfigExport
import TurbineProxy.ConfigFile
import TurbineProxy.ConfigInStep
import TurbineProxy.ConfigReplace
import TurbineProxy.ConfigRoundTrip
import TurbineProxy.ConfigSecrets
import TurbineProxy.ConfigStore
import TurbineProxy.ConfigTypes
import TurbineProxy.Custody
import TurbineProxy.DashboardAuth
import TurbineProxy.DryRun
import TurbineProxy.Duplex
import TurbineProxy.Enforcement
import TurbineProxy.EpochFormat
import TurbineProxy.Exchanges
import TurbineProxy.Failover
import TurbineProxy.FailoverChoice
import TurbineProxy.FallbackOrder
import TurbineProxy.FingerprintFixpoints
import TurbineProxy.FingerprintTexts
import TurbineProxy.Fingerprints
import TurbineProxy.Flaps
import TurbineProxy.ForcedLimits
import TurbineProxy.Framing
import TurbineProxy.Gates
import TurbineProxy.Gauges
import TurbineProxy.Greeting
import TurbineProxy.GroupReplication
import TurbineProxy.HalfOpen
import TurbineProxy.HandshakeResponse
import TurbineProxy.Homing
import TurbineProxy.IdleKills
import TurbineProxy.IndexAdvisor
import TurbineProxy.Isolation
import TurbineProxy.Json
import TurbineProxy.JsonSearch
import TurbineProxy.Judged
import TurbineProxy.KeyedRows
import TurbineProxy.Kills
import TurbineProxy.LeadingComments
import TurbineProxy.Lenenc
import TurbineProxy.Listener
import TurbineProxy.LockingReads
import TurbineProxy.LogLines
import TurbineProxy.LoginLimiter
import TurbineProxy.MaskedRows
import TurbineProxy.MysqlAdmission
import TurbineProxy.MysqlConnect
import TurbineProxy.MysqlLogins
import TurbineProxy.MysqlSession
import TurbineProxy.MysqlSpec
import TurbineProxy.MysqlSteps
import TurbineProxy.MysqlWire
import TurbineProxy.OneRule
import TurbineProxy.Ownership
import TurbineProxy.PacketCodec
import TurbineProxy.PasswordTokens
import TurbineProxy.PgAdmission
import TurbineProxy.PgDialogue
import TurbineProxy.PgFrames
import TurbineProxy.PgLeftovers
import TurbineProxy.PgLogins
import TurbineProxy.PgPipelines
import TurbineProxy.PgReprepare
import TurbineProxy.PgScan
import TurbineProxy.PgSession
import TurbineProxy.PgSpec
import TurbineProxy.PgTransactions
import TurbineProxy.PgsqlSettings
import TurbineProxy.Pinning
import TurbineProxy.Policy
import TurbineProxy.Pool
import TurbineProxy.PoolOps
import TurbineProxy.PrepareReplies
import TurbineProxy.Prog
import TurbineProxy.ProxyAddresses
import TurbineProxy.ProxyProtocol
import TurbineProxy.QueryCache
import TurbineProxy.QueryPages
import TurbineProxy.QueryStats
import TurbineProxy.QueryText
import TurbineProxy.ReadLedger
import TurbineProxy.ReadRoutes
import TurbineProxy.ReadSessions
import TurbineProxy.ReadYourWrites
import TurbineProxy.Recovery
import TurbineProxy.RegressionStore
import TurbineProxy.Reload
import TurbineProxy.ReplicaLag
import TurbineProxy.ResultSet
import TurbineProxy.Rewriter
import TurbineProxy.Rollup
import TurbineProxy.RoundRobin
import TurbineProxy.RouteOps
import TurbineProxy.Router
import TurbineProxy.RouterSpec
import TurbineProxy.Rules
import TurbineProxy.Scram
import TurbineProxy.Secret
import TurbineProxy.SessionState
import TurbineProxy.SessionTokens
import TurbineProxy.SessionTrack
import TurbineProxy.SessionVars
import TurbineProxy.Sickness
import TurbineProxy.Spreads
import TurbineProxy.Sql
import TurbineProxy.SqlBoundaries
import TurbineProxy.SqlLexer
import TurbineProxy.StaleFills
import TurbineProxy.StmtConnections
import TurbineProxy.StmtIds
import TurbineProxy.StmtShadow
import TurbineProxy.TableLayouts
import TurbineProxy.Tenants
import TurbineProxy.Text
import TurbineProxy.TextFields
import TurbineProxy.TextRows
import TurbineProxy.TextSearch
import TurbineProxy.Threads
import TurbineProxy.Throughput
import TurbineProxy.TimeoutHint
import TurbineProxy.Timeseries
import TurbineProxy.TokenBucket
import TurbineProxy.TokenRaces
import TurbineProxy.Toml
import TurbineProxy.TomlText
import TurbineProxy.Transactions
import TurbineProxy.TxTimers
import TurbineProxy.UserAdmission
import TurbineProxy.UserVariables
import TurbineProxy.Utf8
import TurbineProxy.World

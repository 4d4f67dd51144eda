import TurbineProxy.Secret

/-!
# The records of the configuration

`config/mod.rs`: query rules, rewrite rules, backends and users, as the configuration file declares
them. `Config` is the namespace of the file's own types: the routing model has its own, smaller
`BackendConfig`.
-/

namespace TurbineProxy.Config

/-- Where a query rule sends its queries. -/
inductive RuleDestination : Type where
  | any
  | primary
  | replica
  deriving DecidableEq

/-- `QueryRuleConfig` -/
structure QueryRuleConfig where
  /-- regex on the raw text -/
  matchPattern : Option Str
  /-- exact fingerprint -/
  matchDigest : Option Str
  /-- everyone when empty -/
  user : Str
  /-- every one when empty -/
  schema : Str
  destination : RuleDestination
  /-- 0 disables caching -/
  cacheTtlSecs : UInt64
  /-- shown in the dashboard -/
  comment : Str
  /-- a server that gets a copy of the queries -/
  mirrorTo : Option Str
  /-- takes precedence over `destination` -/
  destinationHostgroup : Option UInt32
  /-- percentage of the matching queries -/
  rolloutPct : Option UInt8
  /-- queries per second; unlimited when unset -/
  qpsLimit : Option UInt32
  /-- log only -/
  dryRun : Bool
  /-- bypass the pipeline -/
  fastForward : Bool
  deriving DecidableEq

/-- `QueryRewriteConfig` -/
structure QueryRewriteConfig where
  /-- regex on the raw text -/
  matchPattern : Str
  /-- substituted for it -/
  replaceWith : Option Str
  /-- LIMIT to add -/
  addLimit : Option UInt32
  /-- execution time limit to add -/
  addTimeoutMs : Option UInt64
  /-- reject the query -/
  block : Bool
  /-- shown in the dashboard -/
  comment : Str
  deriving DecidableEq

/-- `TlsMode` -/
inductive TlsMode : Type where
  | off
  | required
  | verifyCa
  | verifyIdentity
  deriving DecidableEq

/-- `BackendCompression` -/
inductive BackendCompression : Type where
  | none
  | zlib
  | zstd
  deriving DecidableEq

/-- `BackendConfig` -/
structure BackendConfig where
  /-- `host:port` -/
  addr : Str
  user : Str
  /-- a literal or a reference -/
  password : Str
  /-- default database -/
  database : Option Str
  tlsMode : TlsMode
  /-- CA bundle -/
  tlsCa : Option Str
  /-- client certificate -/
  tlsCert : Option Str
  /-- client key -/
  tlsKey : Option Str
  /-- weight in the replica round-robin -/
  weight : UInt32
  /-- last resort -/
  backup : Bool
  /-- statements executed on every new connection -/
  initConnect : List Str
  compression : BackendCompression
  /-- `system`, `ipv4` or `ipv6` -/
  resolutionFamily : Str
  /-- file for TLS secrets -/
  sslKeylogFile : Str
  /-- cap on open connections -/
  maxConnections : Option UInt64
  deriving DecidableEq

/-- `UserConfig` -/
structure UserConfig where
  name : Str
  /-- a literal or a reference -/
  password : Str
  /-- may execute more than reads -/
  allowWrites : Bool
  /-- unlimited when 0 -/
  maxConnections : UInt64
  /-- `USE`d at the start of a session -/
  defaultSchema : Str
  /-- set at the start of a session -/
  transactionIsolation : Str
  deriving DecidableEq

/-- `BackendConfig::resolved_password` -/
def BackendConfig.resolvedPassword (sur : Surroundings) (b : BackendConfig) : Str :=
  resolveSecret sur b.password

/-- `UserConfig::resolved_password` -/
def UserConfig.resolvedPassword (sur : Surroundings) (u : UserConfig) : Str :=
  resolveSecret sur u.password

end TurbineProxy.Config

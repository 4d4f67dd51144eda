import TurbineProxy.ConfigTypes
import TurbineProxy.Toml

/-!
# Reading the configuration file

`config/mod.rs`: `ProxyConfig::from_str` reads a `RawProxyConfig`, in which everything may be missing,
and fills it up from `[shared]`, `[pgsql]` and the defaults. The dashboard reads the same text in three
places, and always as a `ProxyConfig` directly. `readers_disagree` compares the two.

The `toml` crate, which makes a table of a text, is a parameter. So are the deserialisers of the nested
records, which both readers use in the same way.
-/

namespace TurbineProxy.Config

open Toml

/-- `PgsqlConfig`: the fields that `[pgsql]` shares with the other sections, and the others. -/
structure PgsqlConfig (PgRest : Type) where
  primary : Option BackendConfig
  replicas : List BackendConfig
  users : List UserConfig
  /-- the fields that are only read by the PostgreSQL side -/
  rest : PgRest

/-- `SharedConfig` -/
structure SharedConfig where
  listenAddr : Option Str
  maxConnections : Option UInt64
  poolSize : Option UInt64
  primary : Option BackendConfig
  replicas : List BackendConfig
  users : List UserConfig
  authCacheTtlSecs : Option UInt64
  connectionMaxIdleSecs : Option UInt64
  readYourOwnWritesMs : Option UInt64
  queryWhitelist : List Str
  sqlInjectionProtection : Option Bool
  auditLog : Option Str

/-- `SharedConfig::default` -/
def SharedConfig.empty : SharedConfig :=
  ⟨none, none, none, none, [], [], none, none, none, [], none, none⟩

/-- `RawProxyConfig`: the fields that `ProxyConfig` declares in another way, the rules, `[pgsql]`, and
the others, which both declare with the same types and defaults. -/
structure RawProxyConfig (Rest PgRest : Type) where
  shared : Option SharedConfig
  listenAddr : Option Str
  maxConnections : Option UInt64
  poolSize : Option UInt64
  primary : Option BackendConfig
  replicas : List BackendConfig
  users : List UserConfig
  authCacheTtlSecs : Option UInt64
  connectionMaxIdleSecs : Option UInt64
  queryRules : List QueryRuleConfig
  rewriteRules : List QueryRewriteConfig
  readYourOwnWritesMs : Option UInt64
  queryWhitelist : List Str
  sqlInjectionProtection : Option Bool
  auditLog : Option Str
  pgsql : PgsqlConfig PgRest
  /-- from `pool_wait_queue_size` and `analytics` to `server_version` -/
  rest : Rest

/-- `ProxyConfig` -/
structure ProxyConfig (Rest PgRest : Type) where
  /-- `#[serde(skip)]` -/
  mysqlEnabled : Bool
  listenAddr : Str
  maxConnections : UInt64
  poolSize : UInt64
  primary : BackendConfig
  replicas : List BackendConfig
  users : List UserConfig
  authCacheTtlSecs : UInt64
  connectionMaxIdleSecs : UInt64
  queryRules : List QueryRuleConfig
  rewriteRules : List QueryRewriteConfig
  readYourOwnWritesMs : UInt64
  queryWhitelist : List Str
  sqlInjectionProtection : Bool
  auditLog : Str
  pgsql : PgsqlConfig PgRest
  rest : Rest

/-- `default_listen_addr` -/
def defaultListenAddr : Str := "0.0.0.0:3307".toList

/-- `default_max_connections` -/
def defaultMaxConnections : UInt64 := 1000

/-- `default_pool_size` -/
def defaultPoolSize : UInt64 := 20

/-- `default_auth_cache_ttl` -/
def defaultAuthCacheTtl : UInt64 := 300

/-- `default_connection_max_idle_secs` -/
def defaultConnectionMaxIdleSecs : UInt64 := 55

/-! ## The two deserialisers -/

/-- The deserialisers of what is nested in a configuration. -/
structure Serde (Rest PgRest : Type) where
  backend : Value → Option BackendConfig
  user : Value → Option UserConfig
  queryRule : Value → Option QueryRuleConfig
  rewriteRule : Value → Option QueryRewriteConfig
  pgsql : Value → Option (PgsqlConfig PgRest)
  /-- `PgsqlConfig::default` -/
  pgsqlDefault : PgsqlConfig PgRest
  /-- the fields that both structures declare in the same way -/
  rest : Table → Option Rest

/-! ## The records -/

/-- `Deserialize` for `RuleDestination` -/
def RuleDestination.decode : Value → Option RuleDestination :=
  Value.asName [("any", .any), ("primary", .primary), ("replica", .replica)]

/-- `Deserialize` for `TlsMode` -/
def TlsMode.decode : Value → Option TlsMode :=
  Value.asName [("off", .off), ("required", .required), ("verify-ca", .verifyCa),
    ("verify-identity", .verifyIdentity)]

/-- `Deserialize` for `BackendCompression` -/
def BackendCompression.decode : Value → Option BackendCompression :=
  Value.asName [("none", .none), ("zlib", .zlib), ("zstd", .zstd)]

/-- `Deserialize` for `QueryRuleConfig` -/
def QueryRuleConfig.decode (t : Table) : Option QueryRuleConfig := do
  some {
    matchPattern := ← optional t "match_pattern" Value.asString
    matchDigest := ← optional t "match_digest" Value.asString
    user := ← defaulted t "user" Value.asString []
    schema := ← defaulted t "schema" Value.asString []
    destination := ← defaulted t "destination" RuleDestination.decode .any
    cacheTtlSecs := ← defaulted t "cache_ttl_secs" Value.asU64 0
    comment := ← defaulted t "comment" Value.asString []
    mirrorTo := ← optional t "mirror_to" Value.asString
    destinationHostgroup := ← optional t "destination_hostgroup" Value.asU32
    rolloutPct := ← optional t "rollout_pct" Value.asU8
    qpsLimit := ← optional t "qps_limit" Value.asU32
    dryRun := ← defaulted t "dry_run" Value.asBool false
    fastForward := ← defaulted t "fast_forward" Value.asBool false }

/-- `Deserialize` for `QueryRewriteConfig` -/
def QueryRewriteConfig.decode (t : Table) : Option QueryRewriteConfig := do
  some {
    matchPattern := ← required t "match_pattern" Value.asString
    replaceWith := ← optional t "replace_with" Value.asString
    addLimit := ← optional t "add_limit" Value.asU32
    addTimeoutMs := ← optional t "add_timeout_ms" Value.asU64
    block := ← defaulted t "block" Value.asBool false
    comment := ← defaulted t "comment" Value.asString [] }

/-- `Deserialize` for `BackendConfig` -/
def BackendConfig.decode (t : Table) : Option BackendConfig := do
  some {
    addr := ← required t "addr" Value.asString
    user := ← defaulted t "user" Value.asString []
    password := ← defaulted t "password" Value.asString []
    database := ← optional t "database" Value.asString
    tlsMode := ← defaulted t "tls_mode" TlsMode.decode .off
    tlsCa := ← optional t "tls_ca" Value.asString
    tlsCert := ← optional t "tls_cert" Value.asString
    tlsKey := ← optional t "tls_key" Value.asString
    weight := ← defaulted t "weight" Value.asU32 100
    backup := ← defaulted t "backup" Value.asBool false
    initConnect := ← defaulted t "init_connect" (Value.asList Value.asString) []
    compression := ← defaulted t "compression" BackendCompression.decode .none
    resolutionFamily := ← defaulted t "resolution_family" Value.asString "system".toList
    sslKeylogFile := ← defaulted t "ssl_keylog_file" Value.asString []
    maxConnections := ← optional t "max_connections" Value.asU64 }

/-- `Deserialize` for `UserConfig` -/
def UserConfig.decode (t : Table) : Option UserConfig := do
  some {
    name := ← required t "name" Value.asString
    password := ← required t "password" Value.asString
    allowWrites := ← defaulted t "allow_writes" Value.asBool true
    maxConnections := ← defaulted t "max_connections" Value.asU64 0
    defaultSchema := ← defaulted t "default_schema" Value.asString []
    transactionIsolation := ← defaulted t "transaction_isolation" Value.asString [] }

/-- `Deserialize` for `PgsqlConfig`, but for the fields that the PostgreSQL side alone reads -/
def PgsqlConfig.decode (t : Table) : Option (PgsqlConfig Unit) := do
  some {
    primary := ← optional t "primary" (Value.asStruct BackendConfig.decode)
    replicas := ← defaulted t "replicas" (Value.asList (Value.asStruct BackendConfig.decode)) []
    users := ← defaulted t "users" (Value.asList (Value.asStruct UserConfig.decode)) []
    rest := () }

/-- The deserialisers for a document with no other keys. -/
def Serde.records : Serde Unit Unit where
  backend := Value.asStruct BackendConfig.decode
  user := Value.asStruct UserConfig.decode
  queryRule := Value.asStruct QueryRuleConfig.decode
  rewriteRule := Value.asStruct QueryRewriteConfig.decode
  pgsql := Value.asStruct PgsqlConfig.decode
  pgsqlDefault := ⟨none, [], [], ()⟩
  rest _ := some ()

section Readers

variable {Rest PgRest : Type} (serde : Serde Rest PgRest)

/-- `Deserialize` for `SharedConfig` -/
def SharedConfig.decode (t : Table) : Option SharedConfig := do
  some {
    listenAddr := ← optional t "listen_addr" Value.asString
    maxConnections := ← optional t "max_connections" Value.asU64
    poolSize := ← optional t "pool_size" Value.asU64
    primary := ← optional t "primary" serde.backend
    replicas := ← defaulted t "replicas" (Value.asList serde.backend) []
    users := ← defaulted t "users" (Value.asList serde.user) []
    authCacheTtlSecs := ← optional t "auth_cache_ttl_secs" Value.asU64
    connectionMaxIdleSecs := ← optional t "connection_max_idle_secs" Value.asU64
    readYourOwnWritesMs := ← optional t "read_your_own_writes_ms" Value.asU64
    queryWhitelist := ← defaulted t "query_whitelist" (Value.asList Value.asString) []
    sqlInjectionProtection := ← optional t "sql_injection_protection" Value.asBool
    auditLog := ← optional t "audit_log" Value.asString }

/-- `Deserialize` for `RawProxyConfig` -/
def RawProxyConfig.decode (t : Table) : Option (RawProxyConfig Rest PgRest) := do
  some {
    shared := ← optional t "shared" (Value.asStruct (SharedConfig.decode serde))
    listenAddr := ← optional t "listen_addr" Value.asString
    maxConnections := ← optional t "max_connections" Value.asU64
    poolSize := ← optional t "pool_size" Value.asU64
    primary := ← optional t "primary" serde.backend
    replicas := ← defaulted t "replicas" (Value.asList serde.backend) []
    users := ← defaulted t "users" (Value.asList serde.user) []
    authCacheTtlSecs := ← optional t "auth_cache_ttl_secs" Value.asU64
    connectionMaxIdleSecs := ← optional t "connection_max_idle_secs" Value.asU64
    queryRules := ← defaulted t "query_rules" (Value.asList serde.queryRule) []
    rewriteRules := ← defaulted t "rewrite_rules" (Value.asList serde.rewriteRule) []
    readYourOwnWritesMs := ← optional t "read_your_own_writes_ms" Value.asU64
    queryWhitelist := ← defaulted t "query_whitelist" (Value.asList Value.asString) []
    sqlInjectionProtection := ← optional t "sql_injection_protection" Value.asBool
    auditLog := ← optional t "audit_log" Value.asString
    pgsql := ← defaulted t "pgsql" serde.pgsql serde.pgsqlDefault
    rest := ← serde.rest t }

/-- `Deserialize` for `ProxyConfig` -/
def ProxyConfig.decode (t : Table) : Option (ProxyConfig Rest PgRest) := do
  some {
    mysqlEnabled := false
    listenAddr := ← defaulted t "listen_addr" Value.asString defaultListenAddr
    maxConnections := ← defaulted t "max_connections" Value.asU64 defaultMaxConnections
    poolSize := ← defaulted t "pool_size" Value.asU64 defaultPoolSize
    primary := ← required t "primary" serde.backend
    replicas := ← defaulted t "replicas" (Value.asList serde.backend) []
    users := ← defaulted t "users" (Value.asList serde.user) []
    authCacheTtlSecs := ← defaulted t "auth_cache_ttl_secs" Value.asU64 defaultAuthCacheTtl
    connectionMaxIdleSecs :=
      ← defaulted t "connection_max_idle_secs" Value.asU64 defaultConnectionMaxIdleSecs
    queryRules := ← defaulted t "query_rules" (Value.asList serde.queryRule) []
    rewriteRules := ← defaulted t "rewrite_rules" (Value.asList serde.rewriteRule) []
    readYourOwnWritesMs := ← defaulted t "read_your_own_writes_ms" Value.asU64 0
    queryWhitelist := ← defaulted t "query_whitelist" (Value.asList Value.asString) []
    sqlInjectionProtection := ← defaulted t "sql_injection_protection" Value.asBool false
    auditLog := ← defaulted t "audit_log" Value.asString []
    pgsql := ← defaulted t "pgsql" serde.pgsql serde.pgsqlDefault
    rest := ← serde.rest t }

/-! ## The readers -/

/-- The first list that is not empty. -/
def firstFilled {α : Type} (a b c : List α) : List α :=
  if !a.isEmpty then a else if !b.isEmpty then b else if !c.isEmpty then c else []

/-- `ProxyConfig::from_raw` -/
def ProxyConfig.fromRaw (raw : RawProxyConfig Rest PgRest) : Option (ProxyConfig Rest PgRest) := do
  let shared := raw.shared.getD SharedConfig.empty
  let primary ← (raw.primary.or shared.primary).or raw.pgsql.primary
  some {
    mysqlEnabled := raw.primary.isSome || raw.listenAddr.isSome || !raw.replicas.isEmpty
    listenAddr := (raw.listenAddr.or shared.listenAddr).getD defaultListenAddr
    maxConnections := (raw.maxConnections.or shared.maxConnections).getD defaultMaxConnections
    poolSize := (raw.poolSize.or shared.poolSize).getD defaultPoolSize
    primary
    replicas := firstFilled raw.replicas shared.replicas raw.pgsql.replicas
    users := firstFilled raw.users shared.users raw.pgsql.users
    authCacheTtlSecs := (raw.authCacheTtlSecs.or shared.authCacheTtlSecs).getD defaultAuthCacheTtl
    connectionMaxIdleSecs :=
      (raw.connectionMaxIdleSecs.or shared.connectionMaxIdleSecs).getD defaultConnectionMaxIdleSecs
    queryRules := raw.queryRules
    rewriteRules := raw.rewriteRules
    readYourOwnWritesMs := (raw.readYourOwnWritesMs.or shared.readYourOwnWritesMs).getD 0
    queryWhitelist := if !raw.queryWhitelist.isEmpty then raw.queryWhitelist else shared.queryWhitelist
    sqlInjectionProtection := (raw.sqlInjectionProtection.or shared.sqlInjectionProtection).getD false
    auditLog := (raw.auditLog.or shared.auditLog).getD []
    pgsql := raw.pgsql
    rest := raw.rest }

variable (toml : Str → Option Table)

/-- `ProxyConfig::from_str` -/
def ProxyConfig.fromStr (text : Str) : Option (ProxyConfig Rest PgRest) := do
  let t ← toml text
  let raw ← RawProxyConfig.decode serde t
  ProxyConfig.fromRaw raw

/-- `toml::from_str::<ProxyConfig>` -/
def ProxyConfig.parse (text : Str) : Option (ProxyConfig Rest PgRest) := do
  let t ← toml text
  ProxyConfig.decode serde t

/-- The places of the dashboard that read a configuration from its text. -/
inductive Reader : Type where
  /-- `POST /api/reload/backends`: the file of this node -/
  | reloadBackends
  /-- `POST /api/sync`: the text a peer has sent -/
  | clusterSync
  /-- `POST /api/config/import`: the body of the request -/
  | importConfig

/-- What such a place makes of the text. -/
def Reader.read : Reader → Str → Option (ProxyConfig Rest PgRest)
  | .reloadBackends => ProxyConfig.parse serde toml
  | .clusterSync => ProxyConfig.parse serde toml
  | .importConfig => ProxyConfig.parse serde toml

end Readers

/-! ## The comparison -/

section Comparison

variable {Rest PgRest : Type} {serde : Serde Rest PgRest} {toml : Str → Option Table}

/-- Everything `from_raw` would take from `[shared]` or `[pgsql]` is given at the top level, or is what
the file says anyway. -/
structure RawProxyConfig.InheritsNothing (raw : RawProxyConfig Rest PgRest) (shared : SharedConfig) :
    Prop where
  listenAddr : raw.listenAddr = none → shared.listenAddr.getD defaultListenAddr = defaultListenAddr
  maxConnections : raw.maxConnections = none →
    shared.maxConnections.getD defaultMaxConnections = defaultMaxConnections
  poolSize : raw.poolSize = none → shared.poolSize.getD defaultPoolSize = defaultPoolSize
  replicas : raw.replicas = [] → shared.replicas = [] ∧ raw.pgsql.replicas = []
  users : raw.users = [] → shared.users = [] ∧ raw.pgsql.users = []
  authCacheTtlSecs : raw.authCacheTtlSecs = none →
    shared.authCacheTtlSecs.getD defaultAuthCacheTtl = defaultAuthCacheTtl
  connectionMaxIdleSecs : raw.connectionMaxIdleSecs = none →
    shared.connectionMaxIdleSecs.getD defaultConnectionMaxIdleSecs = defaultConnectionMaxIdleSecs
  readYourOwnWritesMs : raw.readYourOwnWritesMs = none → shared.readYourOwnWritesMs.getD 0 = 0
  queryWhitelist : raw.queryWhitelist = [] → shared.queryWhitelist = []
  sqlInjectionProtection : raw.sqlInjectionProtection = none →
    shared.sqlInjectionProtection.getD false = false
  auditLog : raw.auditLog = none → shared.auditLog.getD [] = []

/-- What `ProxyConfig` makes of a document that `RawProxyConfig` reads. -/
def RawProxyConfig.direct (raw : RawProxyConfig Rest PgRest) : Option (ProxyConfig Rest PgRest) :=
  raw.primary.map fun primary =>
    { mysqlEnabled := false
      listenAddr := raw.listenAddr.getD defaultListenAddr
      maxConnections := raw.maxConnections.getD defaultMaxConnections
      poolSize := raw.poolSize.getD defaultPoolSize
      primary
      replicas := raw.replicas
      users := raw.users
      authCacheTtlSecs := raw.authCacheTtlSecs.getD defaultAuthCacheTtl
      connectionMaxIdleSecs := raw.connectionMaxIdleSecs.getD defaultConnectionMaxIdleSecs
      queryRules := raw.queryRules
      rewriteRules := raw.rewriteRules
      readYourOwnWritesMs := raw.readYourOwnWritesMs.getD 0
      queryWhitelist := raw.queryWhitelist
      sqlInjectionProtection := raw.sqlInjectionProtection.getD false
      auditLog := raw.auditLog.getD []
      pgsql := raw.pgsql
      rest := raw.rest }

theorem ProxyConfig.decode_of_raw {t : Table} {raw : RawProxyConfig Rest PgRest}
    (hraw : RawProxyConfig.decode serde t = some raw) : ProxyConfig.decode serde t = raw.direct := by
  rw [RawProxyConfig.decode] at hraw
  obtain ⟨shared, -, hraw⟩ := Option.bind_eq_some_iff.1 hraw
  obtain ⟨listenAddr, hlisten, hraw⟩ := Option.bind_eq_some_iff.1 hraw
  obtain ⟨maxConnections, hmax, hraw⟩ := Option.bind_eq_some_iff.1 hraw
  obtain ⟨poolSize, hsize, hraw⟩ := Option.bind_eq_some_iff.1 hraw
  obtain ⟨primary, hprimary, hraw⟩ := Option.bind_eq_some_iff.1 hraw
  obtain ⟨replicas, hreplicas, hraw⟩ := Option.bind_eq_some_iff.1 hraw
  obtain ⟨users, husers, hraw⟩ := Option.bind_eq_some_iff.1 hraw
  obtain ⟨ttl, httl, hraw⟩ := Option.bind_eq_some_iff.1 hraw
  obtain ⟨idle, hidle, hraw⟩ := Option.bind_eq_some_iff.1 hraw
  obtain ⟨rules, hrules, hraw⟩ := Option.bind_eq_some_iff.1 hraw
  obtain ⟨rewrites, hrewrites, hraw⟩ := Option.bind_eq_some_iff.1 hraw
  obtain ⟨ryow, hryow, hraw⟩ := Option.bind_eq_some_iff.1 hraw
  obtain ⟨whitelist, hwhitelist, hraw⟩ := Option.bind_eq_some_iff.1 hraw
  obtain ⟨injection, hinjection, hraw⟩ := Option.bind_eq_some_iff.1 hraw
  obtain ⟨audit, haudit, hraw⟩ := Option.bind_eq_some_iff.1 hraw
  obtain ⟨pgsql, hpgsql, hraw⟩ := Option.bind_eq_some_iff.1 hraw
  obtain ⟨rest, hrest, hraw⟩ := Option.bind_eq_some_iff.1 hraw
  obtain rfl := Option.some.inj hraw
  simp only [ProxyConfig.decode, Option.bind_eq_bind, Option.bind_some, defaulted_of_optional hlisten,
    defaulted_of_optional hmax, defaulted_of_optional hsize, required_of_optional hprimary, hreplicas,
    husers, defaulted_of_optional httl, defaulted_of_optional hidle, hrules, hrewrites,
    defaulted_of_optional hryow, hwhitelist, defaulted_of_optional hinjection,
    defaulted_of_optional haudit, hpgsql, hrest, RawProxyConfig.direct]
  cases primary with
  | none => rfl
  | some p => rfl

theorem getD_or_eq_iff {α : Type} (a b : Option α) (d : α) :
    a.getD d = (a.or b).getD d ↔ (a = none → b.getD d = d) := by
  cases a with
  | none => simpa using eq_comm
  | some x => simp

theorem eq_firstFilled_iff {α : Type} (a b c : List α) :
    a = firstFilled a b c ↔ (a = [] → b = [] ∧ c = []) := by
  cases a with
  | nil => cases b <;> cases c <;> simp [firstFilled]
  | cons x a => simp [firstFilled]

theorem eq_filled_iff {α : Type} (a b : List α) : a = (if !a.isEmpty then a else b) ↔ (a = [] → b = []) := by
  cases a with
  | nil => simp
  | cons x a => simp

/-- Up to `mysql_enabled` the two agree exactly when the file has a `[primary]` of its own and inherits
nothing. -/
theorem RawProxyConfig.direct_eq_iff {raw : RawProxyConfig Rest PgRest} {cfg : ProxyConfig Rest PgRest}
    (hcfg : ProxyConfig.fromRaw raw = some cfg) :
    raw.direct = some { cfg with mysqlEnabled := false } ↔
      raw.primary.isSome ∧ raw.InheritsNothing (raw.shared.getD SharedConfig.empty) := by
  simp only [ProxyConfig.fromRaw, Option.bind_eq_bind, Option.bind_eq_some_iff] at hcfg
  obtain ⟨primary, hprimary, hcfg⟩ := hcfg
  obtain rfl := Option.some.inj hcfg
  cases hp : raw.primary with
  | none =>
    simp only [RawProxyConfig.direct, hp, Option.map_none, reduceCtorEq, Option.isSome_none,
      Bool.false_eq_true, false_and]
  | some p =>
    obtain rfl : p = primary := by simpa [hp] using hprimary
    simp only [RawProxyConfig.direct, hp, Option.map_some, Option.some.injEq, ProxyConfig.mk.injEq,
      true_and, and_true, Option.isSome_some, getD_or_eq_iff, eq_firstFilled_iff, eq_filled_iff]
    constructor
    · rintro ⟨h1, h2, h3, h4, h5, h6, h7, h8, h9, h10, h11⟩
      exact ⟨h1, h2, h3, h4, h5, h6, h7, h8, h9, h10, h11⟩
    · rintro ⟨h1, h2, h3, h4, h5, h6, h7, h8, h9, h10, h11⟩
      exact ⟨h1, h2, h3, h4, h5, h6, h7, h8, h9, h10, h11⟩

/-- Whatever reads a configuration directly believes MySQL disabled. -/
theorem RawProxyConfig.direct_mysqlEnabled {raw : RawProxyConfig Rest PgRest}
    {cfg : ProxyConfig Rest PgRest} (hcfg : raw.direct = some cfg) :
    raw.primary.isSome ∧ cfg.mysqlEnabled = false := by
  obtain ⟨primary, hprimary, rfl⟩ := Option.map_eq_some_iff.1 hcfg
  exact ⟨Option.isSome_of_eq_some hprimary, rfl⟩

/-- `from_str` believes it enabled where there is a `[primary]`. -/
theorem ProxyConfig.fromRaw_mysqlEnabled {raw : RawProxyConfig Rest PgRest}
    {cfg : ProxyConfig Rest PgRest} (hcfg : ProxyConfig.fromRaw raw = some cfg)
    (hprimary : raw.primary.isSome) : cfg.mysqlEnabled = true := by
  simp only [ProxyConfig.fromRaw, Option.bind_eq_bind, Option.bind_eq_some_iff] at hcfg
  obtain ⟨primary, -, hcfg⟩ := hcfg
  obtain rfl := Option.some.inj hcfg
  simp only [hprimary, Bool.true_or]

theorem Reader.read_eq_parse (reader : Reader) :
    reader.read serde toml = ProxyConfig.parse serde toml := by
  cases reader with
  | reloadBackends => rfl
  | clusterSync => rfl
  | importConfig => rfl

/-- No text gives the same configuration to `from_str` and to one of the other readers: they skip
`mysql_enabled`. Up to that field they agree exactly when the file has a `[primary]` and inherits
nothing. -/
theorem readers_disagree {text : Str} {cfg : ProxyConfig Rest PgRest}
    (hcfg : ProxyConfig.fromStr serde toml text = some cfg) (reader : Reader) :
    reader.read serde toml text ≠ some cfg ∧
      ∃ t raw, toml text = some t ∧ RawProxyConfig.decode serde t = some raw ∧
        (reader.read serde toml text = some { cfg with mysqlEnabled := false } ↔
          raw.primary.isSome ∧ raw.InheritsNothing (raw.shared.getD SharedConfig.empty)) := by
  simp only [ProxyConfig.fromStr, Option.bind_eq_bind, Option.bind_eq_some_iff] at hcfg
  obtain ⟨t, ht, raw, hraw, hcfg⟩ := hcfg
  have hread : reader.read serde toml text = raw.direct := by
    rw [reader.read_eq_parse, ProxyConfig.parse, ht, Option.bind_eq_bind, Option.bind_some,
      ProxyConfig.decode_of_raw hraw]
  rw [hread]
  refine ⟨fun hsame => ?_, t, raw, ht, hraw, RawProxyConfig.direct_eq_iff hcfg⟩
  obtain ⟨hprimary, hoff⟩ := RawProxyConfig.direct_mysqlEnabled hsame
  have hon := ProxyConfig.fromRaw_mysqlEnabled hcfg hprimary
  rw [hoff] at hon
  cases hon

end Comparison

/-! ## A file in the documented format -/

/-- `addr = "db:3306"` -/
def sampleBackend : Value := .table [("addr".toList, .string "db:3306".toList)]

/-- The header of a primary, and its address. -/
def sampleText (header : String) : Str := header.toList ++ "\naddr = \"db:3306\"\n".toList

/-- The two files, with `[shared.primary]` and with `[primary]`. -/
def sampleToml (text : Str) : Option Table :=
  if text = sampleText "[shared.primary]" then
    some [("shared".toList, .table [("primary".toList, sampleBackend)])]
  else if text = sampleText "[primary]" then some [("primary".toList, sampleBackend)]
  else none

/-- A configuration with this one backend and the defaults. -/
def sampleConfig (mysqlEnabled : Bool) : ProxyConfig Unit Unit where
  mysqlEnabled
  listenAddr := defaultListenAddr
  maxConnections := defaultMaxConnections
  poolSize := defaultPoolSize
  primary :=
    { addr := "db:3306".toList, user := [], password := [], database := none, tlsMode := .off
      tlsCa := none, tlsCert := none, tlsKey := none, weight := 100, backup := false, initConnect := []
      compression := .none, resolutionFamily := "system".toList, sslKeylogFile := []
      maxConnections := none }
  replicas := []
  users := []
  authCacheTtlSecs := defaultAuthCacheTtl
  connectionMaxIdleSecs := defaultConnectionMaxIdleSecs
  queryRules := []
  rewriteRules := []
  readYourOwnWritesMs := 0
  queryWhitelist := []
  sqlInjectionProtection := false
  auditLog := []
  pgsql := ⟨none, [], [], ()⟩
  rest := ()

theorem readers_disagree_primary :
    Reader.reloadBackends.read Serde.records sampleToml (sampleText "[primary]") ≠ some (sampleConfig true) :=
  (readers_disagree (by rfl) .reloadBackends).1

/-- A file with `[shared.primary]` starts the proxy but cannot be reloaded. -/
theorem shared_unreadable :
    ¬ ∀ (text : Str) (cfg : ProxyConfig Unit Unit),
      ProxyConfig.fromStr Serde.records sampleToml text = some cfg →
        ∀ reader : Reader, reader.read Serde.records sampleToml text = some cfg := by
  intro hclaim
  have hread := hclaim (sampleText "[shared.primary]") (sampleConfig false) rfl .reloadBackends
  have hfails : Reader.reloadBackends.read Serde.records sampleToml (sampleText "[shared.primary]") = none :=
    rfl
  rw [hfails] at hread
  cases hread

end TurbineProxy.Config

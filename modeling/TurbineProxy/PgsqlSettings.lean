import TurbineProxy.ConfigFile

/-!
# What the PostgreSQL side is configured with

`ProxyConfig::resolved_pgsql` takes the top-level value for what `[pgsql]` leaves unset or defaulted. By then an
explicit default cannot be told from a missing key: what the section says is read with its defaults removed
(`resolvedPgsql_eq_above`).
-/

namespace TurbineProxy.Config

open Toml

/-- `default_pgsql_pool_size` -/
def defaultPgsqlPoolSize : UInt64 := 10

/-- `default_health_interval` -/
def defaultHealthInterval : UInt64 := 5

/-- `default_max_lag_ms` -/
def defaultMaxLagMs : UInt64 := 5000

/-- `default_failover_threshold` -/
def defaultFailoverThreshold : UInt32 := 3

/-- `HaConfig`, as far as the PostgreSQL side falls back to it. -/
structure HaSection where
  healthCheckIntervalSecs : UInt64
  maxReplicaLagMs : UInt64
  primaryFailoverThreshold : UInt32
  deriving DecidableEq

/-- The other top-level fields. -/
structure TopRest (Others : Type) where
  ha : HaSection
  others : Others

/-- The fields of `PgsqlConfig` that have a top-level value to fall back to, and the others. -/
structure PgsqlRest (Other : Type) where
  poolSize : UInt64
  maxConnections : UInt64
  connectionMaxIdleSecs : UInt64
  readYourOwnWritesMs : UInt64
  healthCheckIntervalSecs : UInt64
  maxReplicaLagMs : UInt64
  primaryFailoverThreshold : UInt32
  queryWhitelist : List Str
  sqlInjectionProtection : Bool
  auditLog : Str
  /-- from `enabled` and `listen_addr` to `server_version` -/
  other : Other

/-! ## Reading -/

/-- `Deserialize` for `HaConfig` -/
def HaSection.decode (t : Table) : Option HaSection := do
  some {
    healthCheckIntervalSecs := ← defaulted t "health_check_interval_secs" Value.asU64 defaultHealthInterval
    maxReplicaLagMs := ← defaulted t "max_replica_lag_ms" Value.asU64 defaultMaxLagMs
    primaryFailoverThreshold := ← defaulted t "primary_failover_threshold" Value.asU32 defaultFailoverThreshold }

/-- `HaConfig::default` -/
def HaSection.default : HaSection := ⟨defaultHealthInterval, defaultMaxLagMs, defaultFailoverThreshold⟩

variable {Other Others : Type}

/-- `Deserialize` for `PgsqlConfig` -/
def PgsqlConfig.decodeAll (other : Table → Option Other) (t : Table) : Option (PgsqlConfig (PgsqlRest Other)) := do
  some {
    primary := ← optional t "primary" (Value.asStruct BackendConfig.decode)
    replicas := ← defaulted t "replicas" (Value.asList (Value.asStruct BackendConfig.decode)) []
    users := ← defaulted t "users" (Value.asList (Value.asStruct UserConfig.decode)) []
    rest := {
      poolSize := ← defaulted t "pool_size" Value.asU64 defaultPgsqlPoolSize
      maxConnections := ← defaulted t "max_connections" Value.asU64 0
      connectionMaxIdleSecs := ← defaulted t "connection_max_idle_secs" Value.asU64 defaultConnectionMaxIdleSecs
      readYourOwnWritesMs := ← defaulted t "read_your_own_writes_ms" Value.asU64 0
      healthCheckIntervalSecs := ← defaulted t "health_check_interval_secs" Value.asU64 defaultHealthInterval
      maxReplicaLagMs := ← defaulted t "max_replica_lag_ms" Value.asU64 defaultMaxLagMs
      primaryFailoverThreshold := ← defaulted t "primary_failover_threshold" Value.asU32 defaultFailoverThreshold
      queryWhitelist := ← defaulted t "query_whitelist" (Value.asList Value.asString) []
      sqlInjectionProtection := ← defaulted t "sql_injection_protection" Value.asBool false
      auditLog := ← defaulted t "audit_log" Value.asString []
      other := ← other t } }

/-- `PgsqlConfig::default`, which is derived: a file without the section has zeros. -/
def PgsqlConfig.derivedDefault (otherDefault : Other) : PgsqlConfig (PgsqlRest Other) :=
  ⟨none, [], [], ⟨0, 0, 0, 0, 0, 0, 0, [], false, [], otherDefault⟩⟩

/-- The deserialisers of a configuration, but for the fields that play no part here. -/
def Serde.whole (others : Table → Option Others) (other : Table → Option Other) (otherDefault : Other) :
    Serde (TopRest Others) (PgsqlRest Other) where
  backend := Value.asStruct BackendConfig.decode
  user := Value.asStruct UserConfig.decode
  queryRule := Value.asStruct QueryRuleConfig.decode
  rewriteRule := Value.asStruct QueryRewriteConfig.decode
  pgsql := Value.asStruct (PgsqlConfig.decodeAll other)
  pgsqlDefault := PgsqlConfig.derivedDefault otherDefault
  rest t := do
    some {
      ha := ← defaulted t "ha" (Value.asStruct HaSection.decode) HaSection.default
      others := ← others t }

/-- `ProxyConfig::resolved_pgsql` -/
def resolvedPgsql (cfg : ProxyConfig (TopRest Others) (PgsqlRest Other)) : PgsqlConfig (PgsqlRest Other) :=
  let pg := cfg.pgsql
  { primary := if pg.primary.isNone then some cfg.primary else pg.primary
    replicas := if pg.replicas.isEmpty then cfg.replicas else pg.replicas
    users := if pg.users.isEmpty then cfg.users else pg.users
    rest := { pg.rest with
      poolSize := if pg.rest.poolSize = defaultPgsqlPoolSize then cfg.poolSize else pg.rest.poolSize
      maxConnections := if pg.rest.maxConnections = 0 then cfg.maxConnections else pg.rest.maxConnections
      connectionMaxIdleSecs :=
        if pg.rest.connectionMaxIdleSecs = defaultConnectionMaxIdleSecs then cfg.connectionMaxIdleSecs
        else pg.rest.connectionMaxIdleSecs
      readYourOwnWritesMs :=
        if pg.rest.readYourOwnWritesMs = 0 then cfg.readYourOwnWritesMs else pg.rest.readYourOwnWritesMs
      healthCheckIntervalSecs :=
        if pg.rest.healthCheckIntervalSecs = defaultHealthInterval then cfg.rest.ha.healthCheckIntervalSecs
        else pg.rest.healthCheckIntervalSecs
      maxReplicaLagMs :=
        if pg.rest.maxReplicaLagMs = defaultMaxLagMs then cfg.rest.ha.maxReplicaLagMs else pg.rest.maxReplicaLagMs
      primaryFailoverThreshold :=
        if pg.rest.primaryFailoverThreshold = defaultFailoverThreshold then cfg.rest.ha.primaryFailoverThreshold
        else pg.rest.primaryFailoverThreshold
      queryWhitelist := if pg.rest.queryWhitelist.isEmpty then cfg.queryWhitelist else pg.rest.queryWhitelist
      sqlInjectionProtection :=
        if !pg.rest.sqlInjectionProtection then cfg.sqlInjectionProtection else pg.rest.sqlInjectionProtection
      auditLog := if pg.rest.auditLog.isEmpty then cfg.auditLog else pg.rest.auditLog } }

/-! ## What the section says -/

/-- What a `[pgsql]` section sets, of the fields that have a top-level value to fall back to. -/
structure PgsqlSection where
  primary : Option BackendConfig
  replicas : Option (List BackendConfig)
  users : Option (List UserConfig)
  poolSize : Option UInt64
  maxConnections : Option UInt64
  connectionMaxIdleSecs : Option UInt64
  readYourOwnWritesMs : Option UInt64
  healthCheckIntervalSecs : Option UInt64
  maxReplicaLagMs : Option UInt64
  primaryFailoverThreshold : Option UInt32
  queryWhitelist : Option (List Str)
  sqlInjectionProtection : Option Bool
  auditLog : Option Str

namespace PgsqlSection

/-- The keys of the section. -/
def decode (t : Table) : Option PgsqlSection := do
  some {
    primary := ← optional t "primary" (Value.asStruct BackendConfig.decode)
    replicas := ← optional t "replicas" (Value.asList (Value.asStruct BackendConfig.decode))
    users := ← optional t "users" (Value.asList (Value.asStruct UserConfig.decode))
    poolSize := ← optional t "pool_size" Value.asU64
    maxConnections := ← optional t "max_connections" Value.asU64
    connectionMaxIdleSecs := ← optional t "connection_max_idle_secs" Value.asU64
    readYourOwnWritesMs := ← optional t "read_your_own_writes_ms" Value.asU64
    healthCheckIntervalSecs := ← optional t "health_check_interval_secs" Value.asU64
    maxReplicaLagMs := ← optional t "max_replica_lag_ms" Value.asU64
    primaryFailoverThreshold := ← optional t "primary_failover_threshold" Value.asU32
    queryWhitelist := ← optional t "query_whitelist" (Value.asList Value.asString)
    sqlInjectionProtection := ← optional t "sql_injection_protection" Value.asBool
    auditLog := ← optional t "audit_log" Value.asString }

variable (s : PgsqlSection)

/-- The section over the top level: what it sets, and the top-level value of what it leaves out. -/
def above (cfg : ProxyConfig (TopRest Others) (PgsqlRest Other)) : PgsqlConfig (PgsqlRest Other) where
  primary := some (s.primary.getD cfg.primary)
  replicas := s.replicas.getD cfg.replicas
  users := s.users.getD cfg.users
  rest := {
    poolSize := s.poolSize.getD cfg.poolSize
    maxConnections := s.maxConnections.getD cfg.maxConnections
    connectionMaxIdleSecs := s.connectionMaxIdleSecs.getD cfg.connectionMaxIdleSecs
    readYourOwnWritesMs := s.readYourOwnWritesMs.getD cfg.readYourOwnWritesMs
    healthCheckIntervalSecs := s.healthCheckIntervalSecs.getD cfg.rest.ha.healthCheckIntervalSecs
    maxReplicaLagMs := s.maxReplicaLagMs.getD cfg.rest.ha.maxReplicaLagMs
    primaryFailoverThreshold := s.primaryFailoverThreshold.getD cfg.rest.ha.primaryFailoverThreshold
    queryWhitelist := s.queryWhitelist.getD cfg.queryWhitelist
    sqlInjectionProtection := s.sqlInjectionProtection.getD cfg.sqlInjectionProtection
    auditLog := s.auditLog.getD cfg.auditLog
    other := cfg.pgsql.rest.other }

/-- The section without the keys that it sets to their defaults. -/
def withoutDefaults : PgsqlSection where
  primary := s.primary
  replicas := s.replicas.filter (· ≠ [])
  users := s.users.filter (· ≠ [])
  poolSize := s.poolSize.filter (· ≠ defaultPgsqlPoolSize)
  maxConnections := s.maxConnections.filter (· ≠ 0)
  connectionMaxIdleSecs := s.connectionMaxIdleSecs.filter (· ≠ defaultConnectionMaxIdleSecs)
  readYourOwnWritesMs := s.readYourOwnWritesMs.filter (· ≠ 0)
  healthCheckIntervalSecs := s.healthCheckIntervalSecs.filter (· ≠ defaultHealthInterval)
  maxReplicaLagMs := s.maxReplicaLagMs.filter (· ≠ defaultMaxLagMs)
  primaryFailoverThreshold := s.primaryFailoverThreshold.filter (· ≠ defaultFailoverThreshold)
  queryWhitelist := s.queryWhitelist.filter (· ≠ [])
  sqlInjectionProtection := s.sqlInjectionProtection.filter (· ≠ false)
  auditLog := s.auditLog.filter (· ≠ [])

/-- What serde makes of the section. -/
def deserialized (other : Other) : PgsqlConfig (PgsqlRest Other) where
  primary := s.primary
  replicas := s.replicas.getD []
  users := s.users.getD []
  rest := {
    poolSize := s.poolSize.getD defaultPgsqlPoolSize
    maxConnections := s.maxConnections.getD 0
    connectionMaxIdleSecs := s.connectionMaxIdleSecs.getD defaultConnectionMaxIdleSecs
    readYourOwnWritesMs := s.readYourOwnWritesMs.getD 0
    healthCheckIntervalSecs := s.healthCheckIntervalSecs.getD defaultHealthInterval
    maxReplicaLagMs := s.maxReplicaLagMs.getD defaultMaxLagMs
    primaryFailoverThreshold := s.primaryFailoverThreshold.getD defaultFailoverThreshold
    queryWhitelist := s.queryWhitelist.getD []
    sqlInjectionProtection := s.sqlInjectionProtection.getD false
    auditLog := s.auditLog.getD []
    other }

/-- No key is set to its default, unless that is the top-level value as well. -/
structure Distinct (cfg : ProxyConfig (TopRest Others) (PgsqlRest Other)) : Prop where
  replicas : s.replicas = some [] → cfg.replicas = []
  users : s.users = some [] → cfg.users = []
  poolSize : s.poolSize = some defaultPgsqlPoolSize → cfg.poolSize = defaultPgsqlPoolSize
  maxConnections : s.maxConnections = some 0 → cfg.maxConnections = 0
  connectionMaxIdleSecs : s.connectionMaxIdleSecs = some defaultConnectionMaxIdleSecs →
    cfg.connectionMaxIdleSecs = defaultConnectionMaxIdleSecs
  readYourOwnWritesMs : s.readYourOwnWritesMs = some 0 → cfg.readYourOwnWritesMs = 0
  healthCheckIntervalSecs : s.healthCheckIntervalSecs = some defaultHealthInterval →
    cfg.rest.ha.healthCheckIntervalSecs = defaultHealthInterval
  maxReplicaLagMs : s.maxReplicaLagMs = some defaultMaxLagMs → cfg.rest.ha.maxReplicaLagMs = defaultMaxLagMs
  primaryFailoverThreshold : s.primaryFailoverThreshold = some defaultFailoverThreshold →
    cfg.rest.ha.primaryFailoverThreshold = defaultFailoverThreshold
  queryWhitelist : s.queryWhitelist = some [] → cfg.queryWhitelist = []
  sqlInjectionProtection : s.sqlInjectionProtection = some false → cfg.sqlInjectionProtection = false
  auditLog : s.auditLog = some [] → cfg.auditLog = []

end PgsqlSection

/-! ## One field -/

section Field

variable {α : Type} [DecidableEq α]

/-- A default is replaced whether it is written down or not. -/
theorem inherit_eq (o : Option α) (d top : α) :
    (if o.getD d = d then top else o.getD d) = (o.filter (· ≠ d)).getD top := by
  cases o with
  | none => exact if_pos rfl
  | some v => by_cases hv : v = d <;> simp [Option.filter, hv]

theorem inherit_list {β : Type} [DecidableEq β] (o : Option (List β)) (top : List β) :
    (if (o.getD []).isEmpty then top else o.getD []) = (o.filter (· ≠ [])).getD top := by
  rw [← inherit_eq]
  exact if_congr List.isEmpty_iff rfl rfl

theorem inherit_bool (o : Option Bool) (top : Bool) :
    (if !o.getD false then top else o.getD false) = (o.filter (· ≠ false)).getD top := by
  rw [← inherit_eq]
  exact if_congr (by rw [Bool.not_eq_true']) rfl rfl

theorem filter_getD_iff (o : Option α) (d top : α) :
    (o.filter (· ≠ d)).getD top = o.getD top ↔ (o = some d → top = d) := by
  cases o with
  | none => simp
  | some v => by_cases hv : v = d <;> simp [Option.filter, hv]

end Field

/-! ## The whole section -/

section Section

variable {others : Table → Option Others} {other : Table → Option Other} {otherDefault : Other}
  {toml : Str → Option Table}

/-- One key read in two ways: with a default, and as an `Option`. -/
theorem optional_of_defaulted {α : Type} {t : Table} {key : String} {decode : Value → Option α} {default v : α}
    (h : defaulted t key decode default = some v) :
    ∃ o, Toml.optional t key decode = some o ∧ v = o.getD default := by
  rw [defaulted, field] at h
  rw [Toml.optional, field]
  cases hget : t.get key with
  | none =>
    rw [hget] at h
    exact ⟨none, rfl, (Option.some.inj h).symm⟩
  | some value =>
    rw [hget] at h
    exact ⟨some v, congrArg (Option.map some) h, rfl⟩

/-- The section that serde reads is what the keys say, with the defaults. -/
theorem decodeAll_eq {t : Table} {pg : PgsqlConfig (PgsqlRest Other)} (h : PgsqlConfig.decodeAll other t = some pg) :
    ∃ s o, PgsqlSection.decode t = some s ∧ other t = some o ∧ pg = s.deserialized o := by
  rw [PgsqlConfig.decodeAll] at h
  obtain ⟨primary, hprimary, h⟩ := Option.bind_eq_some_iff.1 h
  obtain ⟨_, hread, h⟩ := Option.bind_eq_some_iff.1 h
  obtain ⟨replicas, hreplicas, rfl⟩ := optional_of_defaulted hread
  obtain ⟨_, hread, h⟩ := Option.bind_eq_some_iff.1 h
  obtain ⟨users, husers, rfl⟩ := optional_of_defaulted hread
  obtain ⟨_, hread, h⟩ := Option.bind_eq_some_iff.1 h
  obtain ⟨poolSize, hpoolSize, rfl⟩ := optional_of_defaulted hread
  obtain ⟨_, hread, h⟩ := Option.bind_eq_some_iff.1 h
  obtain ⟨maxConnections, hmaxConnections, rfl⟩ := optional_of_defaulted hread
  obtain ⟨_, hread, h⟩ := Option.bind_eq_some_iff.1 h
  obtain ⟨connectionMaxIdleSecs, hconnectionMaxIdleSecs, rfl⟩ := optional_of_defaulted hread
  obtain ⟨_, hread, h⟩ := Option.bind_eq_some_iff.1 h
  obtain ⟨readYourOwnWritesMs, hreadYourOwnWritesMs, rfl⟩ := optional_of_defaulted hread
  obtain ⟨_, hread, h⟩ := Option.bind_eq_some_iff.1 h
  obtain ⟨healthCheckIntervalSecs, hhealthCheckIntervalSecs, rfl⟩ := optional_of_defaulted hread
  obtain ⟨_, hread, h⟩ := Option.bind_eq_some_iff.1 h
  obtain ⟨maxReplicaLagMs, hmaxReplicaLagMs, rfl⟩ := optional_of_defaulted hread
  obtain ⟨_, hread, h⟩ := Option.bind_eq_some_iff.1 h
  obtain ⟨primaryFailoverThreshold, hprimaryFailoverThreshold, rfl⟩ := optional_of_defaulted hread
  obtain ⟨_, hread, h⟩ := Option.bind_eq_some_iff.1 h
  obtain ⟨queryWhitelist, hqueryWhitelist, rfl⟩ := optional_of_defaulted hread
  obtain ⟨_, hread, h⟩ := Option.bind_eq_some_iff.1 h
  obtain ⟨sqlInjectionProtection, hsqlInjectionProtection, rfl⟩ := optional_of_defaulted hread
  obtain ⟨_, hread, h⟩ := Option.bind_eq_some_iff.1 h
  obtain ⟨auditLog, hauditLog, rfl⟩ := optional_of_defaulted hread
  obtain ⟨o, ho, h⟩ := Option.bind_eq_some_iff.1 h
  obtain rfl := Option.some.inj h
  refine ⟨⟨primary, replicas, users, poolSize, maxConnections, connectionMaxIdleSecs, readYourOwnWritesMs,
    healthCheckIntervalSecs, maxReplicaLagMs, primaryFailoverThreshold, queryWhitelist, sqlInjectionProtection,
    auditLog⟩, o, ?_, ho, rfl⟩
  simp only [PgsqlSection.decode, Option.bind_eq_bind, Option.bind_some, hprimary, hreplicas, husers, hpoolSize,
    hmaxConnections, hconnectionMaxIdleSecs, hreadYourOwnWritesMs, hhealthCheckIntervalSecs, hmaxReplicaLagMs,
    hprimaryFailoverThreshold, hqueryWhitelist, hsqlInjectionProtection, hauditLog]

/-- The section of a text is what its configuration keeps for the PostgreSQL side. -/
theorem decodeAll_of_fromStr {text : Str} {t pgTable : Table} {cfg : ProxyConfig (TopRest Others) (PgsqlRest Other)}
    (hcfg : ProxyConfig.fromStr (Serde.whole others other otherDefault) toml text = some cfg)
    (ht : toml text = some t) (hsection : t.get "pgsql" = some (.table pgTable)) :
    PgsqlConfig.decodeAll other pgTable = some cfg.pgsql := by
  simp only [ProxyConfig.fromStr, Option.bind_eq_bind, Option.bind_eq_some_iff] at hcfg
  obtain ⟨t', ht', raw, hraw, hcfg⟩ := hcfg
  obtain rfl := Option.some.inj (ht.symm.trans ht')
  have hkept : cfg.pgsql = raw.pgsql := by
    obtain ⟨primary, -, hcfg⟩ := Option.bind_eq_some_iff.1 hcfg
    obtain rfl := Option.some.inj hcfg
    rfl
  have hdecoded : defaulted t "pgsql" (Value.asStruct (PgsqlConfig.decodeAll other))
      (PgsqlConfig.derivedDefault otherDefault) = some raw.pgsql := by
    rw [RawProxyConfig.decode] at hraw
    iterate 15 obtain ⟨_, -, hraw⟩ := Option.bind_eq_some_iff.1 hraw
    obtain ⟨pgsql, hpgsql, hraw⟩ := Option.bind_eq_some_iff.1 hraw
    obtain ⟨rest, -, hraw⟩ := Option.bind_eq_some_iff.1 hraw
    obtain rfl := Option.some.inj hraw
    exact hpgsql
  rw [hkept, ← hdecoded, defaulted_of_get hsection]
  rfl

theorem resolvedPgsql_of_deserialized {s : PgsqlSection} {o : Other}
    {cfg : ProxyConfig (TopRest Others) (PgsqlRest Other)} (h : cfg.pgsql = s.deserialized o) :
    resolvedPgsql cfg = s.withoutDefaults.above cfg := by
  have hprimary : (if s.primary.isNone then some cfg.primary else s.primary) = some (s.primary.getD cfg.primary) := by
    cases s.primary <;> rfl
  simp only [resolvedPgsql, h, PgsqlSection.deserialized, PgsqlSection.above, PgsqlSection.withoutDefaults, hprimary,
    inherit_list, inherit_eq, inherit_bool]

theorem above_withoutDefaults_iff (s : PgsqlSection) (cfg : ProxyConfig (TopRest Others) (PgsqlRest Other)) :
    s.withoutDefaults.above cfg = s.above cfg ↔ s.Distinct cfg := by
  simp only [PgsqlSection.above, PgsqlSection.withoutDefaults, PgsqlConfig.mk.injEq, PgsqlRest.mk.injEq, true_and,
    and_true, filter_getD_iff]
  constructor
  · rintro ⟨h1, h2, h3, h4, h5, h6, h7, h8, h9, h10, h11, h12⟩
    exact ⟨h1, h2, h3, h4, h5, h6, h7, h8, h9, h10, h11, h12⟩
  · rintro ⟨h1, h2, h3, h4, h5, h6, h7, h8, h9, h10, h11, h12⟩
    exact ⟨h1, h2, h3, h4, h5, h6, h7, h8, h9, h10, h11, h12⟩

/-- The PostgreSQL side gets what the section sets to something else than the default, and the top-level value of what
it leaves out or sets to its default; so that everything it sets is kept **exactly if** nothing is set to a default that
the top level differs from. -/
theorem resolvedPgsql_eq_above {text : Str} {t pgTable : Table}
    {cfg : ProxyConfig (TopRest Others) (PgsqlRest Other)}
    (hcfg : ProxyConfig.fromStr (Serde.whole others other otherDefault) toml text = some cfg)
    (ht : toml text = some t) (hsection : t.get "pgsql" = some (.table pgTable)) :
    ∃ s, PgsqlSection.decode pgTable = some s ∧ resolvedPgsql cfg = s.withoutDefaults.above cfg ∧
      (resolvedPgsql cfg = s.above cfg ↔ s.Distinct cfg) := by
  obtain ⟨s, o, hs, -, hpg⟩ := decodeAll_eq (decodeAll_of_fromStr hcfg ht hsection)
  have hresolved := resolvedPgsql_of_deserialized hpg
  exact ⟨s, hs, hresolved, hresolved ▸ above_withoutDefaults_iff s cfg⟩

end Section

/-! ## A file with a section -/

/-- The text of a file whose section sets `max_connections`. -/
def sectionText (maxConnections : String) : Str :=
  "[primary]\naddr = \"db:3306\"\n[pgsql]\nmax_connections = ".toList ++ maxConnections.toList

/-- The tables of such a file. -/
def sectionTables (maxConnections : Int) : Table :=
  [("primary".toList, sampleBackend), ("pgsql".toList, .table [("max_connections".toList, .integer maxConnections)])]

/-- The tables of two such files. -/
def sectionToml (text : Str) : Option Table :=
  if text = sectionText "0" then some (sectionTables 0)
  else if text = sectionText "50" then some (sectionTables 50)
  else none

/-- A configuration with one backend, a limit for the PostgreSQL side, and the defaults. -/
def sectionConfig (maxConnections : UInt64) : ProxyConfig (TopRest Unit) (PgsqlRest Unit) where
  mysqlEnabled := true
  listenAddr := defaultListenAddr
  maxConnections := defaultMaxConnections
  poolSize := defaultPoolSize
  primary := (sampleConfig true).primary
  replicas := []
  users := []
  authCacheTtlSecs := defaultAuthCacheTtl
  connectionMaxIdleSecs := defaultConnectionMaxIdleSecs
  queryRules := []
  rewriteRules := []
  readYourOwnWritesMs := 0
  queryWhitelist := []
  sqlInjectionProtection := false
  auditLog := []
  pgsql := ⟨none, [], [], ⟨defaultPgsqlPoolSize, maxConnections, defaultConnectionMaxIdleSecs, 0, defaultHealthInterval,
    defaultMaxLagMs, defaultFailoverThreshold, [], false, [], ()⟩⟩
  rest := ⟨HaSection.default, ()⟩

/-- The deserialisers for a document with no other keys. -/
abbrev Serde.sections : Serde (TopRest Unit) (PgsqlRest Unit) := Serde.whole (fun _ => some ()) (fun _ => some ()) ()

theorem resolvedPgsql_eq_above_fifty :
    ∃ s, PgsqlSection.decode [("max_connections".toList, .integer 50)] = some s ∧
      resolvedPgsql (sectionConfig 50) = s.withoutDefaults.above (sectionConfig 50) ∧
      (resolvedPgsql (sectionConfig 50) = s.above (sectionConfig 50) ↔ s.Distinct (sectionConfig 50)) :=
  have hcfg : ProxyConfig.fromStr Serde.sections sectionToml (sectionText "50") = some (sectionConfig 50) := rfl
  resolvedPgsql_eq_above (t := sectionTables 50) hcfg rfl rfl

/-- `max_connections = 0`, which stands for no limit, becomes the limit of the top level. -/
theorem explicit_zero_lost :
    ¬ ∀ (text : Str) (t pgTable : Table) (cfg : ProxyConfig (TopRest Unit) (PgsqlRest Unit)) (s : PgsqlSection),
      ProxyConfig.fromStr Serde.sections sectionToml text = some cfg → sectionToml text = some t →
        t.get "pgsql" = some (.table pgTable) → PgsqlSection.decode pgTable = some s →
        resolvedPgsql cfg = s.above cfg := by
  intro hclaim
  have hcfg : ProxyConfig.fromStr Serde.sections sectionToml (sectionText "0") = some (sectionConfig 0) := rfl
  have hkept := hclaim (sectionText "0") (sectionTables 0) _ _
    ⟨none, none, none, none, some 0, none, none, none, none, none, none, none, none⟩ hcfg rfl rfl rfl
  have hlimit : defaultMaxConnections = 0 := congrArg (fun pg => pg.rest.maxConnections) hkept
  exact absurd hlimit (by decide)

end TurbineProxy.Config

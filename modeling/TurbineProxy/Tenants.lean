import TurbineProxy.QueryCache
import TurbineProxy.World

/-!
# The query cache among sessions of different tenants

Any number of sessions over the pools and over one query cache, in any interleaving. A statement is executed for
the user of its session and in the default schema of the connection it is sent on, which only the server knows
(`Schemas`). Connections are pooled, so that need not be the schema which the session has chosen: the database of
the handshake reaches no backend, and a COM_INIT_DB or USE stays on the connection it went to.

Next to the proxy runs an account of what the cache cannot see: which schema each session has chosen, for whom its
last statement was executed, and for whom a response was stored and returned. `Isolated` is the property: what a
session gets from the cache was computed for its own user and schema. `isolated_of_separate` says along which runs
it holds: those in which no cache key serves two of them.
-/

namespace TurbineProxy

variable {srv : Server} {u : Casing}

/-!
## Tenants

Which schema a statement is executed in is a matter of the connection that executes it, and not of what the session has
chosen on another one.
-/

/-- What the result of a statement depends on besides its text. -/
structure Tenant where
  /-- the authenticated user -/
  user : Str
  /-- the default schema -/
  schema : Str
  deriving DecidableEq

/-- What a server knows about default schemas. -/
structure Schemas (srv : Server) where
  /-- the one of a connection -/
  of : srv.Sess → Str
  /-- the one that a command selects if it succeeds -/
  selects : Packet → Option Str

/-- The schema that a session has chosen, after an operation of its own. -/
def Schemas.choose (S : Schemas srv) (chosen : Str) : (o : Op) → Res o → Str
  | .talk .client _ _ p _, .ok response => if response.isError then chosen else (S.selects p).getD chosen
  | _, _ => chosen

/-- What the account records of the cache. -/
inductive CacheMark : Type where
  /-- a response was stored that had been computed for this tenant -/
  | stored (key : Str) (tenant : Option Tenant)
  /-- a stored response was returned to a session of this tenant -/
  | returned (key : Str) (tenant : Tenant)
  deriving DecidableEq

/-- For whom the response that is cached for a key was computed. -/
def computedFor (key : Str) : List CacheMark → Option Tenant
  | [] => none
  | .stored k tenant :: older => if k = key then tenant else computedFor key older
  | _ :: older => computedFor key older

/-- Every response that was returned had been computed for the same tenant. -/
def Isolated : List CacheMark → Prop
  | [] => True
  | .returned key tenant :: older => computedFor key older = some tenant ∧ Isolated older
  | _ :: older => Isolated older

/-! ## Sessions over one cache -/

/-- The world with its cache and the account. -/
structure Tenancy (srv : Server) (u : Casing) where
  /-- pools and connections -/
  world : World srv
  /-- the query cache of the router -/
  cache : QueryCache u
  /-- the user of each session -/
  users : Nat → Str
  /-- the schema each session has chosen -/
  chosen : Nat → Str
  /-- for whom the last statement of each session was executed -/
  ran : Nat → Option Tenant
  /-- what happened to the cache, the latest first -/
  log : List CacheMark

namespace Tenancy

variable (t : Tenancy srv u) (S : Schemas srv)

/-- For whom session `i` reads. -/
def tenant (i : Nat) : Tenant := ⟨t.users i, t.chosen i⟩

/-- Perform an operation: those of the cache at the given time, the others as the world does. -/
def perform (i : Nat) : (o : Op) → In o × Nat → Option (Tenancy srv u × Res o)
  | .cacheGet key, inp =>
    let r := t.cache.get key inp.2
    some ({ t with cache := r.1 }, r.2)
  | .cachePut key bytes, inp => (t.cache.put key bytes inp.2).map fun cache => ({ t with cache }, ())
  | .cacheInvalidate sql, _ => some ({ t with cache := t.cache.invalidateTables (extractTablesSimple u sql) }, ())
  | o, inp => (t.world.handle i o inp.1).map fun r => ({ t with world := r.1 }, r.2)

/-- For whom the last statement of session `i` was executed, after an operation. -/
def executedFor (i : Nat) : Op → Option Tenant
  | .talk .client _ c _ _ => (t.world.conns[c]?).map fun conn => ⟨t.users i, S.of conn.sess⟩
  | _ => t.ran i

/-- What an operation does to the cache. -/
def marks (i : Nat) : (o : Op) → Res o → List CacheMark
  | .cacheGet key, (r : Option Bytes) => if r.isSome then [.returned key (t.tenant i)] else []
  | .cachePut key _, _ => if isCacheable key then [.stored key (t.ran i)] else []
  | _, _ => []

/-- Perform an operation, and account for it. -/
def handle (i : Nat) (o : Op) (inp : In o × Nat) : Option (Tenancy srv u × Res o) :=
  (t.perform i o inp).map fun r =>
    ({ r.1 with
       chosen := Function.update t.chosen i (S.choose (t.chosen i) o r.2)
       ran := Function.update t.ran i (t.executedFor S i o)
       log := t.marks i o r.2 ++ t.log }, r.2)

end Tenancy

/-- The proxy over one cache, with the account. -/
def tenantProxy (S : Schemas srv) (u : Casing) (cfg : ProxyConfig) :
    Machine Op Res (fun o => In o × Nat) (Tenancy srv u) Session SessionEvent Admin where
  react := Session.react cfg
  handle t i o inp := t.handle S i o inp
  env t e := (t.world.act e).map fun world => { t with world }
  stop t i := some ({ t with world := t.world.stop i }, .absent)

/-- A state of it. -/
abbrev TenantState (srv : Server) (u : Casing) := Sys Op Res (Tenancy srv u) Session SessionEvent

/-- An event of it. -/
abbrev TenantEvent := Event Op (fun o => In o × Nat) SessionEvent Admin

/-- Clients that have just logged in. Each takes the database it has named for its default schema. -/
def tenantStart (srv : Server) (u : Casing) (maxEntries ttl : Nat) (primary : PoolConfig)
    (replicas : List PoolConfig) (clients : List Client) : TenantState srv u where
  world :=
    { world := .new srv primary replicas
      cache := .new u maxEntries ttl
      users := fun i => clients[i]?.elim [] Client.user
      chosen := fun i => clients[i]?.elim [] Client.database
      ran := fun _ => none
      log := [] }
  thread i := .idle (clients[i]?.elim .absent Client.session)

/-- The key that an operation of session `i` looks up or stores, and for whom. -/
def Tenancy.uses (t : Tenancy srv u) (i : Nat) : Op → Option (Str × Option Tenant)
  | .cacheGet key => some (key, some (t.tenant i))
  | .cachePut key _ => some (key, t.ran i)
  | _ => none

/-- The steps on which a key is used for its owner only. -/
def separate (owner : Str → Tenant) (s : TenantState srv u) : TenantEvent → Bool
  | .op i _ => (s.next i).all fun o => (s.world.uses i o).all fun p => p.2 == some (owner p.1)
  | _ => true

/-! ## Runs -/

/-- Nothing was returned to another tenant, and what is cached was computed for its owner. -/
structure Tenancy.Apart (owner : Str → Tenant) (t : Tenancy srv u) : Prop where
  /-- what was returned -/
  isolated : Isolated t.log
  /-- what is cached -/
  cached : ∀ key ∈ t.cache.keys, computedFor key t.log = some (owner key)

variable {S : Schemas srv} {owner : Str → Tenant} {t t' : Tenancy srv u}

/-- One operation of a session that uses a key for its owner. -/
theorem Tenancy.Apart.handle {i : Nat} {o : Op} {inp : In o × Nat} {r : Res o} (ht : t.Apart owner)
    (hown : ∀ p, t.uses i o = some p → p.2 = some (owner p.1)) (h : t.handle S i o inp = some (t', r)) :
    t'.Apart owner := by
  obtain ⟨⟨t₁, r₁⟩, hperform, heq⟩ := Option.map_eq_some_iff.mp h
  obtain ⟨rfl, rfl⟩ := Prod.mk.inj heq
  cases o with
  | cacheGet key =>
    cases hperform
    have hkeys : ∀ k ∈ (t.cache.get key inp.2).1.keys, computedFor k t.log = some (owner k) :=
      fun k hk => ht.cached k (QueryCache.keys_get hk)
    rw [Tenancy.marks]
    split
    · rename_i hsome
      obtain ⟨bytes, hbytes⟩ := Option.isSome_iff_exists.mp hsome
      refine ⟨⟨?_, ht.isolated⟩, hkeys⟩
      exact (ht.cached key (QueryCache.mem_keys_of_get hbytes)).trans (hown _ rfl).symm
    · exact ⟨ht.isolated, hkeys⟩
  | cachePut key bytes =>
    obtain ⟨cache, hput, heq⟩ := Option.map_eq_some_iff.mp hperform
    obtain ⟨rfl, -⟩ := Prod.mk.inj heq
    rw [Tenancy.marks]
    rcases QueryCache.put_cases hput with ⟨hnot, rfl⟩ | ⟨hcacheable, -⟩
    · rw [if_neg hnot]
      exact ⟨ht.isolated, ht.cached⟩
    · rw [if_pos hcacheable]
      refine ⟨ht.isolated, fun k hk => ?_⟩
      change (if key = k then t.ran i else computedFor k t.log) = some (owner k)
      by_cases hkey : key = k
      · rw [if_pos hkey, ← hkey]
        exact hown _ rfl
      · rw [if_neg hkey]
        exact ht.cached k ((QueryCache.keys_put hput hk).resolve_left (Ne.symm hkey))
  | cacheInvalidate sql =>
    cases hperform
    exact ⟨ht.isolated, fun k hk => ht.cached k (QueryCache.keys_invalidateTables hk).1⟩
  | _ =>
    unfold Tenancy.perform at hperform
    obtain ⟨w, -, heq⟩ := Option.map_eq_some_iff.mp hperform
    obtain ⟨rfl, -⟩ := Prod.mk.inj heq
    exact ⟨ht.isolated, ht.cached⟩

/-- **Isolation**: along every run in which no key is used for two tenants, whatever a session gets from
the cache was computed for its own user and schema. -/
theorem isolated_of_separate {cfg : ProxyConfig} {maxEntries ttl : Nat} {primary : PoolConfig}
    {replicas : List PoolConfig} {clients : List Client} {es : List TenantEvent} {s : TenantState srv u}
    (hrun : Steps (tenantProxy S u cfg).step (fun s e => separate owner s e = true)
      (tenantStart srv u maxEntries ttl primary replicas clients) es s) : Isolated s.world.log := by
  have hstart : (tenantStart srv u maxEntries ttl primary replicas clients).world.Apart owner :=
    ⟨trivial, List.forall_mem_nil _⟩
  refine (hrun.induct (P := fun s : TenantState srv u => s.world.Apart owner) (fun s e s' hs hok hstep => ?_) hstart).isolated
  cases e with
  | msg i m =>
    obtain ⟨st, p, -, -, rfl⟩ := Machine.step_msg hstep
    exact hs
  | op i inp =>
    obtain ⟨st, m, o, k, w', r, hthread, hhandle, rfl⟩ := Machine.step_op hstep
    refine hs.handle (fun p hp => ?_) hhandle
    simpa [separate, Sys.next_eq hthread, hp] using hok
  | env e =>
    obtain ⟨w', hact, rfl⟩ := Option.map_eq_some_iff.mp hstep
    obtain ⟨w₁, -, rfl⟩ := Option.map_eq_some_iff.mp hact
    exact ⟨hs.isolated, hs.cached⟩
  | stop i =>
    obtain ⟨w', st, hstop, rfl⟩ := Machine.step_stop hstep
    cases hstop
    exact ⟨hs.isolated, hs.cached⟩

/-! ## Two sessions -/

/-- The schema of a `USE` statement. -/
def useTarget (sql : Str) : Option Str :=
  if Str.startsWith (Str.toUppercase (Str.trimStart sql)) "USE " then
    some (Str.trimMatches (Char.ofNat 0x60) (Str.trim (Str.trimEndMatches ';' (Str.trim
      ((Str.trimStart sql).drop 4)))))
  else none

/-- The schema that a command of MySQL selects: a `USE`, or a COM_INIT_DB. -/
def Packet.useTarget : Packet → Option Str
  | .text sql => TurbineProxy.useTarget (textOf sql)
  | .raw (0x02 :: name) => some (fromUtf8Lossy name)
  | _ => none

/-- A MySQL server that keeps the default schema of a connection. -/
def Server.schemas : Server where
  Sess := Str
  fresh := []
  exec schema p n := (p.useTarget.getD schema, (Server.mysql.exec false p n).2)
  txOpen _ := false
  stmt _ _ := none

/-- What it knows of them. -/
def Schemas.mysql : Schemas .schemas := ⟨fun schema => schema, Packet.useTarget⟩

/-- Session `i` sends a query and performs `n` operations during which all goes well. -/
def asks (i : Nat) (sql : String) (n : Nat) : List TenantEvent :=
  .msg i (.mysql (.query (asciiBytes sql))) :: List.replicate n (.op i fun o => (calm 0 none o, 0))

/-- Two sessions of one user over one connection. The first selects a schema and reads a table; the second selects a
schema as well, and looks the same text up. -/
def bothAsk (use₀ use₁ : String) : List TenantEvent :=
  asks 0 use₀ 16 ++ asks 0 "SELECT a FROM t" 16 ++ asks 1 use₁ 16 ++ asks 1 "SELECT a FROM t" 8

/-- The user of the two, in a schema. -/
def appOn (schema : String) : Tenant := ⟨"app".toList, schema.toList⟩

/-- They log in. -/
def tenantsStart : TenantState .schemas .ascii :=
  tenantStart .schemas .ascii 1000 30 smallPool [] [mysqlClient, mysqlClient]

/-- If they select the same schema, the answer from the cache is for both. -/
theorem isolated_of_separate_sameSchema : ∃ s,
    run (tenantProxy .mysql .ascii smallConfig).step tenantsStart (bothAsk "USE shop" "USE shop") = some s ∧
      s.world.log.length = 2 ∧ Isolated s.world.log := by
  have hend : (run (fun s e => if separate (fun _ => appOn "shop") s e then
      (tenantProxy .mysql .ascii smallConfig).step s e else none) tenantsStart
      (bothAsk "USE shop" "USE shop")).map (·.world.log.length) = some 2 := by
    decide +kernel
  obtain ⟨s, hs, hlog⟩ := Option.map_eq_some_iff.mp hend
  have hsteps := steps_of_checked (fun _ _ h => h) hs
  exact ⟨s, hsteps.run, hlog, isolated_of_separate hsteps⟩

/-- If they do not, the second gets what was computed in the schema of the first. -/
theorem returned_across_schemas : ∃ s,
    run (tenantProxy .mysql .ascii smallConfig).step tenantsStart (bothAsk "USE shop" "USE audit") = some s ∧
      s.world.log = [.returned "SELECT a FROM t".toList (appOn "audit"),
        .stored "SELECT a FROM t".toList (some (appOn "shop"))] ∧ ¬Isolated s.world.log := by
  have hlog : (run (tenantProxy .mysql .ascii smallConfig).step tenantsStart
      (bothAsk "USE shop" "USE audit")).map (·.world.log) =
      some [.returned "SELECT a FROM t".toList (appOn "audit"),
        .stored "SELECT a FROM t".toList (some (appOn "shop"))] := by
    decide +kernel
  obtain ⟨s, hs, hslog⟩ := Option.map_eq_some_iff.mp hlog
  refine ⟨s, hs, hslog, fun h => ?_⟩
  rw [hslog] at h
  exact absurd h.1 (by decide +kernel)

end TurbineProxy

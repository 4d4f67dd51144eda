import TurbineProxy.QueryCache
import TurbineProxy.Router

/-!
# The cache among the requests

What requests to the router do to the query cache they share. Backends, pools and rules answer as the
environment pleases; of an exchange the environment also says which tables the statement wrote.

The world keeps a log of what matters for the freshness of cached responses, the latest event first.
-/

namespace TurbineProxy

/-- A call of the router. -/
inductive RouterCall : Type where
  /-- `route_query` / `route_query_with_database` -/
  | query (sql : Bytes) (txConn : Option ConnId) (inTransaction : Bool) (rt : Route)
  /-- `route_sticky_query` -/
  | sticky (sql : Bytes) (conn : Option ConnId) (idx : Option Nat)
  /-- `route_raw` -/
  | raw (packet : Bytes) (txConn : Option ConnId) (inTransaction : Bool) (database : Option Str)
  /-- `route_fast` -/
  | fast (sql : Bytes) (txConn : Option ConnId) (inTransaction : Bool)
  /-- `route_stmt_mysql_shadow` -/
  | stmt (packet : Bytes) (st : MysqlStmtState) (inTransaction : Bool)
  /-- `route_stmt_pg_shadow` -/
  | pipeline (packets : Bytes) (scan : PgPipelineScan) (shadow : PgStmtShadow)
    (stmtConn txConn : Option ConnId) (inTransaction : Bool) (database : Option Str)

namespace RouterCall

/-- What a call returns to its session. -/
def outcome : RouterCall → Task (Except Str Response)
  | query sql txConn inTransaction rt => do
    let r ← routeQueryInner sql txConn inTransaction rt
    pure r.2
  | sticky sql conn idx => do
    let r ← routeStickyQuery sql conn idx
    pure r.2.2
  | raw packet txConn inTransaction database => do
    let r ← routeRawInner packet txConn inTransaction database
    pure r.2
  | fast sql txConn inTransaction => do
    let r ← routeFast sql txConn inTransaction
    pure r.2
  | stmt packet st inTransaction => do
    let r ← routeStmtMysqlShadow packet st inTransaction
    pure r.2
  | pipeline packets scan shadow stmtConn txConn inTransaction database => do
    let r ← routeStmtPgShadowInner packets scan shadow stmtConn txConn inTransaction database
    pure r.2.2

/-- The session sends its client the reply. -/
def reply : Except Str Response → ToClient
  | .ok response => .response response.bytes
  | .error e => .error "1" e

/-- A request: the call and the reply. -/
def request (call : RouterCall) : Task Unit := do
  let r ← call.outcome
  let _ : Bool ← act (.toClient (reply r))
  pure ()

end RouterCall

/-! ## The log -/

/-- What happens to cached responses and to the data they come from. -/
inductive CacheEvent : Type where
  /-- a statement of request `i` succeeded on a backend and wrote these tables -/
  | executed (i : Nat) (tables : List Str)
  /-- request `i` stored a response -/
  | put (i : Nat) (key : Str)
  /-- request `i` invalidated these tables -/
  | invalidated (i : Nat) (tables : List Str)
  /-- request `i` got its reply -/
  | replied (i : Nat)
  /-- a stored response was returned -/
  | hit (key : Str)
  deriving DecidableEq

/-! ## The world -/

variable (u : Casing)

/-- The cache, with the log. -/
structure CacheWorld where
  /-- the cache -/
  cache : QueryCache u
  /-- what happened, the latest event first -/
  log : List CacheEvent

/-- What the environment decides at an operation. -/
structure CacheIn (o : Op) where
  /-- the answer of everything but the cache -/
  answer : Res o
  /-- the time -/
  now : Nat
  /-- the tables that a statement wrote -/
  wrote : List Str

variable {u}

namespace CacheWorld

variable (w : CacheWorld u)

/-- Something happened; the record has the latest first. -/
def note (e : CacheEvent) : CacheWorld u := { w with log := e :: w.log }

/-- Request `i` performs an operation. Where a `put` panics, the request goes no further. -/
def perform (i : Nat) : (o : Op) → CacheIn o → Option (CacheWorld u × Res o)
  | .cacheGet key, inp =>
    let r := w.cache.get key inp.now
    some ({ cache := r.1, log := if r.2.isSome then .hit key :: w.log else w.log }, r.2)
  | .cachePut key bytes, inp =>
    (w.cache.put key bytes inp.now).map fun cache =>
      ({ cache, log := if isCacheable key then .put i key :: w.log else w.log }, ())
  | .cacheInvalidate sql, _ =>
    let tables := extractTablesSimple u sql
    some ({ cache := w.cache.invalidateTables tables, log := .invalidated i tables :: w.log }, ())
  | .talk .client _ _ _ _, inp =>
    -- only a success counts as a statement that was executed
    some (match (inp.answer : Except TalkError Response) with
      | .ok response => if response.isError then w else w.note (.executed i inp.wrote)
      | .error _ => w, inp.answer)
  | .toClient _, inp => some (w.note (.replied i), inp.answer)
  | _, inp => some (w, inp.answer)

/-- An empty cache of which nothing has been recorded. -/
def new (u : Casing) (maxEntries ttl : Nat) : CacheWorld u := ⟨.new u maxEntries ttl, []⟩

end CacheWorld

end TurbineProxy

import TurbineProxy.BackendPool
import TurbineProxy.StmtShadow

/-!
# `Router`

Which backend receives a command, function by function as in `router.rs`. A `&mut Option<Box<dyn
BackendConnection>>` parameter becomes an `Option ConnId` that goes in and comes out again. The `?`
operator becomes an explicit error branch, because what happens to the connection in hand on that
branch is the point of most of what is proved about these functions.

`route_query_inner` is one long function in the source. It is cut here at its own section comments:
`routeInTx`, `routeAutocommit` (rewriting), `dispatch` (rules), `routeHostgroup`, `routeSplit` (cache),
`routeReplica`, `routePrimary`.
-/

namespace TurbineProxy

open Str

/-- `is_connection_lost`: a test on the text of the error. -/
def isConnectionLost (e : Str) : Bool :=
  let msg := toLowercase e
  contains msg "gone away" || contains msg "lost connection" || contains msg "broken pipe" ||
    contains msg "connection reset" || contains msg "eof" || contains msg "2006" ||
    contains msg "2013"

/-- What `execute_timed` says when the timer fires. -/
def killedError (timeoutMs : Nat) : Str :=
  "Query killed: exceeded max_query_time_ms (".toList ++ decimal timeoutMs ++ "ms)".toList

/-- The text of an error of an exchange under no timer. -/
def TalkError.text : TalkError → Str
  | .protocol e => e
  | .elapsed => []

/-- A response that comes from the cache. -/
def cachedResponse (bytes : Bytes) : Response := ⟨bytes, false, [], none⟩

/-!
## Single exchanges

An exchange sends one command and reads its response. The result says what the router learns, which may be less than
what the server has done.
-/

/-- `conn.execute_query(sql)` -/
def executeQuery (who : Purpose) (via : Via) (c : ConnId) (sql : Bytes) :
    Task (Except Str Response) := do
  let r : Except TalkError Response ← act (.talk who via c (.text sql) none)
  pure (r.mapError TalkError.text)

/-- `conn.send_raw(packet)` -/
def sendRaw (who : Purpose) (via : Via) (c : ConnId) (packet : Bytes) :
    Task (Except Str Response) := do
  let r : Except TalkError Response ← act (.talk who via c (.raw packet) none)
  pure (r.mapError TalkError.text)

/-- `conn.send_raw_no_response(packet)` -/
def sendRawNoResponse (via : Via) (c : ConnId) (packet : Bytes) :
    Task (Except Str Response) := do
  let r : Except TalkError Response ← act (.talk .client via c (.silent packet) none)
  pure (r.mapError TalkError.text)

/-- `Router::execute_timed`, on a connection the query path has on loan -/
def executeTimed (c : ConnId) (sql : Bytes) (timeoutMs : Nat) : Task (Except Str Response) := do
  let r : Except TalkError Response ← act (.talk .client .loan c (.text sql) (some timeoutMs))
  match r with
  | .ok resp => pure (.ok resp)
  | .error (.protocol e) => pure (.error e)
  | .error .elapsed => do
    let _ : Unit ← act (.spawnKill c)
    pure (.error (killedError timeoutMs))

/-- The choice every query path makes: timed when `max_query_time_ms` is set. -/
def execute (c : ConnId) (sql : Bytes) (timeoutMs : Nat) : Task (Except Str Response) :=
  if 0 < timeoutMs then executeTimed c sql timeoutMs else executeQuery .client .loan c sql

/-- `replay_session_vars`: errors are logged only. -/
def replaySessionVars (via : Via) (c : ConnId) : List Str → Task Unit
  | [] => pure ()
  | sql :: rest => do
    let _ ← executeQuery .replay via c (toUtf8 sql)
    replaySessionVars via c rest

/-- The connection in a session variable, or a new one to the primary. -/
def PoolRef.ensure (pool : PoolRef) (conn : Option ConnId) (database : Option Str) :
    Task (Except Str ConnId) :=
  match conn with
  | some c => pure (.ok c)
  | none => pool.getPrimaryForDatabase database

/-! ## `route_query_inner` -/

/-- The parameters of `route_query_inner` that do not change on the way. -/
structure Route where
  /-- the heuristic's choice -/
  useReplica : Bool
  /-- client user -/
  user : Str
  /-- client schema -/
  schema : Str
  /-- statements replayed on a fresh connection -/
  sessionInitSqls : List Str
  /-- database-scoped pooling -/
  database : Option Str

/-- Inside a transaction: the sticky primary, no cache, no retry. -/
def routeInTx (pool : PoolRef) (sql : Bytes) (txConn : Option ConnId) (rt : Route) :
    Task (Option ConnId × Except Str Response) := do
  let isNew := txConn.isNone
  let got ← pool.ensure txConn rt.database
  match got with
  | .error e => pure (txConn, .error e)
  | .ok c => do
    if isNew then replaySessionVars .txConn c rt.sessionInitSqls else pure ()
    let r ← executeQuery .client .txConn c sql
    pure (some c, r)

/-- `scoped_cache_key` -/
def scopedCacheKey (rt : Route) (effectiveSql : Str) : Str :=
  match rt.database with
  | some db => "[db:".toList ++ db ++ "] ".toList ++ effectiveSql
  | none => effectiveSql

/-- `routeHostgroup` once a backend has been asked for. -/
def runOnHostgroup (pool : PoolRef) (hg cacheTtlSecs : Nat) (effectiveSql : Str) (bytes : Bytes) (timeoutMs : Nat)
    (rt : Route) : Except Str (ConnId × Option Nat) → Task (Except Str Response)
  | .error e => pure (.error e)
  | .ok (c, putIdx) => do
    let r ← execute c bytes timeoutMs
    match r with
    | .error e => do
      let _ : Unit ← act (.drop .hostgroupError c)
      pure (.error e)
    | .ok response => do
      pool.giveBack c putIdx rt.database
      let _ : Unit ←
        if decide (0 < cacheTtlSecs) && !response.isError then
          act (.cachePut (scopedCacheKey rt effectiveSql) response.bytes)
        else if !response.isError && hg == 0 then act (.cacheInvalidate effectiveSql)
        else pure ()
      pure (.ok response)

/-- `routeHostgroup` once the cache has been asked, or not. -/
def askHostgroup (pool : PoolRef) (hg cacheTtlSecs : Nat) (effectiveSql : Str) (bytes : Bytes) (timeoutMs : Nat)
    (rt : Route) : Option Bytes → Task (Except Str Response)
  | some b => pure (.ok (cachedResponse b))
  | none => do
    let got ← pool.getHostgroupForDatabase hg rt.database
    runOnHostgroup pool hg cacheTtlSecs effectiveSql bytes timeoutMs rt got

/-- Hostgroup routing: one backend, no replay, no retry. -/
def routeHostgroup (pool : PoolRef) (hg cacheTtlSecs : Nat) (effectiveSql : Str) (bytes : Bytes)
    (timeoutMs : Nat) (rt : Route) : Task (Except Str Response) := do
  let cached : Option Bytes ←
    if decide (0 < cacheTtlSecs) && isCacheable effectiveSql then
      act (.cacheGet (scopedCacheKey rt effectiveSql))
    else pure none
  askHostgroup pool hg cacheTtlSecs effectiveSql bytes timeoutMs rt cached

/-- The mirror copy a rule may ask for, fired after a success. -/
def fireMirror (m : Option RuleMatch) (effectiveSql : Str) : Task Unit :=
  match m.bind (·.mirrorTo) with
  | some addr => act (.mirror addr effectiveSql)
  | none => pure ()

/-- The replica path after an exchange that failed: one retry on a fresh connection when the first one was lost. -/
def retryReplica (pool : PoolRef) (bytes : Bytes) (rt : Route) (c : ConnId) (idx : Option Nat) (e : Str) :
    Task (Except Str Response) := do
  pool.recordReplica idx false
  if isConnectionLost e then do
    let _ : Unit ← act (.drop .readLost c)
    let again ← pool.getReplicaForDatabase rt.database
    match again with
    | .error e => pure (.error e)
    | .ok (fresh, freshIdx) => do
      replaySessionVars .loan fresh rt.sessionInitSqls
      let r ← executeQuery .client .loan fresh bytes
      match r with
      | .error e => do
        let _ : Unit ← act (.drop .readRetryError fresh)
        pure (.error e)
      | .ok response => do
        pool.recordReplica freshIdx true
        pool.giveBack fresh freshIdx rt.database
        pure (.ok response)
  else do
    let _ : Unit ← act (.drop .readError c)
    pure (.error e)

/-- The replica path. -/
def routeReplica (pool : PoolRef) (effectiveSql : Str) (bytes : Bytes) (timeoutMs : Nat)
    (cacheAllowed : Bool) (m : Option RuleMatch) (rt : Route) : Task (Except Str Response) := do
  let got ← pool.getReplicaForDatabase rt.database
  match got with
  | .error e => pure (.error e)
  | .ok (c, idx) => do
    replaySessionVars .loan c rt.sessionInitSqls
    let r ← execute c bytes timeoutMs
    match r with
    | .error e => retryReplica pool bytes rt c idx e
    | .ok response => do
      pool.recordReplica idx true
      pool.giveBack c idx rt.database
      let _ : Unit ←
        if cacheAllowed && !response.isError then
          act (.cachePut (scopedCacheKey rt effectiveSql) response.bytes)
        else pure ()
      fireMirror m effectiveSql
      pure (.ok response)

/-- The retry of the write path: a fresh primary connection, the statement once more. -/
def retryPrimary (pool : PoolRef) (bytes : Bytes) (rt : Route) : Task (Except Str Response) := do
  let again ← pool.getPrimaryForDatabase rt.database
  match again with
  | .error e => pure (.error e)
  | .ok fresh => do
    replaySessionVars .loan fresh rt.sessionInitSqls
    let r ← executeQuery .client .loan fresh bytes
    match r with
    | .error e => do
      let _ : Unit ← act (.drop .writeRetryError fresh)
      pure (.error e)
    | .ok response => do
      let _ : Unit ← act (.primaryRecord pool.gen true)
      pool.putPrimaryForDatabase fresh rt.database
      pure (.ok response)

/-- The write path: execute on the primary, then invalidate; one retry when the connection was
lost. -/
def routePrimary (pool : PoolRef) (effectiveSql : Str) (bytes : Bytes) (timeoutMs : Nat)
    (m : Option RuleMatch) (rt : Route) : Task (Except Str Response) := do
  let got ← pool.getPrimaryForDatabase rt.database
  match got with
  | .error e => pure (.error e)
  | .ok c => do
    replaySessionVars .loan c rt.sessionInitSqls
    let r ← execute c bytes timeoutMs
    match r with
    | .error e => do
      let _ : Unit ← act (.primaryRecord pool.gen false)
      if isConnectionLost e then do
        let _ : Unit ← act (.drop .writeLost c)
        retryPrimary pool bytes rt
      else do
        let _ : Unit ← act (.drop .writeError c)
        pure (.error e)
    | .ok response => do
      let _ : Unit ← act (.primaryRecord pool.gen true)
      pool.putPrimaryForDatabase c rt.database
      let _ : Unit ←
        if response.isError then pure () else act (.cacheInvalidate effectiveSql)
      fireMirror m effectiveSql
      pure (.ok response)

/-- `(effective_replica, cache_allowed)` -/
def splitChoice (m : Option RuleMatch) (useReplica : Bool) : Bool × Bool :=
  match m with
  | some m =>
    match m.destination with
    | .primary => (false, false)
    | .replica => (true, 0 < m.cacheTtlSecs)
    | .any | .hostgroup _ => (useReplica, true)
  | none => (useReplica, true)

/-- Cache, then the replica or the write path. -/
def routeSplit (pool : PoolRef) (effectiveSql : Str) (bytes : Bytes) (timeoutMs : Nat)
    (m : Option RuleMatch) (rt : Route) : Task (Except Str Response) := do
  let choice := splitChoice m rt.useReplica
  let cached : Option Bytes ←
    if choice.1 && choice.2 && isCacheable effectiveSql then
      act (.cacheGet (scopedCacheKey rt effectiveSql))
    else pure none
  match cached with
  | some b => pure (.ok (cachedResponse b))
  | none =>
    if choice.1 then routeReplica pool effectiveSql bytes timeoutMs choice.2 m rt
    else routePrimary pool effectiveSql bytes timeoutMs m rt

/-- Rules: rate limit, hostgroup, then the split. -/
def dispatch (pool : PoolRef) (effectiveSql : Str) (bytes : Bytes) (timeoutMs : Nat) (rt : Route) :
    Task (Except Str Response) := do
  let m : Option RuleMatch ← act (.matchQuery effectiveSql rt.user rt.schema)
  match m with
  | some r =>
    if r.rateLimited then pure (.error "Too many requests: query rate limit exceeded".toList)
    else
      match r.destination with
      | .hostgroup hg => routeHostgroup pool hg r.cacheTtlSecs effectiveSql bytes timeoutMs rt
      | _ => routeSplit pool effectiveSql bytes timeoutMs m rt
  | none => routeSplit pool effectiveSql bytes timeoutMs m rt

/-- Outside a transaction: rewriting, then dispatch. A rewritten text replaces the client's bytes, an
unchanged one leaves them as they came. -/
def routeAutocommit (pool : PoolRef) (sql : Bytes) (rt : Route) : Task (Except Str Response) := do
  let sqlStr := textOf sql
  let timeoutMs : Nat ← act .maxQueryTime
  let outcome : RewriteOutcome ← act (.rewrite sqlStr)
  match outcome with
  | .blocked msg => pure (.error msg)
  | .rewritten s => dispatch pool s (toUtf8 s) timeoutMs rt
  | .unchanged => dispatch pool sqlStr sql timeoutMs rt

/-- `Router::route_query_inner` -/
def routeQueryInner (sql : Bytes) (txConn : Option ConnId) (inTransaction : Bool) (rt : Route) :
    Task (Option ConnId × Except Str Response) := do
  let pool : PoolRef ← act .readPool
  if inTransaction then routeInTx pool sql txConn rt
  else do
    let r ← routeAutocommit pool sql rt
    pure (txConn, r)

/-! ## Returning connections -/

/-- `Router::put_primary` and `Router::put_primary_for_database` -/
def putPrimary (c : ConnId) (database : Option Str) : Task Unit := do
  let pool : PoolRef ← act .readPool
  pool.putPrimaryForDatabase c database

/-- `Router::put_replica` -/
def putReplica (c : ConnId) (idx : Option Nat) : Task Unit := do
  let pool : PoolRef ← act .readPool
  pool.giveBack c idx none

/-! ## The other routes -/

/-- `Router::route_sticky_query`: the connection, its index and the outcome. -/
def routeStickyQuery (sql : Bytes) (stickyConn : Option ConnId) (stickyIdx : Option Nat) :
    Task (Option ConnId × Option Nat × Except Str Response) := do
  match stickyConn with
  | some c => do
    let r ← executeQuery .client .stickyConn c sql
    pure (some c, stickyIdx, r)
  | none => do
    let pool : PoolRef ← act .readPool
    let got ← pool.getReplicaForDatabase none
    match got with
    | .error e => pure (none, stickyIdx, .error e)
    | .ok (c, idx) => do
      let r ← executeQuery .client .stickyConn c sql
      pure (some c, idx, r)

/-- `Router::route_raw_inner` -/
def routeRawInner (packet : Bytes) (txConn : Option ConnId) (inTransaction : Bool)
    (database : Option Str) : Task (Option ConnId × Except Str Response) := do
  let pool : PoolRef ← act .readPool
  if inTransaction then do
    let got ← pool.ensure txConn database
    match got with
    | .error e => pure (txConn, .error e)
    | .ok c => do
      let r ← sendRaw .client .txConn c packet
      pure (some c, r)
  else do
    let got ← pool.getPrimaryForDatabase database
    match got with
    | .error e => pure (txConn, .error e)
    | .ok c => do
      let r ← sendRaw .client .loan c packet
      match r with
      | .error e => do
        let _ : Unit ← act (.drop .rawError c)
        pure (txConn, .error e)
      | .ok response => do
        pool.putPrimaryForDatabase c database
        pure (txConn, .ok response)

/-- `Router::route_fast` -/
def routeFast (sql : Bytes) (txConn : Option ConnId) (inTransaction : Bool) :
    Task (Option ConnId × Except Str Response) := do
  let pool : PoolRef ← act .readPool
  if inTransaction then do
    let got ← pool.ensure txConn none
    match got with
    | .error e => pure (txConn, .error e)
    | .ok c => do
      let r ← executeQuery .client .txConn c sql
      pure (some c, r)
  else do
    let got ← pool.getPrimaryForDatabase none
    match got with
    | .error e => pure (txConn, .error e)
    | .ok c => do
      let r ← executeQuery .client .loan c sql
      match r with
      | .error e => do
        let _ : Unit ← act (.drop .fastError c)
        pure (txConn, .error e)
      | .ok response => do
        pool.putPrimaryForDatabase c none
        pure (txConn, .ok response)

/-- `Router::is_fast_forward_rule` -/
def isFastForwardRule (sql user schema : Str) : Task Bool := do
  let m : Option RuleMatch ← act (.matchQuery sql user schema)
  pure (m.elim false (·.fastForward))

/-- The text of the GTID check. -/
def gtidProbe (writeGtid : Str) : Str :=
  "SELECT GTID_SUBSET('".toList ++
    writeGtid.flatMap (fun c => if c.toNat = 39 then [c, c] else [c]) ++
    "', @@global.gtid_executed)".toList

/-- `Router::check_replica_has_gtid`: every error counts as `false`. The connection is returned with
`put_replica_for_database` whatever its index. -/
def checkReplicaHasGtid (writeGtid : Str) : Task Bool := do
  let pool : PoolRef ← act .readPool
  if pool.replicas.isEmpty then pure false
  else do
    let got ← pool.getReplicaForDatabase none
    match got with
    | .error _ => pure false
    | .ok (c, idx) => do
      let r ← executeQuery .probe .loan c (toUtf8 (gtidProbe writeGtid))
      match r with
      | .error _ => do
        let _ : Unit ← act (.drop .probeError c)
        pure false
      | .ok response => do
        pool.putReplicaForDatabase c idx none
        pure (!response.isError && response.bytes.contains 0x31)

/-! ## MySQL prepared statements -/

/-- What `route_stmt_mysql_shadow` borrows from the session. -/
structure MysqlStmtState where
  /-- proxy ids -/
  shadow : MysqlStmtShadow
  /-- the connection for statements outside transactions -/
  stmtConn : Option ConnId
  /-- the connection of the transaction -/
  txConn : Option ConnId

/-- The variable `active_conn!()` stands for. -/
def activeVia (inTransaction : Bool) : Via := if inTransaction then .txConn else .stmtConn

/-- Register the statement of a PREPARE_OK and give the client the proxy's id for it. -/
def registerPrepared (st : MysqlStmtState) (query : Bytes) (response : Response) :
    MysqlStmtState × Response :=
  match mysqlParsePrepareOk response.bytes with
  | some (backendId, numColumns, numParams) =>
    let r := st.shadow.register query numParams numColumns backendId
    ({ st with shadow := r.1 },
      { response with bytes := mysqlRewritePrepareOk response.bytes r.2 })
  | none => (st, response)

/-- `COM_STMT_PREPARE` on the active connection `c`; retried once on a fresh one outside
transactions. -/
def stmtPrepare (pool : PoolRef) (raw query : Bytes) (c : ConnId) (st : MysqlStmtState)
    (inTransaction : Bool) : Task (MysqlStmtState × Except Str Response) := do
  let r ← sendRaw .client (activeVia inTransaction) c raw
  match r with
  | .ok response => pure (Prod.map id .ok (registerPrepared st query response))
  | .error e =>
    if isConnectionLost e && !inTransaction then do
      let again ← pool.getPrimaryForDatabase none
      match again with
      | .error e => pure (st, .error e)
      | .ok fresh => do
        let _ : Unit ← act (.drop .stmtReplaced c)
        let st := { st with stmtConn := some fresh }
        let r ← sendRaw .client .stmtConn fresh raw
        match r with
        | .error e => pure (st, .error e)
        | .ok response => pure (Prod.map id .ok (registerPrepared st query response))
    else pure (st, .error e)

/-- Prepare every open statement on a fresh connection; the ids it assigned. A failure is logged and
its statement keeps the id it had. -/
def reprepare (fresh : ConnId) : List (Nat × Bytes) → Task (List (Nat × Nat))
  | [] => pure []
  | (pid, prep) :: rest => do
    let r ← sendRaw .reprepare .loan fresh prep
    let others ← reprepare fresh rest
    match r with
    | .ok resp =>
      match mysqlParsePrepareOk resp.bytes with
      | some (newId, _, _) => pure ((pid, newId) :: others)
      | none => pure others
    | .error _ => pure others

/-- `COM_STMT_EXECUTE` after its connection was lost: a fresh connection, all open statements prepared
again, the command once more. -/
def executeAgain (pool : PoolRef) (raw : Bytes) (proxyId backendId : Nat) (c : ConnId)
    (st : MysqlStmtState) : Task (MysqlStmtState × Except Str Response) := do
  let again ← pool.getPrimaryForDatabase none
  match again with
  | .error e => pure (st, .error e)
  | .ok fresh => do
    let newIds ← reprepare fresh st.shadow.reprepareJobs
    let _ : Unit ← act (.drop .stmtReplaced c)
    let st := { st with shadow := st.shadow.updateBackendIds newIds, stmtConn := some fresh }
    let newBackendId := (st.shadow.backendId proxyId).getD backendId
    let r ← sendRaw .client .stmtConn fresh (mysqlRewriteStmtId raw newBackendId)
    pure (st, r)

/-- The commands that carry a statement id. An id the shadow does not know goes through as it is. -/
def stmtWithId (pool : PoolRef) (cmd : UInt8) (raw : Bytes) (c : ConnId) (st : MysqlStmtState)
    (inTransaction : Bool) : Task (MysqlStmtState × Except Str Response) :=
  match mysqlReadStmtId raw with
  | none => do
    let r ← sendRaw .client (activeVia inTransaction) c raw
    pure (st, r)
  | some proxyId => do
    let backendId := (st.shadow.backendId proxyId).getD proxyId
    let rewritten := mysqlRewriteStmtId raw backendId
    if cmd = Com.stmtClose ∨ cmd = Com.stmtSendLongData then do
      let r ← sendRawNoResponse (activeVia inTransaction) c rewritten
      match r with
      | .error e => pure (st, .error e)
      | .ok _ =>
        pure (if cmd = Com.stmtClose then { st with shadow := st.shadow.remove proxyId } else st,
          .ok ⟨[], false, [], none⟩)
    else do
      let r ← sendRaw .client (activeVia inTransaction) c rewritten
      match r with
      | .ok response => pure (st, .ok response)
      | .error e =>
        if cmd = Com.stmtExecute ∧ isConnectionLost e = true ∧ inTransaction = false then
          executeAgain pool raw proxyId backendId c st
        else pure (st, .error e)

/-- `Router::route_stmt_mysql_shadow` -/
def routeStmtMysqlShadow (raw : Bytes) (st : MysqlStmtState) (inTransaction : Bool) :
    Task (MysqlStmtState × Except Str Response) := do
  let pool : PoolRef ← act .readPool
  match raw with
  | [] => pure (st, .error "[mysql shadow] empty stmt packet".toList)
  | cmd :: query => do
    let got ← pool.ensure (if inTransaction then st.txConn else st.stmtConn) none
    match got with
    | .error e => pure (st, .error e)
    | .ok c => do
      let st := if inTransaction then { st with txConn := some c } else { st with stmtConn := some c }
      if cmd = Com.stmtPrepare then stmtPrepare pool raw query c st inTransaction
      else if mysqlHasStmtId cmd then stmtWithId pool cmd raw c st inTransaction
      else do
        let r ← sendRaw .client (activeVia inTransaction) c raw
        pure (st, r)

/-! ## PostgreSQL pipelines -/

/-- Prepare the named statements on a fresh connection, best effort. -/
def reprepareAll (fresh : ConnId) : List Bytes → Task Unit
  | [] => pure ()
  | bytes :: rest => do
    let _ ← sendRaw .reprepare .loan fresh bytes
    reprepareAll fresh rest

/-- `Router::route_stmt_pg_shadow_inner`: `stmt_conn`, `tx_conn` and the outcome. -/
def routeStmtPgShadowInner (raw : Bytes) (scan : PgPipelineScan) (shadow : PgStmtShadow)
    (stmtConn txConn : Option ConnId) (inTransaction : Bool) (database : Option Str) :
    Task (Option ConnId × Option ConnId × Except Str Response) := do
  let pool : PoolRef ← act .readPool
  let got ← pool.ensure (if inTransaction then txConn else stmtConn) database
  match got with
  | .error e => pure (stmtConn, txConn, .error e)
  | .ok c =>
    if inTransaction then do
      let r ← sendRaw .client .txConn c raw
      pure (stmtConn, some c, r)
    else do
      let r ← sendRaw .client .stmtConn c raw
      match r with
      | .ok response => pure (some c, txConn, .ok response)
      | .error e =>
        if isConnectionLost e then do
          let again ← pool.getPrimaryForDatabase database
          match again with
          | .error e => pure (some c, txConn, .error e)
          | .ok fresh => do
            let newlyPrepared := (scan.parses.map (·.1)).filter fun name => !name.isEmpty
            reprepareAll fresh (shadow.buildReprepareFor newlyPrepared)
            let retry ← sendRaw .client .loan fresh raw
            let _ : Unit ← act (.drop .stmtReplaced c)
            pure (some fresh, txConn, retry)
        else pure (some c, txConn, .error e)

end TurbineProxy

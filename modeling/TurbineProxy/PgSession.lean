import TurbineProxy.MysqlSession

/-!
# The PostgreSQL session loop

`handle_pg_connection` of `pg_server.rs`. A session keeps two connections, `tx_conn` for simple
queries inside a transaction and `stmt_conn` for extended-query pipelines, and takes a fresh one for
every other command. It learns the backend's transaction state from the `ReadyForQuery` message at the
end of a response (`extractReadyStatus`).

The initial statements and the pass-through commands take their connection from the pool the server was
created with (`PgConfig.ownPool`) and return it through the router, to the pool it uses now.
-/

namespace TurbineProxy

open Str

/-- The loop of `extract_ready_status`: every round drops the five bytes of a header at least. -/
def extractReadyStatusLoop : Nat → Bytes → Option UInt8 → Option UInt8
  | 0, _, last => last
  | n + 1, bytes, last =>
    match bytes with
    | t :: a :: b :: c :: d :: rest =>
      let len := le32 d c b a
      if len < 4 ∨ rest.length < len - 4 then last
      else
        extractReadyStatusLoop n (rest.drop (len - 4))
          (if t = 0x5A ∧ len = 5 then rest.head? else last)
    | _ => last

/-- `extract_ready_status`: the status byte of the last `ReadyForQuery`. -/
def extractReadyStatus (bytes : Bytes) : Option UInt8 :=
  extractReadyStatusLoop (bytes.length + 1) bytes none

/-- The settings a session is started with. -/
structure PgConfig where
  /-- `srv.pool`: the pool the server was created with -/
  ownPool : PoolRef
  /-- `read_your_own_writes_ms` -/
  readYourOwnWritesMs : Nat
  /-- the injection detector, if there is one, matches the text -/
  sqliMatches : Str → Bool
  /-- `query_whitelist.is_allowed` -/
  whitelistAllows : Str → Bool

/-- The state of one session. -/
structure PgSession where
  /-- where the session is -/
  phase : Phase
  /-- `session.username()` -/
  user : Str
  /-- the client's database -/
  database : Str
  /-- `session.allow_writes()` -/
  allowWrites : Bool
  /-- statements executed before the loop -/
  sessionInitSqls : List Str
  /-- `session.is_in_transaction()` -/
  inTransaction : Bool
  /-- sticky connection for transactions -/
  txConn : Option ConnId
  /-- sticky connection for pipelines -/
  stmtConn : Option ConnId
  /-- named statements -/
  shadow : PgStmtShadow
  /-- reads go to the primary until then -/
  ryowUntil : Option Nat

/-- A client command, or a step of the session's own. -/
inductive PgEvent : Type where
  /-- the code before the loop -/
  | start
  /-- `Terminate`, or the socket is closed -/
  | quit
  /-- simple query -/
  | query (sql : Bytes)
  /-- extended-query pipeline up to `Sync` -/
  | stmt (raw : Bytes)
  /-- COPY data and unknown messages -/
  | other (raw : Bytes)
  /-- the code after the loop -/
  | cleanup
  deriving DecidableEq

/-- What a meta-command lists. -/
def metaQueries : List (List String × String) :=
  [(["\\dt", "\\dv"],
      "SELECT schemaname, tablename AS name, 'table' AS type FROM pg_tables WHERE schemaname NOT IN ('pg_catalog','information_schema') ORDER BY schemaname, tablename"),
   (["\\l", "\\list"],
      "SELECT datname AS database, pg_catalog.pg_get_userbyid(datdba) AS owner, pg_encoding_to_char(encoding) AS encoding FROM pg_database ORDER BY datname"),
   (["\\di"],
      "SELECT indexname, tablename, indexdef FROM pg_indexes WHERE schemaname NOT IN ('pg_catalog','information_schema') ORDER BY tablename, indexname"),
   (["\\dn"],
      "SELECT nspname AS schema, pg_catalog.pg_get_userbyid(nspowner) AS owner FROM pg_namespace WHERE nspname NOT LIKE 'pg_%' AND nspname != 'information_schema' ORDER BY nspname"),
   (["\\du", "\\dg"],
      "SELECT rolname AS role, rolsuper, rolcreatedb, rolcreaterole, rolcanlogin FROM pg_roles ORDER BY rolname"),
   (["\\d"],
      "SELECT table_schema, table_name, table_type FROM information_schema.tables WHERE table_schema NOT IN ('pg_catalog','information_schema') ORDER BY table_schema, table_name")]

/-- `translate_meta_command`: the SQL behind a psql meta-command; `\d table` is left to the
backend. -/
def translateMetaCommand (cmd : Str) : Option Bytes :=
  let name := cmd.takeWhile (· != ' ')
  let argument := ((cmd.drop (name.length + 1)).takeWhile (· != ' '))
  if name == "\\d".toList && !argument.isEmpty then none
  else
    (metaQueries.find? fun e => e.1.any fun n => n.toList == name).map fun e => asciiBytes e.2

namespace PgSession

/-- The text of a simple query as the loop looks at it. -/
def textAsSeen (bytes : Bytes) : Str := trim (textOf bytes)

/-- The SQL behind a psql meta-command. -/
def metaOf (bytes : Bytes) : Option Bytes :=
  if startsWith (textAsSeen bytes) "\\" then translateMetaCommand (textAsSeen bytes) else none

/-- A new session. -/
def new (user database : Str) (allowWrites : Bool) (initSqls : List Str) : PgSession :=
  { phase := .starting, user, database, allowWrites, sessionInitSqls := initSqls,
    inTransaction := false, txConn := none, stmtConn := none, shadow := .new, ryowUntil := none }

variable (cfg : PgConfig) (st : PgSession)

/-- `break` -/
def close : PgSession := { st with phase := .closing }

/-- Write an error, then flush; failures of either are ignored. -/
def refuse (code : String) (msg : Str) : Task PgSession := do
  let _ : Bool ← act (.toClient (.error code msg))
  let _ : Bool ← act (.toClient .flush)
  pure st

/-- `session.flush()`; the loop ends when it fails. -/
def flush : Task PgSession := do
  let sent : Bool ← act (.toClient .flush)
  pure (if sent then st else st.close)

/-- `if let Some(conn) = tx_conn.take() { router.put_primary_for_database(conn) }` -/
def releaseTx : Task PgSession :=
  match st.txConn with
  | some c => do
    putPrimary c (some st.database)
    pure { st with txConn := none }
  | none => pure st

/-- Statements are deallocated before `stmt_conn` goes back to the pool. -/
def releaseStmt : Task PgSession :=
  match st.stmtConn with
  | some c => do
    let _ ← executeQuery .cleanup .stmtConn c (asciiBytes "DEALLOCATE ALL")
    putPrimary c (some st.database)
    pure { st with stmtConn := none }
  | none => pure st

/-- `if let Some(conn) = tx_conn.take() { drop(conn) }` -/
def dropTx : Task PgSession :=
  match st.txConn with
  | some c => do
    let _ : Unit ← act (.drop .txBackendDied c)
    pure { st with txConn := none }
  | none => pure st

/-- Before the loop: the user's initial statements, on a connection of the server's own pool. -/
def start : Task PgSession := do
  let st := { st with phase := .running }
  if st.sessionInitSqls.isEmpty then pure st
  else do
    let got ← cfg.ownPool.getPrimaryForDatabase (some st.database)
    match got with
    | .error _ => pure st
    | .ok c => do
      replaySessionVars .loan c st.sessionInitSqls
      putPrimary c (some st.database)
      pure st

/-- After the loop. -/
def cleanup : Task PgSession := do
  let st ← st.releaseTx
  let st ← st.releaseStmt
  pure { st with phase := .ended }

/-! ## Simple queries -/

/-- A psql meta-command, routed as a read. -/
def metaQuery (sql : Bytes) : Task PgSession := do
  let r ← routeQueryInner sql st.txConn st.inTransaction ⟨true, st.user, [], [], some st.database⟩
  let _ : Bool ← act (.toClient (match r.2 with
    | .ok response => .response response.bytes
    | .error e => .error "XX000" e))
  let _ : Bool ← act (.toClient .flush)
  pure { st with txConn := r.1 }

/-- The queries the proxy refuses. -/
def refusal (sql : Str) : Option Str :=
  if !st.allowWrites && classify sql == .write then
    some "User is not allowed to write (read-only account)".toList
  else if cfg.sqliMatches sql then some "Query blocked: potential SQL injection detected".toList
  else if !cfg.whitelistAllows sql then some "Query not permitted: not in the query allowlist".toList
  else none

/-- `starts_tx` -/
def startsTx (sql : Str) : Bool :=
  let upper := toUppercase (trim sql)
  startsWith upper "BEGIN" || startsWith upper "START TRANSACTION" || startsWith upper "START WORK"

/-- `ends_tx` -/
def endsTx (sql : Str) : Bool :=
  let upper := toUppercase (trim sql)
  startsWith upper "COMMIT" || startsWith upper "ROLLBACK" || upper == "END".toList ||
    startsWith upper "END "

/-- Whether the read-your-own-writes window is open. -/
def ryowActive : Task Bool :=
  match (if 0 < cfg.readYourOwnWritesMs then st.ryowUntil else none) with
  | some limit => do
    let now : Nat ← act .now
    pure (decide (now < limit))
  | none => pure false

/-- The status the response ends with. -/
def readyStatus (r : Except Str Response) : Option UInt8 :=
  match r with
  | .ok response => extractReadyStatus response.bytes
  | .error _ => none

/-- The flag follows a status byte; outside a transaction `tx_conn` goes back. -/
def followStatus (status : Option UInt8) : Task PgSession :=
  match status with
  | some status =>
    let st := { st with inTransaction := inTxStatus status }
    if inTxStatus status then pure st else st.releaseTx
  | none => pure st

/-- The test for a backend that died in the middle of a transaction. -/
def isGone (e : Str) : Bool :=
  contains e "broken pipe" || contains (toLowercase e) "connection reset" ||
    contains (toLowercase e) "gone away" || contains e "08006" || contains e "08001"

/-- A response is forwarded. -/
def forward (response : Response) : Task PgSession := do
  let sent : Bool ← act (.toClient (.response response.bytes))
  if sent then st.flush else pure st.close

/-- A Write that succeeded opens the window, before its response is forwarded. -/
def afterResponse (sql : Str) (response : Response) : Task PgSession := do
  let st ←
    if !response.isError && decide (0 < cfg.readYourOwnWritesMs) && classify sql == .write then do
      let now : Nat ← act .now
      pure { st with ryowUntil := some (now + cfg.readYourOwnWritesMs) }
    else pure st
  st.forward response

/-- An error is forwarded; a backend that died takes its transaction along. -/
def afterError (e : Str) : Task PgSession := do
  if isGone e && st.inTransaction then do
    let st ← dropTx { st with inTransaction := false }
    let _ : Bool ← act (.toClient (.error "25P02" e))
    st.flush
  else do
    let _ : Bool ← act (.toClient (.error "XX000" e))
    st.flush

/-- The outcome of a simple query is forwarded. -/
def outcome (sql : Str) (r : Except Str Response) : Task PgSession :=
  match r with
  | .ok response => st.afterResponse cfg sql response
  | .error e => st.afterError e

/-- A statement that starts a transaction raises the flag. -/
theorem raise_startsTx (sql : Str) : (if startsTx sql then { st with inTransaction := true } else st) =
    { st with inTransaction := st.inTransaction || startsTx sql } := by
  rcases startsTx sql with _ | _ <;> simp

/-- The rest of `plainQuery`, once its text is routed. -/
def settle (sql : Str) (r : Except Str Response) : Task PgSession := do
  let st ←
    if endsTx sql then releaseTx { st with inTransaction := false }
    else st.followStatus (readyStatus r)
  st.outcome cfg sql r

/-- A simple query that is not refused. -/
def plainQuery (sql : Str) (bytes : Bytes) : Task PgSession := do
  let st := if startsTx sql then { st with inTransaction := true } else st
  let ryow ← st.ryowActive cfg
  let r ← routeQueryInner bytes st.txConn st.inTransaction
    ⟨classify sql == .read && !ryow, st.user, [], [], some st.database⟩
  settle cfg { st with txConn := r.1 } sql r.2

/-- `Command::Query` -/
def query (bytes : Bytes) : Task PgSession :=
  let sql := trim (textOf bytes)
  match (if startsWith sql "\\" then translateMetaCommand sql else none) with
  | some translated => st.metaQuery translated
  | none =>
    match st.refusal cfg sql with
    | some msg => st.refuse "42501" msg
    | none => st.plainQuery cfg sql bytes

/-! ## Pipelines and the rest -/

/-- `stmt` once the answer has been sent, or not. -/
def flushStmt (sent : Bool) : Task PgSession :=
  if sent then do
    let flushed : Bool ← act (.toClient .flush)
    if flushed then
      if st.shadow.isEmpty && !st.inTransaction then st.releaseStmt else pure st
    else pure st.close
  else pure st.close

/-- The rest of `stmt`, once its pipeline is routed. -/
def settleStmt (r : Except Str Response) : Task PgSession := do
  let st ← st.followStatus (readyStatus r)
  let sent : Bool ←
    match r with
    | .ok response => act (.toClient (.response response.bytes))
    | .error e => do
      let _ : Bool ← act (.toClient (.error "XX000" e))
      pure true
  st.flushStmt sent

/-- `Command::Stmt` -/
def stmt (raw : Bytes) : Task PgSession := do
  let scan := scanPgPipeline raw
  let st := { st with shadow := st.shadow.applyScan scan }
  let r ← routeStmtPgShadowInner raw scan st.shadow st.stmtConn st.txConn st.inTransaction
    (some st.database)
  settleStmt { st with stmtConn := r.1, txConn := r.2.1 } r.2.2

/-- `Command::Other`: a fresh primary connection of the server's own pool. -/
def other (raw : Bytes) : Task PgSession := do
  let got ← cfg.ownPool.getPrimaryForDatabase (some st.database)
  match got with
  | .error _ => do
    let st ← st.refuse "08006" "could not connect to primary".toList
    pure st.close
  | .ok c => do
    let r ← sendRaw .client .loan c raw
    match r with
    | .ok response => do
      let st := match extractReadyStatus response.bytes with
        | some status => { st with inTransaction := inTxStatus status }
        | none => st
      putPrimary c (some st.database)
      st.forward response
    | .error e => do
      let _ : Bool ← act (.toClient (.error "XX000" e))
      let st ← st.flush
      let _ : Unit ← act (.drop .otherError c)
      pure st

/-- The session of `other` after a response. -/
def noteStatus (response : Response) : PgSession :=
  match extractReadyStatus response.bytes with
  | some status => { st with inTransaction := inTxStatus status }
  | none => st

/-- One turn of the loop, or the code around it; `none` when the session is not there. -/
def react : PgEvent → Option (Task PgSession)
  | .start => if st.phase = .starting then some (st.start cfg) else none
  | .cleanup => if st.phase = .closing then some st.cleanup else none
  | e =>
    if st.phase = .running then
      some (match e with
        | .query bytes => st.query cfg bytes
        | .stmt raw => st.stmt raw
        | .other raw => st.other cfg raw
        | _ => pure st.close)
    else none

/-- The phase in which an event is taken. -/
def phaseOf : PgEvent → Phase
  | .start => .starting
  | .cleanup => .closing
  | _ => .running

/-- What is done for an event. -/
def taskOf : PgEvent → Task PgSession
  | .start => st.start cfg
  | .query bytes => st.query cfg bytes
  | .stmt raw => st.stmt raw
  | .other raw => st.other cfg raw
  | .quit => pure st.close
  | .cleanup => st.cleanup

theorem react_eq (e : PgEvent) :
    st.react cfg e = if st.phase = phaseOf e then some (st.taskOf cfg e) else none := by
  cases e <;> rfl

/-- The turns there are. -/
theorem react_eq_some {cfg : PgConfig} {st : PgSession} {e : PgEvent} {p : Task PgSession}
    (h : st.react cfg e = some p) : st.phase = phaseOf e ∧ p = st.taskOf cfg e := by
  rw [react_eq] at h
  obtain ⟨hphase, hp⟩ := Option.ite_none_right_eq_some.mp h
  exact ⟨hphase, (Option.some.inj hp).symm⟩

end PgSession

end TurbineProxy

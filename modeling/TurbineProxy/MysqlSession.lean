import TurbineProxy.Router

/-!
# The MySQL session loop

`handle_connection` of `server.rs`: the local variables of the loop are the fields of `MysqlSession`,
one turn of the loop is `MysqlSession.handle`. Leaving the loop (`break`) is the phase `closing`; the
code after the loop is `MysqlSession.cleanup`.

The long `Command::Query` arm is cut at its own section comments. Metrics, traces, audit and analytics
are left out: nothing that is modelled reads them.
-/

namespace TurbineProxy

open Str

/-- Where a session is in its life. -/
inductive Phase : Type where
  /-- before the command loop (PostgreSQL only) -/
  | starting
  /-- in the command loop -/
  | running
  /-- past the loop, before the clean-up -/
  | closing
  /-- done -/
  | ended
  deriving DecidableEq

/-- The settings `handle_connection` is started with. -/
structure MysqlConfig where
  /-- `max_transaction_time_ms` -/
  maxTransactionTimeMs : Nat
  /-- `max_transaction_idle_ms` -/
  maxTransactionIdleMs : Nat
  /-- `read_your_own_writes_ms` -/
  readYourOwnWritesMs : Nat
  /-- `gtid_aware_ryow` -/
  gtidAwareRyow : Bool
  /-- `fast_forward` -/
  fastForward : Bool
  /-- `select_version_forwarding` -/
  selectVersionForwarding : Bool
  /-- `client_error_limit` -/
  clientErrorLimit : Nat
  /-- `client_error_window_secs` -/
  clientErrorWindowSecs : Nat
  /-- the injection detector, if there is one, matches the text -/
  sqliMatches : Str → Bool
  /-- `query_whitelist.is_allowed` -/
  whitelistAllows : Str → Bool
  /-- `format!("{:?}", s)` of a string -/
  debugStr : Str → Str

/-- The state of one session. -/
structure MysqlSession where
  /-- where the session is -/
  phase : Phase
  /-- `session.username()` -/
  user : Str
  /-- `session.allow_writes()` -/
  allowWrites : Bool
  /-- `session.is_in_transaction()` -/
  inTransaction : Bool
  /-- sticky connection for transactions -/
  txConn : Option ConnId
  /-- sticky connection for prepared statements -/
  stmtConn : Option ConnId
  /-- the session is pinned to `tx_conn` -/
  userVarSticky : Bool
  /-- statements replayed on fresh connections -/
  sessionInitSqls : List Str
  /-- statement ids -/
  shadow : MysqlStmtShadow
  /-- when the open transaction began -/
  txStart : Option Nat
  /-- when the last query of the transaction ran -/
  lastQueryInTx : Option Nat
  /-- reads go to the primary until then -/
  ryowUntil : Option Nat
  /-- GTID of the last write -/
  lastWriteGtid : Option Str
  /-- errors in the current window -/
  consecutiveErrors : Nat
  /-- when the window began -/
  errorWindowStart : Option Nat
  /-- connection of the `sticky_backend` hint -/
  stickyHintConn : Option ConnId
  /-- its replica index, `none` for the primary -/
  stickyHintIdx : Option Nat
  /-- the hint is on -/
  stickyHintActive : Bool

/-- A client command, or the end of the session. -/
inductive MysqlEvent : Type where
  /-- `COM_QUIT`, or the socket is closed -/
  | quit
  /-- `COM_PING` -/
  | ping
  /-- `COM_RESET_CONNECTION` (`COM_CHANGE_USER` is passed through like any other command) -/
  | resetConnection
  /-- `COM_QUERY` -/
  | query (sql : Bytes)
  /-- `COM_STMT_*` -/
  | stmt (raw : Bytes)
  /-- every other command -/
  | other (raw : Bytes)
  /-- the code after the loop -/
  | cleanup
  deriving DecidableEq

namespace MysqlSession

/-- A new session of a user. -/
def new (user : Str) (allowWrites : Bool) (initSqls : List Str) : MysqlSession :=
  { phase := .running, user, allowWrites, inTransaction := false, txConn := none,
    stmtConn := none, userVarSticky := false, sessionInitSqls := initSqls, shadow := .new,
    txStart := none, lastQueryInTx := none, ryowUntil := none, lastWriteGtid := none,
    consecutiveErrors := 0, errorWindowStart := none, stickyHintConn := none, stickyHintIdx := none,
    stickyHintActive := false }

variable (cfg : MysqlConfig) (st : MysqlSession)

/-- `session.database()`: the protocol layer takes no database from its client and says "" for it. -/
def database : Str := []

/-- `break` -/
def close : MysqlSession := { st with phase := .closing }

/-! ## Answering the client -/

/-- `session.flush()`; the loop ends when it fails. -/
def flush : Task MysqlSession := do
  let sent : Bool ← act (.toClient .flush)
  pure (if sent then st else st.close)

/-- Write the outcome of a command and flush. -/
def answer (r : Except Str Response) : Task MysqlSession :=
  match r with
  | .ok response => do
    let sent : Bool ← act (.toClient (.response response.bytes))
    if sent then st.flush else pure st.close
  | .error e => do
    let _ : Bool ← act (.toClient (.error "1" e))
    st.flush

/-! ## Returning connections -/

/-- `if let Some(conn) = tx_conn.take() { router.put_primary(conn) }` -/
def releaseTx : Task MysqlSession :=
  match st.txConn with
  | some c => do
    putPrimary c none
    pure { st with txConn := none }
  | none => pure st

/-- `if let Some(conn) = stmt_conn.take() { router.put_primary(conn) }` -/
def releaseStmt : Task MysqlSession :=
  match st.stmtConn with
  | some c => do
    putPrimary c none
    pure { st with stmtConn := none }
  | none => pure st

/-- `if let Some(conn) = sticky_hint_conn.take() { router.put_replica(conn, idx) }` -/
def releaseSticky : Task MysqlSession :=
  match st.stickyHintConn with
  | some c => do
    putReplica c st.stickyHintIdx
    pure { st with stickyHintConn := none, stickyHintIdx := none }
  | none => pure { st with stickyHintIdx := none }

/-- `if let Some(conn) = tx_conn.take() { drop(conn) }` -/
def dropTx (exit : Exit) : Task MysqlSession :=
  match st.txConn with
  | some c => do
    let _ : Unit ← act (.drop exit c)
    pure { st with txConn := none }
  | none => pure st

/-- `Command::ResetConnection` -/
def resetConnection : Task MysqlSession := do
  let st := { st with
    sessionInitSqls := [], userVarSticky := false, shadow := .new, txStart := none,
    lastQueryInTx := none, inTransaction := false, consecutiveErrors := 0,
    errorWindowStart := none }
  let st ← st.releaseStmt
  let st ← st.releaseTx
  let st ← st.releaseSticky
  let sent : Bool ← act (.toClient .ok)
  let st := { st with stickyHintActive := false }
  pure (if sent then st else st.close)

/-- After the loop: the sticky connections go back to the pool. -/
def cleanup : Task MysqlSession := do
  let st ← st.releaseTx
  let st ← st.releaseStmt
  let st ← st.releaseSticky
  pure { st with phase := .ended }

/-! ## Fast-forward -/

/-- The global fast path's test for the start of a transaction. -/
def ffBegins (sql : Str) : Bool :=
  let upper := toAsciiUppercase (trim sql)
  startsWith upper "BEGIN" || startsWith upper "START "

/-- The global fast path's test for the end of a transaction. -/
def ffEnds (sql : Str) : Bool :=
  let upper := toAsciiUppercase (trim sql)
  startsWith upper "COMMIT" || startsWith upper "ROLLBACK"

/-- The flag after a fast-forwarded statement. -/
def ffFlag (sql : Str) : Bool :=
  if ffBegins sql then true else if ffEnds sql then false else st.inTransaction

/-- `fast_forward = true`: every statement goes to the primary; only the transaction flag is tracked.
The route is chosen by the flag as it was before the statement. -/
def fastForward (sql : Str) (bytes : Bytes) : Task MysqlSession := do
  let txWas := st.inTransaction
  let st := { st with inTransaction := st.ffFlag sql }
  let r ← routeFast bytes st.txConn txWas
  let st := { st with txConn := r.1 }
  let st ← if ffEnds sql then st.releaseTx else pure st
  st.answer r.2

/-- A rule with `fast_forward = true`: straight to the primary, no tracking at all. -/
def ruleFastForward (bytes : Bytes) : Task MysqlSession := do
  let r ← routeFast bytes st.txConn false
  let st := { st with txConn := r.1 }
  st.answer r.2

/-! ## The stages of a query -/

/-- What the loop knows about a query once its intent is classified. -/
structure Query where
  /-- the text -/
  sql : Str
  /-- the bytes -/
  bytes : Bytes
  /-- the intent -/
  intent : QueryIntent
  /-- a read outside a transaction -/
  wasRead : Bool

/-- The slow path's test for the start of a transaction. -/
def begins (sql : Str) : Bool :=
  let upper := toUppercase (trim sql)
  classify sql == .transaction && (startsWith upper "BEGIN" || startsWith upper "START")

/-- The slow path's test for the end of a transaction. -/
def ends (sql : Str) : Bool :=
  let upper := toUppercase (trim sql)
  classify sql == .transaction && !begins sql &&
    (startsWith upper "COMMIT" || startsWith upper "ROLLBACK")

/-- The read-your-own-writes window expires. -/
def expireRyow : Task MysqlSession :=
  match st.ryowUntil with
  | some limit => do
    let now : Nat ← act .now
    pure (if limit ≤ now then { st with ryowUntil := none } else st)
  | none => pure st

/-- `gtid_ryow_force_primary` -/
def gtidForcesPrimary (q : Query) : Task (MysqlSession × Bool) :=
  match (if cfg.gtidAwareRyow && q.wasRead then st.lastWriteGtid else none) with
  | some gtid => do
    let ready ← checkReplicaHasGtid gtid
    pure (if ready then ({ st with lastWriteGtid := none }, false) else (st, true))
  | none => pure (st, false)

/-- Session-pinning and replayable statements are remembered. -/
def noteSessionState (sql : Str) : MysqlSession :=
  let hardPin := needsHardPin sql
  let replayable := !hardPin && isReplayableSessionStmt sql
  let st :=
    if (hardPin || replayable) && !st.sessionInitSqls.contains sql then
      { st with sessionInitSqls := st.sessionInitSqls ++ [sql] }
    else st
  if hardPin then { st with userVarSticky := true } else st

/-- A recognised BEGIN sets the flag before routing. -/
def noteBegin (sql : Str) : Task MysqlSession :=
  if begins sql then do
    let now : Nat ← act .now
    pure { st with inTransaction := true, txStart := some now }
  else pure st

/-- Whether the transaction exceeded `max_transaction_time_ms`. -/
def overTime : Task Bool :=
  match (if 0 < cfg.maxTransactionTimeMs then st.txStart else none) with
  | some ts => do
    let now : Nat ← act .now
    pure (decide (cfg.maxTransactionTimeMs < now - ts))
  | none => pure false

/-- Whether the transaction exceeded `max_transaction_idle_ms`. -/
def overIdle : Task Bool :=
  match (if 0 < cfg.maxTransactionIdleMs ∧ st.txStart.isSome = true then st.lastQueryInTx else none) with
  | some ts => do
    let now : Nat ← act .now
    pure (decide (cfg.maxTransactionIdleMs < now - ts))
  | none => pure false

/-- Abort the transaction: the sticky connection is discarded, the client gets an error. -/
def killTx (exit : Exit) (msg : Str) : Task MysqlSession := do
  let st ← dropTx { st with inTransaction := false, txStart := none } exit
  let _ : Bool ← act (.toClient (.error "1205" msg))
  st.flush

/-- The error of a transaction over its time limit. -/
def timeLimitError : Str :=
  "Transaction timeout: exceeded max_transaction_time_ms (".toList ++
    decimal cfg.maxTransactionTimeMs ++ "ms)".toList

/-- The error of a transaction over its idle limit. -/
def idleLimitError : Str :=
  "Transaction idle timeout: no query for ".toList ++ decimal cfg.maxTransactionIdleMs ++
    "ms".toList

/-- A MySQL packet: three length bytes, a sequence number, the payload. -/
def mysqlPkt (payload : Bytes) (seq : UInt8) : Bytes :=
  UInt8.ofNat payload.length :: UInt8.ofNat (payload.length / 2 ^ 8) ::
    UInt8.ofNat (payload.length / 2 ^ 16) :: seq :: payload

/-- A length-encoded string. -/
def lcStr (s : Bytes) : Bytes := UInt8.ofNat s.length :: s

/-- The synthetic result set for a version query. -/
def versionResponse : Bytes :=
  let eof : Bytes := [0xfe, 0x00, 0x00, 0x02, 0x00]
  let colDef := lcStr (asciiBytes "def") ++ lcStr [] ++ lcStr [] ++ lcStr [] ++
    lcStr (asciiBytes "VERSION()") ++ lcStr (asciiBytes "VERSION()") ++
    [0x0c, 0x2d, 0x00, 0x1e, 0x00, 0x00, 0x00, 0xfd, 0x00, 0x00, 0x1f, 0x00, 0x00]
  mysqlPkt [0x01] 1 ++ mysqlPkt colDef 2 ++ mysqlPkt eof 3 ++
    mysqlPkt (lcStr (asciiBytes "8.0.36-TurbineProxy")) 4 ++ mysqlPkt eof 5

/-- `session.is_in_transaction() || user_var_sticky` -/
def effectiveInTx : Bool := st.inTransaction || st.userVarSticky

/-- The queries that get their answer from the proxy: what it is, and whether a failing flush ends the
session. -/
def localAnswer (q : Query) : Option (ToClient × Bool) :=
  if !st.allowWrites && q.intent == .write then
    some (.error "1290" "User is not allowed to write (read-only proxy account)".toList, true)
  else
    let upper := toUppercase (trim q.sql)
    if cfg.selectVersionForwarding && !st.effectiveInTx &&
        (upper == "SELECT VERSION()".toList || upper == "SELECT @@VERSION".toList ||
          upper == "SELECT @@GLOBAL.VERSION".toList) then
      some (.response versionResponse, false)
    else if cfg.sqliMatches q.sql then
      some (.error "1045" "Query blocked: potential SQL injection detected".toList, false)
    else if !cfg.whitelistAllows q.sql then
      some (.error "1045" "Query not permitted: not in the query allowlist".toList, false)
    else none

/-- The `sticky_backend` hint of the statement takes effect. -/
def applyHint (sql : Str) : Task MysqlSession :=
  match extractStickyHint sql with
  | some true => pure { st with stickyHintActive := true }
  | some false =>
    if st.stickyHintActive then releaseSticky { st with stickyHintActive := false } else pure st
  | none => pure st

/-- The sticky path's test for a lost connection. -/
def stickyLost (e : Str) : Bool :=
  let msg := toLowercase e
  contains msg "gone away" || contains msg "eof" || contains msg "broken pipe" ||
    contains msg "connection reset" || contains msg "2006" || contains msg "2013"

/-- The test for a backend that died in the middle of a transaction. -/
def isGone (e : Str) : Bool :=
  contains e "2006" || contains e "2013" || contains (toLowercase e) "gone away" ||
    contains (toLowercase e) "broken pipe" || contains (toLowercase e) "connection reset"

/-! ## After routing -/

/-- The last steps of a query: a recognised COMMIT or ROLLBACK takes effect, then the flush. -/
def finishQuery (q : Query) : Task MysqlSession := do
  let st ←
    if ends q.sql then
      releaseTx { st with inTransaction := false, txStart := none, lastQueryInTx := none }
    else pure st
  st.flush

/-- `SET SESSION` for every variable the backend says it changed. -/
def noteChanges (changes : List (Str × Str)) : MysqlSession :=
  changes.foldl (fun st c =>
    let stmt := "SET SESSION ".toList ++ c.1 ++ "=".toList ++ cfg.debugStr c.2
    if st.sessionInitSqls.contains stmt then st
    else { st with sessionInitSqls := st.sessionInitSqls ++ [stmt] }) st

/-- The GTID of a write is remembered for later reads. -/
def noteGtid (q : Query) (response : Response) : MysqlSession :=
  match (if cfg.gtidAwareRyow && !q.wasRead && !response.isError then response.writeGtid else none) with
  | some gtid => if gtid.isEmpty then st else { st with lastWriteGtid := some gtid }
  | none => st

/-- A response is forwarded. -/
def afterResponse (q : Query) (response : Response) : Task MysqlSession := do
  let st := { st with consecutiveErrors := 0, errorWindowStart := none }
  let st := (st.noteGtid cfg q response).noteChanges cfg response.sessionChanges
  let sent : Bool ← act (.toClient (.response response.bytes))
  if sent then st.finishQuery q else pure st.close

/-- One more error in the window, at time `now`. -/
def countError (now : Nat) : MysqlSession :=
  let expired := st.errorWindowStart.elim false fun s =>
    decide (cfg.clientErrorWindowSecs ≤ (now - s) / 1000)
  let st := if expired then { st with consecutiveErrors := 0, errorWindowStart := none } else st
  { st with
    consecutiveErrors := st.consecutiveErrors + 1
    errorWindowStart := st.errorWindowStart.or (some now) }

/-- `afterError` past the transaction. -/
def tellError (q : Query) (e : Str) : Task MysqlSession := do
  let _ : Bool ← act (.toClient (.error "1" e))
  if 0 < cfg.clientErrorLimit then do
    let now : Nat ← act .now
    let st := st.countError cfg now
    if cfg.clientErrorLimit ≤ st.consecutiveErrors then do
      let _ : Bool ← act (.toClient .flush)
      pure st.close
    else st.finishQuery q
  else st.finishQuery q

/-- An error is forwarded; a backend that died takes its transaction along. -/
def afterError (q : Query) (e : Str) : Task MysqlSession := do
  let st ←
    if isGone e && st.inTransaction then
      dropTx { st with inTransaction := false, txStart := none, lastQueryInTx := none }
        .txBackendDied
    else pure st
  st.tellError cfg q e

/-- The read-your-own-writes window opens after a successful write. -/
def openRyow (q : Query) (r : Except Str Response) : Task MysqlSession :=
  if r.isOk && !q.wasRead && q.intent == .write && decide (0 < cfg.readYourOwnWritesMs) then do
    let now : Nat ← act .now
    pure { st with ryowUntil := some (now + cfg.readYourOwnWritesMs) }
  else pure st

/-- The idle clock of the transaction restarts. -/
def touchTx : Task MysqlSession :=
  if st.txStart.isSome then do
    let now : Nat ← act .now
    pure { st with lastQueryInTx := some now }
  else pure st

/-- The last step of `afterRoute`. -/
def settle (q : Query) (r : Except Str Response) : Task MysqlSession :=
  match r with
  | .ok response => st.afterResponse cfg q response
  | .error e => st.afterError cfg q e

/-- The outcome of a routed query. -/
def afterRoute (q : Query) (r : Except Str Response) : Task MysqlSession := do
  let st ← st.openRyow cfg q r
  let st ← st.touchTx
  st.settle cfg q r

/-- Route a query the ordinary way. -/
def routeNormally (q : Query) (ryowActive : Bool) : Task MysqlSession := do
  let r ← routeQueryInner q.bytes st.txConn st.effectiveInTx
    ⟨q.wasRead && !st.userVarSticky && !ryowActive, st.user, [], st.sessionInitSqls, none⟩
  afterRoute cfg { st with txConn := r.1 } q r.2

/-- The sticky hint's own route; a lost connection clears the hint and the query is routed
normally. -/
def routeHinted (q : Query) (ryowActive : Bool) : Task MysqlSession := do
  let r ← routeStickyQuery q.bytes st.stickyHintConn st.stickyHintIdx
  let st := { st with stickyHintConn := r.1, stickyHintIdx := r.2.1 }
  match r.2.2 with
  | .ok response => st.answer (.ok response)
  | .error e =>
    if stickyLost e then do
      let _ : Unit ← match st.stickyHintConn with
        | some c => act (.drop .stickyLost c)
        | none => pure ()
      routeNormally cfg
        { st with stickyHintConn := none, stickyHintIdx := none, stickyHintActive := false }
        q ryowActive
    else do
      let _ : Bool ← act (.toClient (.error "1" e))
      let _ : Bool ← act (.toClient .flush)
      pure st

/-- Routing, once the query is known to be allowed. -/
def routeAllowed (q : Query) (ryowActive : Bool) : Task MysqlSession := do
  let st ← st.applyHint q.sql
  if st.stickyHintActive && !st.effectiveInTx && q.wasRead then st.routeHinted cfg q ryowActive
  else st.routeNormally cfg q ryowActive

/-- The limits of the transaction, the proxy's own answers, then routing. -/
def checkedQuery (q : Query) (ryowActive : Bool) : Task MysqlSession := do
  let late ← st.overTime cfg
  if late then st.killTx .txTimeLimit (timeLimitError cfg)
  else do
    let stale ← st.overIdle cfg
    if stale then killTx { st with lastQueryInTx := none } .txIdleLimit (idleLimitError cfg)
    else
      match st.localAnswer cfg q with
      | some (m, strict) => do
        let _ : Bool ← act (.toClient m)
        let sent : Bool ← act (.toClient .flush)
        pure (if strict && !sent then st.close else st)
      | none => st.routeAllowed cfg q ryowActive

/-- `Command::Query` outside fast-forward. -/
def slowQuery (sql : Str) (bytes : Bytes) : Task MysqlSession := do
  let q : Query := ⟨sql, bytes, classify sql, classify sql == .read && !st.inTransaction⟩
  let st ← st.expireRyow
  let g ← st.gtidForcesPrimary cfg q
  let ryowActive := g.1.ryowUntil.isSome || g.2
  let st ← (g.1.noteSessionState sql).noteBegin sql
  st.checkedQuery cfg q ryowActive

/-- `Command::Query` -/
def query (bytes : Bytes) : Task MysqlSession := do
  let sql := textOf bytes
  if cfg.fastForward then st.fastForward sql bytes
  else do
    let ff ←
      if st.inTransaction then pure false else isFastForwardRule sql st.user database
    if ff then st.ruleFastForward bytes else st.slowQuery cfg sql bytes

/-! ## The other commands -/

/-- `Command::Other`: pass-through to the primary. -/
def other (raw : Bytes) : Task MysqlSession := do
  let r ← routeRawInner raw st.txConn st.inTransaction none
  answer { st with txConn := r.1 } r.2

/-- `stmt` once the answer has been sent, or not. -/
def flushStmt (sent : Bool) : Task MysqlSession :=
  if sent then do
    let flushed : Bool ← act (.toClient .flush)
    if flushed then
      if st.shadow.isEmpty && !st.inTransaction then st.releaseStmt else pure st
    else pure st.close
  else pure st.close

/-- The rest of `stmt`, once the command is routed. Commands without a response write nothing. -/
def settleStmt (r : Except Str Response) : Task MysqlSession := do
  let sent : Bool ←
    match r with
    | .ok response =>
      if response.bytes.isEmpty then pure true else act (.toClient (.response response.bytes))
    | .error e => do
      let _ : Bool ← act (.toClient (.error "1" e))
      pure true
  st.flushStmt sent

/-- `Command::Stmt`; `stmt_conn` goes back once no statement is open. -/
def stmt (raw : Bytes) : Task MysqlSession := do
  let r ← routeStmtMysqlShadow raw ⟨st.shadow, st.stmtConn, st.txConn⟩ st.inTransaction
  settleStmt { st with shadow := r.1.shadow, stmtConn := r.1.stmtConn, txConn := r.1.txConn } r.2

/-- One turn of the loop, or the code after it; `none` when the session is not there. -/
def react : MysqlEvent → Option (Task MysqlSession)
  | .cleanup => if st.phase = .closing then some st.cleanup else none
  | e =>
    if st.phase = .running then
      some (match e with
        | .ping => do
          let sent : Bool ← act (.toClient .ok)
          pure (if sent then st else st.close)
        | .resetConnection => st.resetConnection
        | .query bytes => st.query cfg bytes
        | .stmt raw => st.stmt raw
        | .other raw => st.other raw
        | _ => pure st.close)
    else none

/-- The phase in which an event is taken. -/
def phaseOf : MysqlEvent → Phase
  | .cleanup => .closing
  | _ => .running

/-- What is done for an event. -/
def taskOf : MysqlEvent → Task MysqlSession
  | .ping => do
    let sent : Bool ← act (.toClient .ok)
    pure (if sent then st else st.close)
  | .resetConnection => st.resetConnection
  | .query bytes => st.query cfg bytes
  | .stmt raw => st.stmt raw
  | .other raw => st.other raw
  | .quit => pure st.close
  | .cleanup => st.cleanup

theorem react_eq (e : MysqlEvent) :
    st.react cfg e = if st.phase = phaseOf e then some (st.taskOf cfg e) else none := by
  cases e <;> rfl

/-- The turns there are. -/
theorem react_eq_some {cfg : MysqlConfig} {st : MysqlSession} {e : MysqlEvent} {p : Task MysqlSession}
    (h : st.react cfg e = some p) : st.phase = phaseOf e ∧ p = st.taskOf cfg e := by
  rw [react_eq] at h
  obtain ⟨hphase, hp⟩ := Option.ite_none_right_eq_some.mp h
  exact ⟨hphase, (Option.some.inj hp).symm⟩

/-! ## What a response leaves behind -/

/-- Variable changes add to the statements that are replayed, and to nothing else. -/
theorem noteChanges_eq (changes : List (Str × Str)) :
    ∃ sqls, st.noteChanges cfg changes = { st with sessionInitSqls := sqls } := by
  rw [noteChanges]
  induction changes generalizing st with
  | nil => exact ⟨st.sessionInitSqls, rfl⟩
  | cons c rest ih =>
    rw [List.foldl_cons]
    obtain ⟨sqls, hrest⟩ := ih (if st.sessionInitSqls.contains _ then st else _)
    refine ⟨sqls, hrest.trans ?_⟩
    split <;> rfl

/-- A GTID is the last one, and nothing else. -/
theorem noteGtid_eq (q : Query) (response : Response) :
    ∃ gtid, st.noteGtid cfg q response = { st with lastWriteGtid := gtid } := by
  rw [noteGtid]
  split
  · split
    · exact ⟨st.lastWriteGtid, rfl⟩
    · exact ⟨_, rfl⟩
  · exact ⟨st.lastWriteGtid, rfl⟩

end MysqlSession

end TurbineProxy

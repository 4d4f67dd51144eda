import TurbineProxy.Threads
import TurbineProxy.PgSession

/-!
# The proxy as a system

`World` is what the sessions share: the pools of every `BackendPool` that was ever installed, the role
atomics, the connections with their servers' ends. `World.handle` performs one operation of one session
against it, on the environment's decisions for that operation (`In`); what the model does not keep as
state (health flags, breakers, rules, cache, clock, client socket) answers as the environment pleases.
`World.act` is what happens besides the sessions: role changes and pool reloads. `World.stop` is the panic of
a session's task, which may come at any moment (`ActiveTrace::record` cuts a traced text at byte 4096, be that
inside a character; an overflow-checked sum of weights does not fit): everything the session held is
dropped, and the code after its loop does not run.

`proxy` is the machine of any number of MySQL and PostgreSQL sessions over one world.
-/

namespace TurbineProxy

/-- What the sessions share. -/
structure World (srv : Server) where
  /-- every `BackendPool` ever installed, by order of installation -/
  refs : List PoolRef
  /-- the one the router uses now -/
  current : Nat
  /-- `gr_primary_idx` -/
  gr : Nat → Int
  /-- `failover_idx` -/
  failover : Nat → Int
  /-- the connection pools -/
  pools : Origin → ConnectionPool
  /-- every connection ever opened -/
  conns : List (Conn srv)

/-- What the environment decides during a checkout. -/
structure GetDecision where
  /-- the pool's own decisions -/
  get : ConnectionPool.GetInput
  /-- the server's choice during `init_connect` -/
  choice : Nat

/-- What the environment decides at an operation. -/
def In : Op → Type
  | .primaryAllows _ | .replicaAllows .. | .replicaHealthy .. | .toClient _ => Bool
  | .overflowChecks => Bool
  | .nextReplica _ | .maxQueryTime | .now | .put .. => Nat
  | .get .. => GetDecision
  | .talk .. => TalkInput
  | .rewrite _ => RewriteOutcome
  | .matchQuery .. => Option RuleMatch
  | .cacheGet _ => Option Bytes
  | _ => Unit

variable {srv : Server}

/-- A connection that pool `o` has just opened for session `i`, after `init_connect`. -/
def Conn.open (srv : Server) (o : Origin) (i : Nat) (initConnect : List Bytes) (choice : Nat) :
    Conn srv :=
  initConnect.foldl (fun c sql => (c.talk i (.text sql) ⟨none, choice⟩).1)
    ⟨o, o, .held i, srv.fresh, false, true, none⟩

namespace World

variable (w : World srv)

/-- The connections of a session. -/
def hold (i : Nat) (c : ConnId) : Option (Conn srv) :=
  w.conns[c]?.filter fun conn => conn.place = .held i

/-- Drop the connections an eviction discards. -/
def closeAll (ids : List ConnId) (conns : List (Conn srv)) : List (Conn srv) :=
  conns.mapIdx fun c conn => if c ∈ ids then { conn with place := .closed } else conn

/-- `get_for_database` on pool `o` by session `i`. Only a pool that has been installed can be
asked. -/
def get (i : Nat) (o : Origin) (db : Option Str) (d : GetDecision) :
    Option (World srv × Except Str ConnId) :=
  if o.gen < w.refs.length then
    ((w.pools o).getForDatabase db d.get).map fun r =>
      let pools := Function.update w.pools o r.1
      let conns := closeAll r.2.1 w.conns
      match r.2.2 with
      | .reused c =>
        ({ w with
          pools, conns := conns.modify c fun conn => { conn with place := .held i, lender := o } },
          .ok c)
      | .opened _ =>
        ({ w with
          pools, conns := conns ++ [.open srv o i (w.pools o).config.backend.initConnect d.choice] },
          .ok w.conns.length)
      | .failed e => ({ w with pools, conns }, .error e)
  else none

/-- `put_for_database` on pool `o` by session `i`. -/
def put (i : Nat) (o : Origin) (c : ConnId) (db : Option Str) (now : Nat) : Option (World srv) :=
  (w.hold i c).map fun conn =>
    let r := (w.pools o).putForDatabase c conn.inTransaction conn.healthy db now
    { w with
      pools := Function.update w.pools o r.1
      conns := w.conns.set c { conn with place := if r.2 then .idle o else .closed } }

/-- A connection of session `i` goes out of scope. -/
def drop (i : Nat) (c : ConnId) : Option (World srv) :=
  (w.hold i c).map fun conn => { w with conns := w.conns.set c { conn with place := .closed } }

/-- One exchange of session `i`. The timer only elapses where there is one. -/
def talk (i : Nat) (c : ConnId) (p : Packet) (limit : Option Nat) (d : TalkInput) :
    Option (World srv × Except TalkError Response) :=
  (w.hold i c).bind fun conn =>
    let r := conn.talk i p d
    if limit = none ∧ r.2 = .error .elapsed then none
    else some ({ w with conns := w.conns.set c r.1 }, r.2)

/-- Perform one operation of session `i`. -/
def handle (i : Nat) : (o : Op) → In o → Option (World srv × Res o)
  | .readPool, _ => (w.refs[w.current]?).map fun r => (w, r)
  | .loadGr gen, _ => some (w, w.gr gen)
  | .loadFailover gen, _ => some (w, w.failover gen)
  | .primaryAllows _, answer => some (w, answer)
  | .primaryRecord .., _ => some (w, ())
  | .replicaAllows .., answer => some (w, answer)
  | .replicaRecord .., _ => some (w, ())
  | .replicaHealthy .., answer => some (w, answer)
  | .markUnhealthy .., _ => some (w, ())
  | .nextReplica _, answer => some (w, answer)
  | .get o db, d => w.get i o db d
  | .put o c db, now => (w.put i o c db now).map fun w => (w, ())
  | .drop _ c, _ => (w.drop i c).map fun w => (w, ())
  | .talk _ _ c p limit, d => w.talk i c p limit d
  | .spawnKill _, _ => some (w, ())
  | .rewrite _, answer => some (w, answer)
  | .matchQuery .., answer => some (w, answer)
  | .cacheGet _, answer => some (w, answer)
  | .cachePut .., _ => some (w, ())
  | .cacheInvalidate _, _ => some (w, ())
  | .mirror .., _ => some (w, ())
  | .maxQueryTime, answer => some (w, answer)
  | .now, answer => some (w, answer)
  | .toClient _, answer => some (w, answer)
  | .overflowChecks, answer => some (w, answer)
  | .panic, _ => none

/-- The task of session `i` panics: its variables go out of scope, and no connection in them is given back. -/
def stop (i : Nat) : World srv :=
  { w with conns := w.conns.map fun conn =>
      if conn.place = .held i then { conn with place := .closed } else conn }

end World

/-- What happens besides the sessions. -/
inductive Admin : Type where
  /-- `failover_idx.store` -/
  | setFailover (gen : Nat) (idx : Int)
  /-- `gr_primary_idx.store` -/
  | setGr (gen : Nat) (idx : Int)
  /-- `reload_pool` with a new `BackendPool` -/
  | reload (primary : PoolConfig) (replicas : List PoolConfig)

namespace World

variable (w : World srv)

/-- The pools of a `BackendPool` that is installed as number `gen`. -/
def install (gen : Nat) (primary : PoolConfig) (replicas : List PoolConfig)
    (pools : Origin → ConnectionPool) (o : Origin) : ConnectionPool :=
  if o.gen = gen then
    match o.slot with
    | .primary => .new primary
    | .replica i => .new (replicas.getD i primary)
  else pools o

/-- The immutable part of a new `BackendPool`. -/
def newRef (gen : Nat) (replicas : List PoolConfig) : PoolRef :=
  ⟨gen, replicas.map fun r => (r.backend.weight, r.backend.backup)⟩

/-- Perform an action of the environment. -/
def act : Admin → Option (World srv)
  | .setFailover gen idx => some { w with failover := Function.update w.failover gen idx }
  | .setGr gen idx => some { w with gr := Function.update w.gr gen idx }
  | .reload primary replicas =>
    some { w with
      refs := w.refs ++ [newRef w.refs.length replicas]
      current := w.refs.length
      gr := Function.update w.gr w.refs.length (-1)
      failover := Function.update w.failover w.refs.length (-1)
      pools := install w.refs.length primary replicas w.pools }

/-- A world with one `BackendPool` and no connections. -/
def new (srv : Server) (primary : PoolConfig) (replicas : List PoolConfig) : World srv :=
  { refs := [newRef 0 replicas], current := 0, gr := fun _ => -1, failover := fun _ => -1,
    pools := install 0 primary replicas fun _ => .new primary, conns := [] }

end World

/-!
## Sessions

The sessions of both protocols are programs over the same operations, so that a theorem about all of them is one about
the operations.
-/

/-- A session of either protocol. -/
inductive Session : Type where
  /-- MySQL -/
  | mysql (st : MysqlSession)
  /-- PostgreSQL -/
  | pg (st : PgSession)

/-- An event of a session of either protocol. -/
inductive SessionEvent : Type where
  /-- MySQL -/
  | mysql (e : MysqlEvent)
  /-- PostgreSQL -/
  | pg (e : PgEvent)
  deriving DecidableEq

/-- The settings of the two servers. -/
structure ProxyConfig where
  /-- MySQL -/
  mysql : MysqlConfig
  /-- PostgreSQL -/
  pg : PgConfig

/-- One turn of a session. -/
def Session.react (cfg : ProxyConfig) : Session → SessionEvent → Option (Task Session)
  | .mysql st, .mysql e => (st.react cfg.mysql e).map fun p => p >>= fun st => pure (.mysql st)
  | .pg st, .pg e => (st.react cfg.pg e).map fun p => p >>= fun st => pure (.pg st)
  | _, _ => none

/-- A session of MySQL takes a turn of its protocol. -/
theorem Session.react_mysql {cfg : ProxyConfig} {st : MysqlSession} {m : SessionEvent} {p : Task Session}
    (h : Session.react cfg (.mysql st) m = some p) :
    ∃ e q, m = .mysql e ∧ st.react cfg.mysql e = some q ∧ p = q >>= fun st => pure (.mysql st) := by
  cases m with
  | pg e => cases h
  | mysql e =>
    obtain ⟨q, hq, rfl⟩ := Option.map_eq_some_iff.mp h
    exact ⟨e, q, rfl, hq, rfl⟩

/-- And so does one of PostgreSQL. -/
theorem Session.react_pg {cfg : ProxyConfig} {st : PgSession} {m : SessionEvent} {p : Task Session}
    (h : Session.react cfg (.pg st) m = some p) :
    ∃ e q, m = .pg e ∧ st.react cfg.pg e = some q ∧ p = q >>= fun st => pure (.pg st) := by
  cases m with
  | mysql e => cases h
  | pg e =>
    obtain ⟨q, hq, rfl⟩ := Option.map_eq_some_iff.mp h
    exact ⟨e, q, rfl, hq, rfl⟩

/-- The session of a place at which nobody is connected any more. -/
def Session.absent : Session := .mysql { MysqlSession.new [] false [] with phase := .ended }

/-- Whoever is not there takes no turn. -/
theorem Session.react_absent {cfg : ProxyConfig} {m : SessionEvent} : Session.absent.react cfg m = none := by
  cases m with
  | mysql e => cases e <;> rfl
  | pg e => rfl

/-- The proxy: any number of sessions over one world. A task that panics leaves nobody behind. -/
def proxy (srv : Server) (cfg : ProxyConfig) :
    Machine Op Res In (World srv) Session SessionEvent Admin where
  react := Session.react cfg
  handle := World.handle
  env := World.act
  stop w i := some (w.stop i, .absent)

/-- A client that has authenticated. -/
structure Client where
  /-- the protocol it speaks -/
  postgres : Bool
  /-- its user -/
  user : Str
  /-- the database it named; the session of a MySQL client drops it -/
  database : Str
  /-- whether it may write -/
  allowWrites : Bool
  /-- the initial statements configured for its user -/
  initSqls : List Str

/-- The session of a client. -/
def Client.session (c : Client) : Session :=
  if c.postgres then .pg (.new c.user c.database c.allowWrites c.initSqls)
  else .mysql (.new c.user c.allowWrites c.initSqls)

namespace Session

/-- The session is over. -/
def ended : Session → Bool
  | .mysql st => st.phase == .ended
  | .pg st => st.phase == .ended

/-- The connections in the variables of a session. -/
def conns : Session → List ConnId
  | .mysql st => st.txConn.toList ++ st.stmtConn.toList ++ st.stickyHintConn.toList
  | .pg st => st.txConn.toList ++ st.stmtConn.toList

end Session

/-- A state of the proxy. -/
abbrev ProxyState (srv : Server) : Type := Sys Op Res (World srv) Session SessionEvent

/-- An event of the proxy. -/
abbrev ProxyEvent : Type := Event Op In SessionEvent Admin

/-- The proxy with its first `BackendPool` and a list of clients that have just connected. -/
def proxyStart (srv : Server) (primary : PoolConfig) (replicas : List PoolConfig)
    (clients : List Client) : ProxyState srv :=
  ⟨.new srv primary replicas, fun i => .idle (clients[i]?.elim .absent Client.session)⟩

/-- All sessions are over. -/
def allEnded (s : ProxyState srv) : Prop := ∀ i, ∃ st, s.thread i = .idle st ∧ st.ended = true

/-! ## A small system

The ground the concrete runs of this development stand on: a server that keeps a transaction flag, a
backend without limits, an environment in which nothing goes wrong unless a fault is asked for. -/

/-- Whether a transaction is open after a statement. -/
def sqlFlag (tx : Bool) (sql : Str) : Bool :=
  let sql := skipLeadingComments sql
  if startsWithKw sql "BEGIN" || startsWithKw sql "START TRANSACTION" then true
  else if startsWithKw sql "COMMIT" then false
  else if startsWithKw sql "ROLLBACK" && !containsKw sql " TO " then false
  else tx

/-- A MySQL server that answers every command with an OK packet. Its state is whether a transaction is
open. -/
def Server.mysql : Server where
  Sess := Bool
  fresh := false
  exec tx p _ :=
    (match p with
      | .text sql => sqlFlag tx (textOf sql)
      | _ => tx,
      .mysql [7, 0, 0, 1, 0, 0, 0, 2, 0, 0, 0] [] none)
  txOpen tx := tx
  stmt _ _ := none

/-- The status byte of `ReadyForQuery`. -/
def txStatusByte (tx : Bool) : UInt8 := if tx then 0x54 else 0x49

/-- A PostgreSQL server that answers every command with its status only. Of a pipeline it sees whether
it has a BEGIN in it. -/
def Server.postgres : Server where
  Sess := Bool
  fresh := false
  exec tx p _ :=
    let tx := match p with
      | .text sql => sqlFlag tx (textOf sql)
      | .raw bytes => tx || containsKw (textOf bytes) "BEGIN"
      | .silent _ => tx
    (tx, .postgres ⟨[], noReady_nil, txStatusByte tx⟩)
  txOpen tx := tx
  stmt _ _ := none

/-- A backend without limits. -/
def smallPool : PoolConfig := ⟨⟨"db:3306".toList, none, [], none, 1, false⟩, 10, none, 0, 0⟩

/-- A proxy with every option off. -/
def smallConfig : ProxyConfig where
  mysql := ⟨0, 0, 0, false, false, false, 0, 0, fun _ => false, fun _ => true, id⟩
  pg := ⟨⟨0, []⟩, 0, fun _ => false, fun _ => true⟩

/-- A MySQL client. -/
def mysqlClient : Client := ⟨false, "app".toList, [], true, []⟩

/-- A PostgreSQL client. -/
def pgClient : Client := { mysqlClient with postgres := true, database := "shop".toList }

/-- At time `now`, everything is healthy, no rule matches and nothing is cached; an exchange meets the
given fault, if any. -/
def calm (now : Nat) (fault : Option Fault) : (o : Op) → In o
  | .primaryAllows _ | .replicaAllows .. | .replicaHealthy .. | .toClient _ => true
  | .nextReplica _ | .maxQueryTime => (0 : Nat)
  | .now | .put .. => now
  | .get .. => ⟨⟨now, true, none, none⟩, 0⟩
  | .talk .. => ⟨fault, 0⟩
  | .rewrite _ => RewriteOutcome.unchanged
  | .matchQuery .. => (none : Option RuleMatch)
  | .cacheGet _ => (none : Option Bytes)
  | .overflowChecks => true
  | .readPool | .loadGr _ | .loadFailover _ | .primaryRecord .. | .replicaRecord .. | .markUnhealthy ..
  | .drop .. | .spawnKill _ | .cachePut .. | .cacheInvalidate _ | .mirror .. | .panic => ()

/-- Session `i` receives a message and performs `n` operations. -/
def turn (i : Nat) (m : SessionEvent) (n : Nat) (inp : (o : Op) → In o) : List ProxyEvent :=
  .msg i m :: List.replicate n (.op i inp)

/-- A MySQL query of session `i`, which takes `n` operations. -/
def mysqlQuery (i : Nat) (sql : String) (n : Nat) (inp : (o : Op) → In o := calm 0 none) :
    List ProxyEvent :=
  turn i (.mysql (.query (asciiBytes sql))) n inp

/-- A MySQL client goes away; the code after the loop takes `n` operations. -/
def mysqlLeaves (i n : Nat) : List ProxyEvent :=
  turn i (.mysql .quit) 0 (calm 0 none) ++ turn i (.mysql .cleanup) n (calm 0 none)

end TurbineProxy

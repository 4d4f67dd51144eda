import TurbineProxy.Backend
import TurbineProxy.Classifier
import TurbineProxy.Prog

/-!
# Operations and `BackendPool`

`Op` lists every point at which the routing code touches something shared: the atomics of a
`BackendPool`, the checkout and return of a connection, an exchange with a backend, the rule engine,
the cache, the clock, the client's socket. An `async fn` is a `Task`, a program over these operations;
everything between two of them is pure.

Rust drops a connection that goes out of scope without a word. Here a drop is an operation of its own
(`Op.drop`), placed where the variable's scope ends, and it names the exit that was taken (`Exit`).

The functions below are the methods of `BackendPool`. Two of them pick "the primary":
`getPrimaryForDatabase` by the group-replication index, then the failover index, then the configured
primary; `putPrimaryForDatabase` by the failover index, then the configured primary.
-/

namespace TurbineProxy

/-- The immutable part of an `Arc<BackendPool>`: which one it is, and the `(weight, backup)` of its
replicas. -/
structure PoolRef where
  /-- which `BackendPool`, by order of installation -/
  gen : Nat
  /-- `(weight, backup)` of each replica -/
  replicas : List (Nat × Bool)
  deriving DecidableEq

/-- Where a rule sends a query. -/
inductive Destination : Type where
  /-- the built-in heuristic decides -/
  | any
  /-- the primary -/
  | primary
  /-- a replica -/
  | replica
  /-- `0` is the primary, `n + 1` is replica `n` -/
  | hostgroup (n : Nat)
  deriving DecidableEq

/-- What a matching rule asks for. -/
structure RuleMatch where
  /-- where to send the query -/
  destination : Destination
  /-- `0` forbids caching -/
  cacheTtlSecs : Nat
  /-- copy the query to this address -/
  mirrorTo : Option Str
  /-- the rule's rate limit is exhausted -/
  rateLimited : Bool
  /-- bypass the routing pipeline -/
  fastForward : Bool
  deriving DecidableEq

/-- What the rewrite engine did to a query. -/
inductive RewriteOutcome : Type where
  /-- no rule matched -/
  | unchanged
  /-- the text to run instead -/
  | rewritten (sql : Str)
  /-- refused, with the message for the client -/
  | blocked (msg : Str)
  deriving DecidableEq

/-- On whose behalf a command is sent to a backend. -/
inductive Purpose : Type where
  /-- the client's own command -/
  | client
  /-- session variables replayed on a fresh connection -/
  | replay
  /-- the GTID check before a read -/
  | probe
  /-- statements prepared again on a replacement connection -/
  | reprepare
  /-- clean-up before a connection is returned -/
  | cleanup
  deriving DecidableEq

/-- The variable of the session or the router through which a connection is used. -/
inductive Via : Type where
  /-- `tx_conn` -/
  | txConn
  /-- `stmt_conn` -/
  | stmtConn
  /-- `sticky_hint_conn` -/
  | stickyConn
  /-- a local variable: taken and returned by the same call -/
  | loan
  deriving DecidableEq

/-- The exits at which a checked-out connection is dropped instead of being returned. -/
inductive Exit : Type where
  /-- `put_replica_for_database` with an index that is not a replica -/
  | noSuchReplica
  /-- hostgroup routing: the query failed -/
  | hostgroupError
  /-- replica read: the query failed -/
  | readError
  /-- replica read: connection lost, retried elsewhere -/
  | readLost
  /-- replica read: the retry failed -/
  | readRetryError
  /-- primary path: the query failed -/
  | writeError
  /-- primary path: connection lost, retried elsewhere -/
  | writeLost
  /-- primary path: the retry failed -/
  | writeRetryError
  /-- pass-through command: the exchange failed -/
  | rawError
  /-- fast-forward: the query failed -/
  | fastError
  /-- GTID check: the query failed -/
  | probeError
  /-- `stmt_conn` was lost and replaced -/
  | stmtReplaced
  /-- the sticky-hint connection was lost -/
  | stickyLost
  /-- the transaction exceeded its time limit -/
  | txTimeLimit
  /-- the transaction exceeded its idle limit -/
  | txIdleLimit
  /-- the backend died in the middle of the transaction -/
  | txBackendDied
  /-- PostgreSQL pass-through command: the exchange failed -/
  | otherError
  deriving DecidableEq

/-- What the proxy sends to its client. -/
inductive ToClient : Type where
  /-- `write_response` -/
  | response (bytes : Bytes)
  /-- `write_error` -/
  | error (code : String) (msg : Str)
  /-- `send_ok` -/
  | ok
  /-- `flush` -/
  | flush
  deriving DecidableEq

/-- The operations of the routing code. -/
inductive Op : Type where
  /-- `router.pool.read().await.clone()` -/
  | readPool
  /-- `gr_primary_idx.load` -/
  | loadGr (gen : Nat)
  /-- `failover_idx.load` -/
  | loadFailover (gen : Nat)
  /-- `primary_breaker.allows()` -/
  | primaryAllows (gen : Nat)
  /-- `primary_breaker.record_success` / `record_failure` -/
  | primaryRecord (gen : Nat) (success : Bool)
  /-- `replica_breakers[i].allows()` -/
  | replicaAllows (gen i : Nat)
  /-- `replica_breakers[i].record_success` / `record_failure` -/
  | replicaRecord (gen i : Nat) (success : Bool)
  /-- `replica_health[i].healthy.load` -/
  | replicaHealthy (gen i : Nat)
  /-- `replica_health[i].healthy.store(false)` -/
  | markUnhealthy (gen i : Nat)
  /-- `replica_index.fetch_add(1)` -/
  | nextReplica (gen : Nat)
  /-- `ConnectionPool::get_for_database` -/
  | get (o : Origin) (database : Option Str)
  /-- `ConnectionPool::put_for_database` -/
  | put (o : Origin) (c : ConnId) (database : Option Str)
  /-- the connection goes out of scope -/
  | drop (exit : Exit) (c : ConnId)
  /-- one exchange on a connection, under the per-query timer if one is set -/
  | talk (who : Purpose) (via : Via) (c : ConnId) (p : Packet) (limit : Option Nat)
  /-- the background `KILL QUERY` after a timeout on a connection -/
  | spawnKill (c : ConnId)
  /-- `rewriter.apply` -/
  | rewrite (sql : Str)
  /-- `rules.match_query` -/
  | matchQuery (sql user schema : Str)
  /-- `cache.get` -/
  | cacheGet (key : Str)
  /-- `cache.put` -/
  | cachePut (key : Str) (bytes : Bytes)
  /-- `cache.invalidate_tables(extract_tables_simple(sql))` -/
  | cacheInvalidate (sql : Str)
  /-- `fire_mirror` -/
  | mirror (addr sql : Str)
  /-- `max_query_time_ms.load` -/
  | maxQueryTime
  /-- `Instant::now()`, in milliseconds -/
  | now
  /-- a write to the client's socket -/
  | toClient (m : ToClient)
  /-- whether the build checks sums for overflow; asked only where one does not fit -/
  | overflowChecks
  /-- the task panics here: there is no answer -/
  | panic

/-- An exchange on behalf of the client, as distinct from those that replay what a session has set or that the proxy asks
for itself. -/
def Op.isClientTalk : Op → Bool
  | .talk .client .. => true
  | _ => false

/-- The type of what comes back from an operation; those that return nothing have `Unit`. -/
abbrev Res : Op → Type
  | .readPool => PoolRef
  | .loadGr _ | .loadFailover _ => Int
  | .primaryAllows _ | .replicaAllows .. | .replicaHealthy .. | .overflowChecks => Bool
  | .nextReplica _ | .maxQueryTime | .now => Nat
  | .get .. => Except Str ConnId
  | .talk .. => Except TalkError Response
  | .rewrite _ => RewriteOutcome
  | .matchQuery .. => Option RuleMatch
  | .cacheGet _ => Option Bytes
  | .toClient _ => Bool
  | _ => Unit

/-- Answers under which nothing goes wrong: no rule, nothing cached, one primary that is there. -/
def atEase : (o : Op) → Res o
  | .readPool => ⟨0, []⟩
  | .loadGr _ | .loadFailover _ => (-1 : Int)
  | .primaryAllows _ | .replicaAllows .. | .replicaHealthy .. | .toClient _ | .overflowChecks => true
  | .nextReplica _ | .maxQueryTime | .now => (0 : Nat)
  | .get .. => Except.ok 0
  | .talk .. => Except.ok ⟨[], false, [], none⟩
  | .rewrite _ => RewriteOutcome.unchanged
  | .matchQuery .. => (none : Option RuleMatch)
  | .cacheGet _ => (none : Option Bytes)
  | .put .. | .primaryRecord .. | .replicaRecord .. | .markUnhealthy .. | .drop .. | .spawnKill _
  | .cachePut .. | .cacheInvalidate _ | .mirror .. | .panic => ()

/-- An `async fn` of the routing code. -/
abbrev Task : Type → Type := Prog Op Res

/-- Perform one operation and go on with its answer. -/
abbrev act (o : Op) : Task (Res o) := Prog.perform o

/-- The task panics instead of going on. -/
def panicked {α : Type} : Task (Option α) := do
  let _ : Unit ← act .panic
  pure none

/-! ## Weights

A weight is a `u32`, and so is every sum of weights: a build with overflow checks panics where a sum does
not fit, a build without them goes on with what is left of it. -/

/-- The sum of the weights in a list. -/
def weightSum (l : List (Nat × Nat)) : Nat := (l.map Prod.snd).sum

/-- `+` on `u32`; a panic is `none`. -/
def u32Add (checks : Bool) (a b : Nat) : Option Nat :=
  if a + b < 2 ^ 32 then some (a + b) else if checks then none else some ((a + b) % 2 ^ 32)

/-- `iter().sum()`, from `acc` on -/
def totalWeight (checks : Bool) : Nat → List (Nat × Nat) → Option Nat
  | acc, [] => some acc
  | acc, (_, w) :: rest => (u32Add checks acc w).bind fun acc => totalWeight checks acc rest

/-- The loop over the candidates, from `acc` on. -/
def chosenIdx (checks : Bool) (slot fallback : Nat) : Nat → List (Nat × Nat) → Option Nat
  | _, [] => some fallback
  | acc, (i, w) :: rest => (u32Add checks acc w).bind fun acc =>
      if slot < acc then some i else chosenIdx checks slot fallback acc rest

namespace PoolRef

variable (pool : PoolRef)

/-- The replica an index atomic points at: `idx >= 0 && (idx as usize) < self.replicas.len()`. -/
def replicaAt (idx : Int) : Option Slot :=
  if 0 ≤ idx ∧ idx.toNat < pool.replicas.length then some (.replica idx.toNat) else none

/-- One of the pools of this `BackendPool`. -/
def origin (slot : Slot) : Origin := ⟨pool.gen, slot⟩

/-- `BackendPool::get_primary_for_database` -/
def getPrimaryForDatabase (database : Option Str) : Task (Except Str ConnId) := do
  let gr : Int ← act (.loadGr pool.gen)
  match pool.replicaAt gr with
  | some slot => act (.get (pool.origin slot) database)
  | none => do
    let failover : Int ← act (.loadFailover pool.gen)
    match pool.replicaAt failover with
    | some slot => act (.get (pool.origin slot) database)
    | none => do
      let allowed : Bool ← act (.primaryAllows pool.gen)
      if allowed then act (.get (pool.origin .primary) database)
      else pure (.error "[CB] primary circuit breaker is open — connection refused".toList)

/-- The candidates of one selection pass: replicas of the wanted kind that are healthy and whose
breaker lets traffic through, with their weights. -/
def candidates (backupPass : Bool) : List ((Nat × Bool) × Nat) → Task (List (Nat × Nat))
  | [] => pure []
  | ((weight, backup), i) :: rest => do
    if backup == backupPass then
      let healthy : Bool ← act (.replicaHealthy pool.gen i)
      if healthy then
        let allowed : Bool ← act (.replicaAllows pool.gen i)
        let others ← candidates backupPass rest
        if allowed then pure ((i, max weight 1) :: others) else pure others
      else candidates backupPass rest
    else candidates backupPass rest

/-- Whether the build checks sums. Where the sum of the weights fits, that makes no difference. -/
def checksSums (cands : List (Nat × Nat)) : Task Bool :=
  if weightSum cands < 2 ^ 32 then pure false else act .overflowChecks

/-- The weighted choice among the candidates. A remainder by zero panics in every build. -/
def choose (first : Nat) (cands : List (Nat × Nat)) : Task (Option Nat) := do
  let checks ← checksSums cands
  match totalWeight checks 0 cands with
  | none => panicked
  | some total => do
    let index : Nat ← act (.nextReplica pool.gen)
    match if total = 0 then none else chosenIdx checks (index % total) first 0 cands with
    | some chosen => pure (some chosen)
    | none => panicked

/-- After a failed choice: the remaining candidates in order, marking each that fails. -/
def tryRemaining (chosen : Nat) (database : Option Str) :
    List (Nat × Nat) → Task (Option (ConnId × Nat))
  | [] => pure none
  | (i, _) :: rest =>
    if i = chosen then tryRemaining chosen database rest
    else do
      let r : Except Str ConnId ← act (.get (pool.origin (.replica i)) database)
      match r with
      | .ok conn => pure (some (conn, i))
      | .error _ => do
        let _ : Unit ← act (.markUnhealthy pool.gen i)
        tryRemaining chosen database rest

/-- `BackendPool::try_weighted_replica` -/
def tryWeightedReplica (backupPass : Bool) (database : Option Str) :
    Task (Option (ConnId × Nat)) := do
  let cands ← pool.candidates backupPass pool.replicas.zipIdx
  match cands with
  | [] => pure none
  | (first, _) :: _ => do
    let choice ← pool.choose first cands
    match choice with
    | none => pure none
    | some chosen => do
      let r : Except Str ConnId ← act (.get (pool.origin (.replica chosen)) database)
      match r with
      | .ok conn => pure (some (conn, chosen))
      | .error _ => do
        let _ : Unit ← act (.markUnhealthy pool.gen chosen)
        pool.tryRemaining chosen database cands

/-- The primary as a fallback for a read: its index is `usize::MAX` in the source, `none` here. -/
def getPrimaryAsReplica (database : Option Str) : Task (Except Str (ConnId × Option Nat)) := do
  let r ← pool.getPrimaryForDatabase database
  match r with
  | .ok conn => pure (.ok (conn, none))
  | .error e => pure (.error e)

/-- `BackendPool::get_replica_for_database` -/
def getReplicaForDatabase (database : Option Str) : Task (Except Str (ConnId × Option Nat)) := do
  if pool.replicas.isEmpty then pool.getPrimaryAsReplica database
  else do
    let r ← pool.tryWeightedReplica false database
    match r with
    | some (conn, i) => pure (.ok (conn, some i))
    | none => do
      let r ← pool.tryWeightedReplica true database
      match r with
      | some (conn, i) => pure (.ok (conn, some i))
      | none => pool.getPrimaryAsReplica database

/-- The rest of `get_hostgroup_for_database`, once the health of the replica is known. -/
def fromHostgroup (i : Nat) (database : Option Str) (healthy : Bool) : Task (Except Str (ConnId × Option Nat)) :=
  if healthy then do
    let r : Except Str ConnId ← act (.get (pool.origin (.replica i)) database)
    match r with
    | .ok conn => pure (.ok (conn, some i))
    | .error _ => do
      let _ : Unit ← act (.markUnhealthy pool.gen i)
      pool.getPrimaryAsReplica database
  else pool.getPrimaryAsReplica database

/-- `BackendPool::get_hostgroup_for_database` -/
def getHostgroupForDatabase (hostgroup : Nat) (database : Option Str) :
    Task (Except Str (ConnId × Option Nat)) := do
  if hostgroup = 0 then pool.getPrimaryAsReplica database
  else do
    let i := hostgroup - 1
    let healthy : Bool ←
      if i < pool.replicas.length then act (.replicaHealthy pool.gen i) else pure false
    pool.fromHostgroup i database healthy

/-- `BackendPool::put_primary_for_database` -/
def putPrimaryForDatabase (conn : ConnId) (database : Option Str) : Task Unit := do
  let failover : Int ← act (.loadFailover pool.gen)
  match pool.replicaAt failover with
  | some slot => act (.put (pool.origin slot) conn database)
  | none => act (.put (pool.origin .primary) conn database)

/-- `BackendPool::put_replica_for_database`: an index that is not a replica drops the connection. -/
def putReplicaForDatabase (conn : ConnId) (idx : Option Nat) (database : Option Str) : Task Unit :=
  match idx with
  | some i =>
    if i < pool.replicas.length then act (.put (pool.origin (.replica i)) conn database)
    else act (.drop .noSuchReplica conn)
  | none => act (.drop .noSuchReplica conn)

/-- The return path the callers choose by the index they were given. -/
def giveBack (conn : ConnId) (idx : Option Nat) (database : Option Str) : Task Unit :=
  match idx with
  | none => pool.putPrimaryForDatabase conn database
  | some i => pool.putReplicaForDatabase conn (some i) database

/-- Record an outcome in a replica's breaker, when the index is one. -/
def recordReplica (idx : Option Nat) (success : Bool) : Task Unit :=
  match idx with
  | some i => if i < pool.replicas.length then act (.replicaRecord pool.gen i success) else pure ()
  | none => pure ()

end PoolRef

end TurbineProxy

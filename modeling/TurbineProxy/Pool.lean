import TurbineProxy.Text

/-!
# `ConnectionPool`: the connections to one backend

The state of one pool and the pieces `get_for_database` and `put_for_database` are made of, each the
effect of one atomic access in the source (the locked pop loop, a counter update, a semaphore
operation). `ConnectionPool.getForDatabase` and `ConnectionPool.putForDatabase` compose them in the
order of the source, as one uninterrupted call; `Admission.lean` interleaves the same pieces.

Counters are natural numbers. Raising `borrowed` to `2 ^ 64` would take that many live connections,
so only the other end of the machine word is modelled: `fetch_sub` on zero wraps (`usizePred`).
-/

namespace TurbineProxy

/-- Identity of a backend connection: the order in which it was opened. -/
abbrev ConnId : Type := Nat

/-- A decimal numeral, as `format!` prints it. -/
def decimal (n : Nat) : Str := Nat.toDigits 10 n

/-- `fetch_sub(1)` on an unsigned machine word. -/
def usizePred (n : Nat) : Nat := if n = 0 then 2 ^ 64 - 1 else n - 1

theorem usizePred_succ (n : Nat) : usizePred (n + 1) = n := by simp [usizePred]

/-- Replacing an element moves a count by what the two elements contribute. -/
theorem countP_set_add {α : Type} {l : List α} {i : Nat} {x : α} (y : α) (q : α → Bool)
    (h : l[i]? = some x) : (l.set i y).countP q + (q x).toNat = l.countP q + (q y).toNat := by
  obtain ⟨hi, rfl⟩ := List.getElem?_eq_some_iff.mp h
  have hpos : q l[i] = true → 0 < l.countP q := fun hq =>
    List.countP_pos_iff.mpr ⟨_, List.getElem_mem hi, hq⟩
  rw [List.countP_set hi]
  cases hq : q l[i] <;> cases q y <;> simp_all

/-- The part of `BackendConfig` that pooling and routing read. -/
structure BackendConfig where
  /-- `host:port` -/
  addr : Str
  /-- default database -/
  database : Option Str
  /-- statements executed on every new connection -/
  initConnect : List Bytes
  /-- cap on checked-out connections -/
  maxConnections : Option Nat
  /-- weight in the replica round-robin -/
  weight : Nat
  /-- only used when every other replica is down -/
  backup : Bool
  deriving DecidableEq

/-- What a pool is created with (`ConnectionPool::with_wait_queue`). -/
structure PoolConfig where
  /-- the backend -/
  backend : BackendConfig
  /-- idle connections kept per database -/
  maxSize : Nat
  /-- idle time after which a connection is discarded, in milliseconds -/
  maxIdle : Option Nat
  /-- `pool_wait_queue_size`; `0` rejects at once -/
  waitQueueSize : Nat
  /-- `pool_wait_timeout_ms` -/
  waitTimeoutMs : Nat
  deriving DecidableEq

/-- An idle connection and the time it was returned. -/
structure PooledConn where
  /-- the connection -/
  conn : ConnId
  /-- when it was returned -/
  idleSince : Nat
  deriving DecidableEq

/-- The connections to a single backend. A bucket is a stack: its head is the back of the source's
`Vec`, where connections are pushed and popped. -/
structure ConnectionPool where
  /-- the immutable configuration -/
  config : PoolConfig
  /-- idle connections by database key -/
  buckets : List (Str × List PooledConn)
  /-- connections currently checked out -/
  borrowed : Nat
  /-- connections ever opened -/
  created : Nat
  /-- checkouts served from a bucket -/
  reused : Nat
  /-- idle connections discarded as stale -/
  evicted : Nat
  /-- permits of the wait-queue semaphore (unused when the queue is off) -/
  permits : Nat
  /-- requests counted as waiting -/
  waitQueueLength : Nat
  /-- requests that gave up waiting -/
  waitTimeouts : Nat
  deriving DecidableEq

namespace ConnectionPool

/-- `ConnectionPool::with_wait_queue`: the semaphore starts with `wait_queue_size` permits. -/
def new (config : PoolConfig) : ConnectionPool :=
  { config, buckets := [], borrowed := 0, created := 0, reused := 0, evicted := 0,
    permits := config.waitQueueSize, waitQueueLength := 0, waitTimeouts := 0 }

variable (p : ConnectionPool)

/-- `Self::db_key(database.or(self.config.database))` -/
def dbKey (database : Option Str) : Str :=
  (database.or p.config.backend.database).getD []

/-- The bucket of a key (empty when there is none). -/
def bucket (key : Str) : List PooledConn := (p.buckets.lookup key).getD []

/-- The connections in the buckets, as `snapshot` counts them. -/
def idle : Nat := (p.buckets.map fun e => e.2.length).sum

/-- Replace the bucket of a key. -/
def setBucket (key : Str) (b : List PooledConn) : ConnectionPool :=
  { p with buckets := (key, b) :: p.buckets.filter (fun e => !(e.1 == key)) }

/-- `entry.idle_since.elapsed() >= max` -/
def isStale (now : Nat) (e : PooledConn) : Bool :=
  match p.config.maxIdle with
  | some max => decide (max ≤ now - e.idleSince)
  | none => false

/-- The pop loop under the lock: discard stale connections from the back until a fresh one turns up.
The stale ones, the fresh one and what is left of the bucket. -/
def popLoop (now : Nat) : List PooledConn → List ConnId × Option ConnId × List PooledConn
  | [] => ([], none, [])
  | e :: rest =>
    if p.isStale now e then
      let r := popLoop now rest
      (e.conn :: r.1, r.2.1, r.2.2)
    else ([], some e.conn, rest)

/-- The locked section of `get_for_database`: the stale connections that are closed, the connection
that is taken. -/
def popIdle (key : Str) (now : Nat) : ConnectionPool × List ConnId × Option ConnId :=
  let r := p.popLoop now (p.bucket key)
  ({ p.setBucket key r.2.2 with evicted := p.evicted + r.1.length }, r.1, r.2.1)

/-- `borrowed` and `connections_reused` after an idle connection is handed out. -/
def countReuse : ConnectionPool := { p with borrowed := p.borrowed + 1, reused := p.reused + 1 }

/-- `borrowed` and `connections_created` after a new connection is handed out. -/
def countOpen : ConnectionPool := { p with borrowed := p.borrowed + 1, created := p.created + 1 }

/-- `self.borrowed.load(..) >= max` for a configured `max`. -/
def atCap : Bool :=
  match p.config.backend.maxConnections with
  | some max => decide (max ≤ p.borrowed)
  | none => false

/-- Whether a wait queue is configured. -/
def hasQueue : Bool := 0 < p.config.waitQueueSize

/-- A request starts waiting. -/
def enterQueue : ConnectionPool := { p with waitQueueLength := p.waitQueueLength + 1 }

/-- A request stops waiting, with or without a permit. -/
def leaveQueue : ConnectionPool := { p with waitQueueLength := usizePred p.waitQueueLength }

/-- `sem.acquire()` followed by `permit.forget()`; blocked without permits. -/
def acquire : Option ConnectionPool :=
  if p.permits = 0 then none else some { p with permits := p.permits - 1 }

/-- A request that waited in vain is counted. -/
def countTimeout : ConnectionPool := { p with waitTimeouts := p.waitTimeouts + 1 }

/-- The error of a request rejected at the cap. -/
def limitError : Str :=
  "backend ".toList ++ p.config.backend.addr ++ " connection limit reached (max: ".toList ++
    decimal (p.config.backend.maxConnections.getD 0) ++ "); try again later".toList

/-- The error of a request that timed out in the queue. -/
def waitTimeoutError : Str :=
  "backend ".toList ++ p.config.backend.addr ++
    " connection limit reached and wait queue timed out (max: ".toList ++
    decimal (p.config.backend.maxConnections.getD 0) ++ ", timeout: ".toList ++
    decimal p.config.waitTimeoutMs ++ "ms)".toList

/-- The start of `put_for_database`: lower `borrowed`, signal a waiter. -/
def release : ConnectionPool := { p with borrowed := usizePred p.borrowed }

/-- `sem.add_permits(1)`, when there is a queue. -/
def signal : ConnectionPool := if p.hasQueue then { p with permits := p.permits + 1 } else p

/-- The locked section of `put_for_database`; `false` when the bucket is full and the connection is
dropped. -/
def store (key : Str) (c : ConnId) (now : Nat) : ConnectionPool × Bool :=
  if (p.bucket key).length < p.config.maxSize then (p.setBucket key (⟨c, now⟩ :: p.bucket key), true)
  else (p, false)

/-!
## Uninterrupted calls

A call is cut at its awaits. Run without a break the pieces are the function of the source, which is what connects the
interleavings with it.
-/

/-- What the outside world decides during one `get_for_database`. -/
structure GetInput where
  /-- the clock at the pop loop -/
  now : Nat
  /-- a waiting request gets a permit before its timeout -/
  granted : Bool
  /-- `connect_backend`: the text of its error, if it fails -/
  connectError : Option Str
  /-- the text of the error of a failing `init_connect` statement, if one fails -/
  initError : Option Str

/-- How a checkout ends. -/
inductive Checkout : Type where
  /-- an idle connection -/
  | reused (c : ConnId)
  /-- a new connection, with the database it was opened for -/
  | opened (database : Option Str)
  /-- an error -/
  | failed (e : Str)
  deriving DecidableEq

/-- Open a new connection and run `init_connect`. -/
def openNew (key : Str) (inp : GetInput) : ConnectionPool × Checkout :=
  match inp.connectError with
  | some e => (p, .failed e)
  | none =>
    match (if p.config.backend.initConnect.isEmpty then none else inp.initError) with
    | some e => (p, .failed ("init_connect failed: ".toList ++ e))
    | none => (p.countOpen, .opened (if key.isEmpty then none else some key))

/-- `ConnectionPool::get_for_database` as one call: the stale connections it closes and its outcome.
`none` while it waits for a permit that is not there. -/
def getForDatabase (database : Option Str) (inp : GetInput) :
    Option (ConnectionPool × List ConnId × Checkout) :=
  let key := p.dbKey database
  let popped := p.popIdle key inp.now
  let p := popped.1
  match popped.2.2 with
  | some c => some (p.countReuse, popped.2.1, .reused c)
  | none =>
    if p.atCap then
      if p.hasQueue then
        if inp.granted then
          p.enterQueue.acquire.map fun p =>
            let r := p.leaveQueue.openNew key inp
            (r.1, popped.2.1, r.2)
        else some (p.enterQueue.leaveQueue.countTimeout, popped.2.1, .failed p.waitTimeoutError)
      else some (p, popped.2.1, .failed p.limitError)
    else
      let r := p.openNew key inp
      some (r.1, popped.2.1, r.2)

/-- `ConnectionPool::put_for_database` as one call, for a connection whose `in_transaction()` and
`is_healthy()` are given; `true` when the connection is kept. -/
def putForDatabase (c : ConnId) (inTransaction healthy : Bool) (database : Option Str) (now : Nat) :
    ConnectionPool × Bool :=
  let q := p.release.signal
  if inTransaction || !healthy then (q, false) else q.store (q.dbKey database) c now

/-! ## What the pieces change -/

@[simp] theorem release_borrowed : p.release.borrowed = usizePred p.borrowed := rfl

@[simp] theorem signal_borrowed : p.signal.borrowed = p.borrowed := by
  rw [signal]
  split <;> rfl

@[simp] theorem signal_config : p.signal.config = p.config := by
  rw [signal]
  split <;> rfl

@[simp] theorem signal_buckets : p.signal.buckets = p.buckets := by
  rw [signal]
  split <;> rfl

@[simp] theorem store_borrowed (key : Str) (c : ConnId) (now : Nat) :
    (p.store key c now).1.borrowed = p.borrowed := by
  rw [store]
  split <;> rfl

@[simp] theorem store_config (key : Str) (c : ConnId) (now : Nat) :
    (p.store key c now).1.config = p.config := by
  rw [store]
  split <;> rfl

@[simp] theorem popIdle_borrowed (key : Str) (now : Nat) :
    (p.popIdle key now).1.borrowed = p.borrowed := rfl

@[simp] theorem popIdle_config (key : Str) (now : Nat) :
    (p.popIdle key now).1.config = p.config := rfl

/-- The bucket that is replaced is counted, and it is the only one. -/
theorem idle_setBucket_le (key : Str) (b : List PooledConn) :
    (p.setBucket key b).idle + (p.bucket key).length ≤ p.idle + b.length := by
  have hrest : ∀ l : List (Str × List PooledConn),
      ((l.filter fun e => !(e.1 == key)).map fun e => e.2.length).sum + ((l.lookup key).getD []).length ≤
        (l.map fun e => e.2.length).sum := by
    intro l
    induction l with
    | nil => exact Nat.le_refl _
    | cons e rest ih =>
      obtain ⟨k, b'⟩ := e
      by_cases hkey : key = k
      · subst hkey
        simp only [List.filter_cons, beq_self_eq_true, Bool.not_true, Bool.false_eq_true, if_false,
          List.lookup_cons_self, Option.getD_some, List.map_cons, List.sum_cons]
        omega
      · have hne : (k == key) = false := beq_eq_false_iff_ne.mpr (Ne.symm hkey)
        have hne' : (key == k) = false := beq_eq_false_iff_ne.mpr hkey
        simp only [List.filter_cons, hne, Bool.not_false, if_true, List.map_cons, List.sum_cons, List.lookup_cons,
          hne']
        omega
  have hle := hrest p.buckets
  simp only [idle, setBucket, bucket, List.map_cons, List.sum_cons] at hle ⊢
  omega

/-- The pop loop takes a connection out of the bucket, or none is left. -/
theorem length_popLoop (now : Nat) (b : List PooledConn) :
    (p.popLoop now b).2.2.length + (p.popLoop now b).2.1.isSome.toNat ≤ b.length := by
  induction b with
  | nil => exact Nat.le_refl _
  | cons e rest ih =>
    rw [popLoop]
    split
    · exact Nat.le_succ_of_le ih
    · exact Nat.le_refl _

/-- What is taken is not idle any more. -/
theorem idle_popIdle_le (key : Str) (now : Nat) :
    (p.popIdle key now).1.idle + (p.popIdle key now).2.2.isSome.toNat ≤ p.idle := by
  have hset := p.idle_setBucket_le key (p.popLoop now (p.bucket key)).2.2
  have hpop := p.length_popLoop now (p.bucket key)
  change (p.setBucket key (p.popLoop now (p.bucket key)).2.2).idle +
    (p.popLoop now (p.bucket key)).2.1.isSome.toNat ≤ p.idle
  omega

/-- One more is idle after a push at most. -/
theorem idle_store_le (key : Str) (c : ConnId) (now : Nat) : (p.store key c now).1.idle ≤ p.idle + 1 := by
  rw [store]
  split
  · have hset := p.idle_setBucket_le key (⟨c, now⟩ :: p.bucket key)
    rw [List.length_cons] at hset
    dsimp only
    omega
  · exact Nat.le_succ _

@[simp] theorem signal_idle : p.signal.idle = p.idle := by
  rw [idle, signal_buckets, idle]

/-- A put lowers `borrowed` by one, whatever becomes of the connection. -/
theorem putForDatabase_borrowed (c : ConnId) (tx healthy : Bool) (db : Option Str) (now : Nat) :
    (p.putForDatabase c tx healthy db now).1.borrowed = usizePred p.borrowed := by
  rw [putForDatabase]
  split <;> simp

theorem putForDatabase_config (c : ConnId) (tx healthy : Bool) (db : Option Str) (now : Nat) :
    (p.putForDatabase c tx healthy db now).1.config = p.config := by
  rw [putForDatabase]
  split <;> simp [release]

/-- A put that keeps the connection found it healthy and outside a transaction. -/
theorem putForDatabase_kept {c : ConnId} {tx healthy : Bool} {db : Option Str} {now : Nat}
    (h : (p.putForDatabase c tx healthy db now).2 = true) : tx = false ∧ healthy = true := by
  rw [putForDatabase] at h
  split at h
  · simp at h
  · rename_i hc
    simpa using hc

end ConnectionPool

end TurbineProxy

import Mathlib.Data.List.Nodup
import TurbineProxy.AppAnalytics
import TurbineProxy.AuthCache
import TurbineProxy.Threads

/-!
# Listening, and winding down

`ProxyServer::run` of `proxy/server.rs` with the tasks it spawns: permits, numbers and counters for each connection, and
the wait for the connections that are left when the proxy shuts down. The loop, and every task, take their steps in any
order; a step is one access to a counter, a lock or the clock. A task that panics loses its permit, as everything it
owns, but it counts nothing down. `listener_accounts` says what the counters show all the same, and when the wait ends.
-/

namespace TurbineProxy

open Config (UserConfig)

/-- The spawned task of a connection. -/
inductive ConnTask : Type where
  /-- the PROXY header is read, and `accept_client` runs -/
  | login
  /-- of its `on_connect` calls, so many are done -/
  | entering (peer : Peer) (calls : Nat)
  /-- it reads commands; of the `on_query` calls for the last one, these are left -/
  | serving (peer : Peer) (isRead isWrite : Bool) (calls : List BookKey)
  /-- of its `on_disconnect` calls, so many are done -/
  | leaving (peer : Peer) (calls : Nat)
  /-- `handle_connection` has returned -/
  | returned
  /-- `connections_active` is counted down -/
  | countedDown
  /-- the permit is dropped -/
  | gone
  /-- `handle_connection` has panicked, and the permit is dropped -/
  | panicked (peer : Option Peer)
  deriving DecidableEq

namespace ConnTask

/-- It has its permit. -/
def holdsPermit : ConnTask → Bool
  | gone | panicked _ => false
  | _ => true

/-- It is in `connections_active`. -/
def isActive : ConnTask → Bool
  | countedDown | gone => false
  | _ => true

/-- It runs `handle_connection`. -/
def isHandled : ConnTask → Bool
  | login | entering .. | serving .. | leaving .. => true
  | _ => false

/-- Where it is counted. -/
def held : ConnTask → List BookKey
  | entering peer calls => peer.keys.take calls
  | serving peer .. => peer.keys
  | leaving peer calls => peer.keys.drop calls
  | panicked (some peer) => peer.keys
  | _ => []

end ConnTask

/-- A connection, with its number. -/
structure SpawnedConn where
  connId : UInt32
  task : ConnTask
  deriving DecidableEq

/-- How `run` ends. -/
inductive RunEnd : Type where
  /-- `set_nodelay` has failed -/
  | failed
  /-- no connection was left -/
  | idle
  /-- it was not to wait for connections -/
  | atOnce
  /-- the time was over -/
  | forced
  /-- the deadline was too far off -/
  | panicked
  deriving DecidableEq

/-- Where `run` is. -/
inductive RunPhase : Type where
  /-- it waits for a connection, or to be notified -/
  | listening
  /-- a permit is taken for a connection -/
  | admitted
  /-- its number is drawn -/
  | numbered (connId : UInt32)
  /-- it is in `connections_total` -/
  | totalled (connId : UInt32)
  /-- it is in `connections_active` -/
  | activated (connId : UInt32)
  /-- it has stopped to listen -/
  | stopped
  /-- it waits for the connections that are left -/
  | draining (deadline : Nat)
  /-- it has returned -/
  | over (result : RunEnd)
  deriving DecidableEq

/-- `ProxyServer`, as far as `run` uses it, and its tasks. -/
structure Listener where
  shutdownTimeoutSecs : UInt64
  users : List UserConfig
  phase : RunPhase
  /-- of `semaphore` -/
  permits : Nat
  /-- `connection_id` -/
  connectionId : UInt32
  connectionsTotal : UInt64
  connectionsActive : UInt64
  books : Books
  conns : List SpawnedConn
  /-- in nanoseconds -/
  clock : Nat

/-- What happens. -/
inductive ListenerEvent : Type where
  /-- time passes -/
  | tick (ns : Nat)
  /-- `accept` fails -/
  | acceptFailed
  /-- a connection is accepted, and `set_nodelay` fails -/
  | nodelayFailed
  /-- a connection is accepted, and a permit tried for -/
  | arrive
  /-- the next step of `run` for a connection that has one -/
  | count
  /-- the notification comes -/
  | shutdown
  /-- `run` looks at the counter -/
  | look
  /-- the login of a connection fails -/
  | loginFailed (i : Nat)
  /-- it succeeds -/
  | loggedIn (i : Nat) (peer : Peer)
  /-- the next call of a task to the registry or the store -/
  | call (i : Nat)
  /-- a task compares the connections of its user with the limit -/
  | check (i : Nat)
  /-- a query is counted from here on -/
  | query (i : Nat) (isRead isWrite : Bool)
  /-- a session ends -/
  | leave (i : Nat)
  /-- a task panics -/
  | panic (i : Nat)
  /-- a task ends, counts down or drops its permit -/
  | finish (i : Nat)

namespace Listener

/-- `ProxyServer::new` -/
def start (maxConnections : Nat) (shutdownTimeoutSecs : UInt64) (users : List UserConfig) : Listener :=
  ⟨shutdownTimeoutSecs, users, .listening, maxConnections, 1, 0, 0, .empty, [], 0⟩

variable (s : Listener)

/-- A task goes on. -/
def setTask (i : Nat) (c : SpawnedConn) (t : ConnTask) : Listener :=
  { s with conns := s.conns.set i { c with task := t } }

/-- What the comparison with the limit says; 0 is no limit. -/
def letsIn (user : Str) : Bool :=
  match s.users.find? fun u => u.name == user with
  | some cfg => !(0 < cfg.maxConnections && cfg.maxConnections < s.books.registry.activeConnections user)
  | none => true

/-- `run` goes on with a connection that has a permit. -/
def count : Option Listener :=
  match s.phase with
  | .admitted => some { s with phase := .numbered s.connectionId, connectionId := s.connectionId + 1 }
  | .numbered connId => some { s with phase := .totalled connId, connectionsTotal := s.connectionsTotal + 1 }
  | .totalled connId => some { s with phase := .activated connId, connectionsActive := s.connectionsActive + 1 }
  | .activated connId => some { s with phase := .listening, conns := s.conns ++ [⟨connId, .login⟩] }
  | _ => none

/-- `run` looks at `connections_active`, before it begins to wait or while it does. -/
def look : Option Listener :=
  match s.phase with
  | .stopped =>
    let phase :=
      if s.shutdownTimeoutSecs = 0 then .over .atOnce
      else if s.connectionsActive = 0 then .over .idle
      else (instantAdd s.clock (s.shutdownTimeoutSecs.toNat * 10 ^ 9)).elim (.over .panicked) .draining
    some { s with phase := phase }
  | .draining deadline =>
    let phase :=
      if s.connectionsActive = 0 then .over .idle
      else if deadline ≤ s.clock then .over .forced
      else .draining deadline
    some { s with phase := phase }
  | _ => none

/-- The next call of a task. -/
def call (i : Nat) (c : SpawnedConn) : Option Listener :=
  match c.task with
  | .entering peer calls => peer.keys[calls]?.map fun k =>
      { s.setTask i c (.entering peer (calls + 1)) with books := s.books.connect peer.allowWrites s.clock k }
  | .serving peer isRead isWrite (k :: calls) => some
      { s.setTask i c (.serving peer isRead isWrite calls) with books := s.books.query isRead isWrite s.clock k }
  | .leaving peer calls => peer.keys[calls]?.map fun k =>
      { s.setTask i c (.leaving peer (calls + 1)) with books := s.books.disconnect k }
  | _ => none

/-- A task takes its last steps. -/
def finish (i : Nat) (c : SpawnedConn) : Option Listener :=
  match c.task with
  | .leaving peer calls => if calls = peer.keys.length then some (s.setTask i c .returned) else none
  | .returned => some { s.setTask i c .countedDown with connectionsActive := s.connectionsActive - 1 }
  | .countedDown => some { s.setTask i c .gone with permits := s.permits + 1 }
  | _ => none

/-- A step of a task, if the event is one. -/
def taskStep (i : Nat) (c : SpawnedConn) : ListenerEvent → Option Listener
  | .loginFailed _ => if c.task = .login then some (s.setTask i c .returned) else none
  | .loggedIn _ peer => if c.task = .login then some (s.setTask i c (.entering peer 0)) else none
  | .call _ => s.call i c
  | .check _ =>
    match c.task with
    | .entering peer calls =>
      if calls = peer.keys.length then
        some (s.setTask i c (if s.letsIn peer.user then .serving peer false false [] else .leaving peer 0))
      else none
    | _ => none
  | .query _ isRead isWrite =>
    match c.task with
    | .serving peer _ _ [] => some (s.setTask i c (.serving peer isRead isWrite peer.keys))
    | _ => none
  | .leave _ =>
    match c.task with
    | .serving peer _ _ [] => some (s.setTask i c (.leaving peer 0))
    | _ => none
  | .panic _ =>
    match c.task with
    | .login => some { s.setTask i c (.panicked none) with permits := s.permits + 1 }
    | .serving peer _ _ [] => some { s.setTask i c (.panicked (some peer)) with permits := s.permits + 1 }
    | _ => none
  | .finish _ => s.finish i c
  | _ => none

/-- Perform an event; `none` where whoever it is about is not at that point. -/
def step (s : Listener) (e : ListenerEvent) : Option Listener :=
  match e with
  | .tick ns => some { s with clock := s.clock + ns }
  | .acceptFailed => if s.phase = .listening then some s else none
  | .nodelayFailed => if s.phase = .listening then some { s with phase := .over .failed } else none
  | .arrive =>
    if s.phase = .listening then
      -- without a permit, the socket is dropped
      if 0 < s.permits then some { s with phase := .admitted, permits := s.permits - 1 } else some s
    else none
  | .count => s.count
  | .shutdown => if s.phase = .listening then some { s with phase := .stopped } else none
  | .look => s.look
  | .loginFailed i | .loggedIn i _ | .call i | .check i | .query i _ _ | .leave i | .panic i | .finish i =>
    s.conns[i]?.bind fun c => s.taskStep i c e

end Listener

/-!
## What the counters show

As long as no counter has come round, each of them is the number of tasks between their two calls, the panicked ones
included.
-/

/-- What `run` has taken or counted for a connection whose task it has not spawned yet. -/
structure RunPhase.Pending where
  permit : Nat
  numbered : Nat
  totalled : Nat
  activated : Nat

/-- By phases. -/
def RunPhase.pending : RunPhase → RunPhase.Pending
  | .admitted => ⟨1, 0, 0, 0⟩
  | .numbered _ => ⟨1, 1, 0, 0⟩
  | .totalled _ => ⟨1, 1, 1, 0⟩
  | .activated _ => ⟨1, 1, 1, 1⟩
  | _ => ⟨0, 0, 0, 0⟩

/-- The number that `run` has drawn. -/
def RunPhase.drawn : RunPhase → Option UInt32
  | .numbered connId | .totalled connId | .activated connId => some connId
  | _ => none

theorem RunPhase.activated_le_one (p : RunPhase) : p.pending.activated ≤ 1 := by
  cases p <;> simp [pending]

/-- A session is counted under each of its keys at most once. -/
theorem Peer.keys_nodup (p : Peer) : p.keys.Nodup := by
  rw [keys]
  split <;> simp

namespace ConnTask

theorem nodup_held (t : ConnTask) : t.held.Nodup := by
  match t with
  | entering peer calls => exact peer.keys_nodup.sublist (List.take_sublist ..)
  | serving peer .. => exact peer.keys_nodup
  | leaving peer calls => exact peer.keys_nodup.sublist (List.drop_sublist ..)
  | panicked (some peer) => exact peer.keys_nodup
  | panicked none | login | returned | countedDown | gone => exact List.nodup_nil

theorem holdsPermit_of_isHandled (t : ConnTask) (h : t.isHandled = true) : t.holdsPermit = true := by
  cases t with
  | gone | panicked peer => cases h
  | _ => rfl

/-- It is counted out before it leaves `connections_active`. -/
theorem held_eq_nil (t : ConnTask) (h : t.isActive = false) : t.held = [] := by
  cases t with
  | countedDown | gone => rfl
  | _ => cases h

end ConnTask

/-- How often a connection is counted under a key. -/
def SpawnedConn.weight (c : SpawnedConn) (k : BookKey) : Nat := c.task.held.count k

theorem SpawnedConn.weight_le_one (c : SpawnedConn) (k : BookKey) : c.weight k ≤ 1 :=
  List.nodup_iff_count_le_one.mp c.task.nodup_held k

namespace Listener

/-- What the counters show. -/
structure Accounted (maxConnections : Nat) (s : Listener) : Prop where
  /-- a permit is free, or somebody has it -/
  permits : s.permits + s.conns.countP (·.task.holdsPermit) + s.phase.pending.permit = maxConnections
  /-- `connections_active` is right but for overflow -/
  active : s.connectionsActive = UInt64.ofNat (s.conns.countP (·.task.isActive) + s.phase.pending.activated)
  /-- and so is `connections_total` -/
  total : s.connectionsTotal = UInt64.ofNat (s.conns.length + s.phase.pending.totalled)
  /-- connections are numbered in their order -/
  connIds : ∀ (i : Nat) (c : SpawnedConn), s.conns[i]? = some c → c.connId = UInt32.ofNat (i + 1)
  /-- and so is the one that comes next -/
  drawn : ∀ connId ∈ s.phase.drawn, connId = UInt32.ofNat (s.conns.length + 1)
  /-- the numbers that are drawn are used -/
  connectionId : s.connectionId = UInt32.ofNat (s.conns.length + s.phase.pending.numbered + 1)
  /-- the gauges of users, addresses and applications are right -/
  books : s.conns.length < 2 ^ 64 → Gauged (fun k => (s.books.active k).toNat) SpawnedConn.weight s.conns
  /-- when it has waited for all connections, there is none -/
  idle : s.conns.length < 2 ^ 64 - 1 → s.phase = .over .idle → ∀ c ∈ s.conns, c.task.isActive = false

theorem accounted_start (maxConnections : Nat) (shutdownTimeoutSecs : UInt64) (users : List UserConfig) :
    Accounted maxConnections (start maxConnections shutdownTimeoutSecs users) where
  permits := rfl
  active := rfl
  total := rfl
  connIds i c hi := by cases hi
  drawn connId h := by cases h
  connectionId := rfl
  books _ := .nil fun k => by cases k <;> rfl
  idle _ h := by cases h

section Steps

variable {n : Nat} {s s' : Listener} {i : Nat} {c : SpawnedConn} {e : ListenerEvent}

/-- A task that goes on moves its own weights and nobody else's. -/
theorem Accounted.setTask (h : Accounted n s) (hi : s.conns[i]? = some c) {t : ConnTask} {books : Books} {permits : Nat}
    {active : UInt64} (hpermits : permits + t.holdsPermit.toNat = s.permits + c.task.holdsPermit.toNat)
    (hactive : active + UInt64.ofNat c.task.isActive.toNat = s.connectionsActive + UInt64.ofNat t.isActive.toNat)
    (hfinal : t.isActive = true → c.task.isActive = true)
    (hbooks : ∀ k, (s.books.active k).toNat = load SpawnedConn.weight s.conns k → s.conns.length < 2 ^ 64 →
      (books.active k).toNat + c.task.held.count k = (s.books.active k).toNat + t.held.count k) :
    Accounted n { s.setTask i c t with books := books, permits := permits, connectionsActive := active } where
  permits := by
    have hcount := countP_set_add (i := i) { c with task := t } (fun d : SpawnedConn => d.task.holdsPermit) hi
    have hold := h.permits
    change permits + (s.conns.set i { c with task := t }).countP (·.task.holdsPermit) + s.phase.pending.permit =
      n
    dsimp only at hcount
    omega
  active := by
    have hcount := countP_set_add (i := i) { c with task := t } (fun d : SpawnedConn => d.task.isActive) hi
    -- in words the counter cannot be subtracted from: both sides are compared with the old task added
    have hsum : active + UInt64.ofNat c.task.isActive.toNat =
        UInt64.ofNat ((s.conns.set i { c with task := t }).countP (·.task.isActive) + s.phase.pending.activated) +
          UInt64.ofNat c.task.isActive.toNat := by
      rw [hactive, h.active, ← UInt64.ofNat_add, ← UInt64.ofNat_add]
      congr 1
      dsimp only at hcount
      omega
    exact (UInt64.add_left_inj _).mp hsum
  total := by
    change s.connectionsTotal = UInt64.ofNat ((s.conns.set i { c with task := t }).length + s.phase.pending.totalled)
    rw [List.length_set]
    exact h.total
  connIds := by
    intro j d hj
    change (s.conns.set i { c with task := t })[j]? = some d at hj
    rw [List.getElem?_set] at hj
    split at hj
    · rename_i heq
      subst heq
      obtain ⟨-, hd⟩ := Option.ite_none_right_eq_some.mp hj
      cases hd
      exact h.connIds i c hi
    · exact h.connIds j d hj
  drawn := by
    change ∀ connId ∈ s.phase.drawn, connId = UInt32.ofNat ((s.conns.set i { c with task := t }).length + 1)
    rw [List.length_set]
    exact h.drawn
  connectionId := by
    change s.connectionId = UInt32.ofNat ((s.conns.set i { c with task := t }).length + s.phase.pending.numbered + 1)
    rw [List.length_set]
    exact h.connectionId
  books := by
    change (s.conns.set i { c with task := t }).length < 2 ^ 64 →
      Gauged (fun k => (books.active k).toNat) SpawnedConn.weight (s.conns.set i { c with task := t })
    rw [List.length_set]
    exact fun hlen => (h.books hlen).move hi fun k hk => hbooks k hk hlen
  idle := by
    change (s.conns.set i { c with task := t }).length < 2 ^ 64 - 1 → s.phase = .over .idle →
      ∀ d ∈ s.conns.set i { c with task := t }, d.task.isActive = false
    rw [List.length_set]
    intro hlen hover d hd
    rcases List.mem_or_eq_of_mem_set hd with hd | rfl
    · exact h.idle hlen hover d hd
    · rw [← Bool.not_eq_true]
      intro ht
      have hc := h.idle hlen hover c (List.mem_of_getElem? hi)
      rw [hfinal ht] at hc
      cases hc

/-- A task goes on, and is counted where it was. -/
theorem Accounted.setTask_held (h : Accounted n s) (hi : s.conns[i]? = some c) {t : ConnTask} {permits : Nat}
    (hpermits : permits + t.holdsPermit.toNat = s.permits + c.task.holdsPermit.toNat)
    (hactive : t.isActive = c.task.isActive) (hheld : t.held = c.task.held) :
    Accounted n { s.setTask i c t with permits := permits } :=
  h.setTask hi hpermits (hactive ▸ rfl) (fun ht => hactive ▸ ht) fun _ _ _ => hheld ▸ rfl

/-- A call of `on_connect` raises one gauge, which the task then holds. -/
theorem Accounted.connect (h : Accounted n s) {peer : Peer} {calls : Nat} {k : BookKey} {connId : UInt32}
    (hi : s.conns[i]? = some ⟨connId, .entering peer calls⟩) (hk : peer.keys[calls]? = some k) :
    Accounted n { s.setTask i ⟨connId, .entering peer calls⟩ (.entering peer (calls + 1)) with
      books := s.books.connect peer.allowWrites s.clock k } := by
  refine h.setTask hi rfl rfl (fun _ => rfl) fun k' hload hlen => ?_
  have hheld : peer.keys.take (calls + 1) = peer.keys.take calls ++ [k] := by
    rw [List.take_add_one, hk]
    rfl
  have hfew := load_le_length (fun d : SpawnedConn => d.weight_le_one k')
    (s.conns.set i ⟨connId, .entering peer (calls + 1)⟩)
  have hset := load_set (w := SpawnedConn.weight) hi ⟨connId, .entering peer (calls + 1)⟩ k'
  rw [List.length_set] at hfew
  simp only [SpawnedConn.weight, ConnTask.held, hheld, List.count_append] at hset ⊢
  rw [Books.active_connect]
  split
  · rename_i heq
    subst heq
    rw [List.count_singleton_self] at hset ⊢
    rw [UInt64.toNat_add, UInt64.toNat_one, Nat.mod_eq_of_lt (by omega)]
    omega
  · rename_i hne
    have hnone : List.count k' [k] = 0 := List.count_eq_zero.mpr (by simpa using hne)
    rw [hnone, Nat.add_zero]

/-- A call of `on_disconnect` lowers one gauge that was held. -/
theorem Accounted.disconnect (h : Accounted n s) {peer : Peer} {calls : Nat} {k : BookKey} {connId : UInt32}
    (hi : s.conns[i]? = some ⟨connId, .leaving peer calls⟩) (hk : peer.keys[calls]? = some k) :
    Accounted n { s.setTask i ⟨connId, .leaving peer calls⟩ (.leaving peer (calls + 1)) with
      books := s.books.disconnect k } := by
  refine h.setTask hi rfl rfl (fun _ => rfl) fun k' hload hlen => ?_
  have hheld : peer.keys.drop calls = k :: peer.keys.drop (calls + 1) := by
    obtain ⟨hlt, rfl⟩ := List.getElem?_eq_some_iff.mp hk
    exact List.drop_eq_getElem_cons hlt
  have hpos := le_load (w := SpawnedConn.weight) (List.mem_of_getElem? hi) k'
  simp only [SpawnedConn.weight, ConnTask.held, hheld] at hpos ⊢
  rw [Books.active_disconnect]
  split
  · rename_i heq
    subst heq
    rw [List.count_cons_self] at hpos ⊢
    obtain ⟨n, hn⟩ := Nat.exists_eq_add_one_of_ne_zero (show (s.books.active k').toNat ≠ 0 by omega)
    rw [UserServer.toNat_saturatingPred hn, hn]
    omega
  · rename_i hne
    rw [List.count_cons_of_ne (Ne.symm hne)]

/-- A step of a task. -/
theorem Accounted.taskStep (h : Accounted n s) (hi : s.conns[i]? = some c) (hstep : s.taskStep i c e = some s') :
    Accounted n s' := by
  obtain ⟨connId, t⟩ := c
  cases e with
  | loginFailed j =>
    obtain ⟨rfl, heq⟩ := Option.ite_none_right_eq_some.mp hstep
    cases heq
    exact h.setTask_held hi rfl rfl rfl
  | loggedIn j peer =>
    obtain ⟨rfl, heq⟩ := Option.ite_none_right_eq_some.mp hstep
    cases heq
    exact h.setTask_held hi rfl rfl rfl
  | call j =>
    rw [Listener.taskStep, call] at hstep
    split at hstep
    · rename_i peer calls ht
      cases ht
      obtain ⟨k, hk, rfl⟩ := Option.map_eq_some_iff.mp hstep
      exact h.connect hi hk
    · rename_i peer isRead isWrite k calls ht
      cases ht
      cases hstep
      refine h.setTask hi rfl rfl (fun _ => rfl) fun k' _ _ => ?_
      rw [Books.active_query]
      rfl
    · rename_i peer calls ht
      cases ht
      obtain ⟨k, hk, rfl⟩ := Option.map_eq_some_iff.mp hstep
      exact h.disconnect hi hk
    · cases hstep
  | check j =>
    rw [Listener.taskStep] at hstep
    split at hstep
    · rename_i peer calls ht
      cases ht
      obtain ⟨rfl, heq⟩ := Option.ite_none_right_eq_some.mp hstep
      cases heq
      have hall : peer.keys.take peer.keys.length = peer.keys := List.take_length
      split
      · exact h.setTask_held hi rfl rfl hall.symm
      · exact h.setTask_held hi rfl rfl hall.symm
    · cases hstep
  | query j isRead isWrite =>
    rw [Listener.taskStep] at hstep
    split at hstep
    · rename_i ht
      cases ht
      cases hstep
      exact h.setTask_held hi rfl rfl rfl
    · cases hstep
  | leave j =>
    rw [Listener.taskStep] at hstep
    split at hstep
    · rename_i ht
      cases ht
      cases hstep
      exact h.setTask_held hi rfl rfl rfl
    · cases hstep
  | panic j =>
    rw [Listener.taskStep] at hstep
    split at hstep
    · rename_i ht
      cases ht
      cases hstep
      exact h.setTask_held hi rfl rfl rfl
    · rename_i ht
      cases ht
      cases hstep
      exact h.setTask_held hi rfl rfl rfl
    · cases hstep
  | finish j =>
    rw [Listener.taskStep, finish] at hstep
    split at hstep
    · rename_i peer calls ht
      cases ht
      obtain ⟨rfl, heq⟩ := Option.ite_none_right_eq_some.mp hstep
      cases heq
      exact h.setTask_held hi rfl rfl List.drop_length.symm
    · rename_i ht
      cases ht
      cases hstep
      exact h.setTask hi rfl (by simp [ConnTask.isActive]) (fun hno => by cases hno) fun _ _ _ => rfl
    · rename_i ht
      cases ht
      cases hstep
      exact h.setTask_held hi rfl rfl rfl
    · cases hstep
  | _ => cases hstep

/-- `run` goes on, with the tasks as they were. -/
theorem Accounted.setPhase (h : Accounted n s) {phase : RunPhase} {permits clock : Nat} {connectionId : UInt32}
    {total active : UInt64} (hpermits : permits + phase.pending.permit = s.permits + s.phase.pending.permit)
    (hnumbered : connectionId + UInt32.ofNat s.phase.pending.numbered =
      s.connectionId + UInt32.ofNat phase.pending.numbered)
    (htotal : total + UInt64.ofNat s.phase.pending.totalled = s.connectionsTotal + UInt64.ofNat phase.pending.totalled)
    (hactive : active + UInt64.ofNat s.phase.pending.activated =
      s.connectionsActive + UInt64.ofNat phase.pending.activated)
    (hdrawn : ∀ connId ∈ phase.drawn, connId = UInt32.ofNat (s.conns.length + 1))
    (hidle : s.conns.length < 2 ^ 64 - 1 → phase = .over .idle → ∀ c ∈ s.conns, c.task.isActive = false) :
    Accounted n { s with
      phase := phase, permits := permits, connectionId := connectionId
      connectionsTotal := total, connectionsActive := active, clock := clock } where
  permits := by
    have hold := h.permits
    change permits + s.conns.countP (·.task.holdsPermit) + phase.pending.permit = n
    omega
  active := by
    refine (UInt64.add_left_inj (UInt64.ofNat s.phase.pending.activated)).mp (hactive.trans ?_)
    rw [h.active, ← UInt64.ofNat_add, ← UInt64.ofNat_add]
    exact congrArg UInt64.ofNat (Nat.add_right_comm ..)
  total := by
    refine (UInt64.add_left_inj (UInt64.ofNat s.phase.pending.totalled)).mp (htotal.trans ?_)
    rw [h.total, ← UInt64.ofNat_add, ← UInt64.ofNat_add]
    exact congrArg UInt64.ofNat (Nat.add_right_comm ..)
  connIds := h.connIds
  drawn := hdrawn
  connectionId := by
    refine (UInt32.add_left_inj (UInt32.ofNat s.phase.pending.numbered)).mp (hnumbered.trans ?_)
    rw [h.connectionId, ← UInt32.ofNat_add, ← UInt32.ofNat_add]
    rw [Nat.add_right_comm, Nat.add_right_comm _ 1]
    exact congrArg UInt32.ofNat (congrArg (· + 1) (Nat.add_right_comm ..))
  books := h.books
  idle := hidle

/-- `run` goes from one phase to another, and counts nothing. -/
theorem Accounted.goPhase (h : Accounted n s) {phase : RunPhase} {clock : Nat}
    (hpending : phase.pending = s.phase.pending) (hdrawn : phase.drawn = s.phase.drawn)
    (hidle : s.conns.length < 2 ^ 64 - 1 → phase = .over .idle → ∀ c ∈ s.conns, c.task.isActive = false) :
    Accounted n { s with phase := phase, clock := clock } :=
  h.setPhase (hpending ▸ rfl) (hpending ▸ rfl) (hpending ▸ rfl) (hpending ▸ rfl) (hdrawn ▸ h.drawn) hidle

/-- `run` spawns the task, which takes the permit over. -/
theorem Accounted.spawn (h : Accounted n s) {connId : UInt32} (hphase : s.phase = .activated connId) :
    Accounted n { s with phase := .listening, conns := s.conns ++ [SpawnedConn.mk connId .login] } where
  permits := by
    have hold := h.permits
    rw [hphase] at hold
    change s.permits + (s.conns ++ [SpawnedConn.mk connId .login]).countP (·.task.holdsPermit) + 0 = n
    rw [List.countP_append]
    exact hold
  active := by
    have hold := h.active
    rw [hphase] at hold
    change s.connectionsActive =
      UInt64.ofNat ((s.conns ++ [SpawnedConn.mk connId .login]).countP (·.task.isActive) + 0)
    rw [List.countP_append]
    exact hold
  total := by
    have hold := h.total
    rw [hphase] at hold
    change s.connectionsTotal = UInt64.ofNat ((s.conns ++ [SpawnedConn.mk connId .login]).length + 0)
    rw [List.length_append]
    exact hold
  connIds := by
    intro i c hi
    change (s.conns ++ [SpawnedConn.mk connId .login])[i]? = some c at hi
    rw [List.getElem?_append] at hi
    split at hi
    · exact h.connIds i c hi
    · rename_i hlt
      rw [List.getElem?_singleton] at hi
      obtain ⟨hzero, heq⟩ := Option.ite_none_right_eq_some.mp hi
      cases heq
      have hlast : i = s.conns.length := by omega
      rw [hlast]
      exact h.drawn connId (by rw [hphase]; rfl)
  drawn connId h := by cases h
  connectionId := by
    have hold := h.connectionId
    rw [hphase] at hold
    change s.connectionId = UInt32.ofNat ((s.conns ++ [SpawnedConn.mk connId .login]).length + 0 + 1)
    rw [List.length_append]
    exact hold
  books := by
    change (s.conns ++ [SpawnedConn.mk connId .login]).length < 2 ^ 64 →
      Gauged (fun k => (s.books.active k).toNat) SpawnedConn.weight (s.conns ++ [SpawnedConn.mk connId .login])
    rw [List.length_append, List.length_singleton]
    exact fun hlen => (h.books (by omega)).join fun k => rfl
  idle _ hover := by cases hover

/-- Between connections, the counter is zero only if no task is active. -/
theorem Accounted.active_eq_zero (h : Accounted n s) (hpending : s.phase.pending.activated = 0)
    (hlen : s.conns.length < 2 ^ 64 - 1) (hzero : s.connectionsActive = 0) :
    ∀ c ∈ s.conns, c.task.isActive = false := by
  have hactive := h.active
  have hfew := s.conns.countP_le_length (p := fun c => c.task.isActive)
  rw [hzero, hpending, Nat.add_zero, eq_comm, ← UInt64.toNat_inj, UInt64.toNat_ofNat_of_lt' (by
    change _ < 2 ^ 64
    omega)] at hactive
  intro c hc
  exact Bool.eq_false_iff.mpr (List.countP_eq_zero.mp hactive c hc)

/-- `run` looks whether connections are left. -/
theorem Accounted.look (h : Accounted n s) (hstep : s.look = some s') : Accounted n s' := by
  rw [Listener.look] at hstep
  split at hstep
  · rename_i hphase
    cases hstep
    have hnone := h.active_eq_zero (by rw [hphase]; rfl)
    split
    · exact h.goPhase (by rw [hphase]; rfl) (by rw [hphase]; rfl) fun _ hover => by cases hover
    · split
      · rename_i hzero
        exact h.goPhase (by rw [hphase]; rfl) (by rw [hphase]; rfl) fun hlen _ => hnone hlen hzero
      · cases instantAdd s.clock (s.shutdownTimeoutSecs.toNat * 10 ^ 9) with
        | none => exact h.goPhase (by rw [hphase]; rfl) (by rw [hphase]; rfl) fun _ hover => by cases hover
        | some deadline => exact h.goPhase (by rw [hphase]; rfl) (by rw [hphase]; rfl) fun _ hover => by cases hover
  · rename_i deadline hphase
    cases hstep
    have hnone := h.active_eq_zero (by rw [hphase]; rfl)
    split
    · rename_i hzero
      exact h.goPhase (by rw [hphase]; rfl) (by rw [hphase]; rfl) fun hlen _ => hnone hlen hzero
    · split
      · exact h.goPhase (by rw [hphase]; rfl) (by rw [hphase]; rfl) fun _ hover => by cases hover
      · exact h.goPhase (by rw [hphase]) (by rw [hphase]) fun _ hover => by cases hover
  · cases hstep

/-- `run` goes on with a connection. -/
theorem Accounted.count (h : Accounted n s) (hstep : s.count = some s') : Accounted n s' := by
  rw [Listener.count] at hstep
  split at hstep
  · rename_i hphase
    cases hstep
    have hid := h.connectionId
    rw [hphase] at hid
    refine h.setPhase (by rw [hphase]; rfl) ?_ (by rw [hphase]; rfl) (by rw [hphase]; rfl) ?_
      fun _ hover => by cases hover
    · rw [hphase]
      exact UInt32.add_zero (s.connectionId + 1)
    · rintro connId ⟨rfl⟩
      exact hid
  · rename_i connId hphase
    cases hstep
    have hdrawn := h.drawn
    rw [hphase] at hdrawn
    refine h.setPhase (by rw [hphase]; rfl) (by rw [hphase]; rfl) ?_ (by rw [hphase]; rfl) hdrawn
      fun _ hover => by cases hover
    rw [hphase]
    exact UInt64.add_zero (s.connectionsTotal + 1)
  · rename_i connId hphase
    cases hstep
    have hdrawn := h.drawn
    rw [hphase] at hdrawn
    refine h.setPhase (by rw [hphase]; rfl) (by rw [hphase]; rfl) (by rw [hphase]; rfl) ?_ hdrawn
      fun _ hover => by cases hover
    rw [hphase]
    exact UInt64.add_zero (s.connectionsActive + 1)
  · rename_i connId hphase
    cases hstep
    exact h.spawn hphase
  · cases hstep

/-- Every event keeps the accounts. -/
theorem Accounted.step (h : Accounted n s) (hstep : s.step e = some s') : Accounted n s' := by
  cases e with
  | tick ns =>
    cases hstep
    exact h.goPhase rfl rfl h.idle
  | acceptFailed =>
    obtain ⟨-, heq⟩ := Option.ite_none_right_eq_some.mp hstep
    cases heq
    exact h
  | nodelayFailed =>
    obtain ⟨hphase, heq⟩ := Option.ite_none_right_eq_some.mp hstep
    cases heq
    exact h.goPhase (by rw [hphase]; rfl) (by rw [hphase]; rfl) fun _ hover => by cases hover
  | arrive =>
    obtain ⟨hphase, heq⟩ := Option.ite_none_right_eq_some.mp hstep
    split at heq
    · rename_i hfree
      cases heq
      refine h.setPhase ?_ (by rw [hphase]; rfl) (by rw [hphase]; rfl) (by rw [hphase]; rfl)
        (fun connId hno => by cases hno) fun _ hover => by cases hover
      rw [hphase]
      exact Nat.sub_add_cancel hfree
    · cases heq
      exact h
  | shutdown =>
    obtain ⟨hphase, heq⟩ := Option.ite_none_right_eq_some.mp hstep
    cases heq
    exact h.goPhase (by rw [hphase]; rfl) (by rw [hphase]; rfl) fun _ hover => by cases hover
  | count => exact h.count hstep
  | look => exact h.look hstep
  | loginFailed i | loggedIn i peer | call i | check i | query i isRead isWrite | leave i | panic i | finish i =>
    obtain ⟨c, hi, hc⟩ := Option.bind_eq_some_iff.mp hstep
    exact h.taskStep hi hc

end Steps

end Listener

/-- However the loop, the tasks, the clients and the clock take turns: a permit is free, held by a task, or taken for
the next one, so no more connections than allowed are handled at once, and they are numbered in their order. The counter
shows who is in it, each gauge how many sessions are counted under its key. A wait for connections that ends before its
time leaves none, and every gauge is back at zero; so if a task has panicked, it does not end like this. -/
theorem listener_accounts {maxConnections : Nat} {shutdownTimeoutSecs : UInt64} {users : List UserConfig}
    {events : List ListenerEvent} {s : Listener}
    (hrun : run Listener.step (.start maxConnections shutdownTimeoutSecs users) events = some s) :
    s.permits + s.conns.countP (·.task.holdsPermit) + s.phase.pending.permit = maxConnections ∧
    s.conns.countP (·.task.isHandled) ≤ maxConnections ∧
    (∀ (i : Nat) (c : SpawnedConn), s.conns[i]? = some c → c.connId = UInt32.ofNat (i + 1)) ∧
    (s.conns.length < 2 ^ 64 - 1 →
      s.connectionsActive.toNat = s.conns.countP (·.task.isActive) + s.phase.pending.activated ∧
      (∀ k, (s.books.active k).toNat = load SpawnedConn.weight s.conns k) ∧
      (s.phase = .over .idle → (∀ c ∈ s.conns, c.task.isActive = false) ∧ ∀ k, s.books.active k = 0)) := by
  have h : Listener.Accounted maxConnections s :=
    (steps_of_run hrun).induct (fun _ _ _ h _ hstep => h.step hstep)
      (Listener.accounted_start maxConnections shutdownTimeoutSecs users)
  have hhandled : s.conns.countP (·.task.isHandled) ≤ s.conns.countP (·.task.holdsPermit) :=
    List.countP_mono_left fun c _ hc => c.task.holdsPermit_of_isHandled hc
  have hpermits := h.permits
  refine ⟨hpermits, by omega, h.connIds, fun hlen => ?_⟩
  have hbooks := h.books (by omega)
  refine ⟨?_, hbooks, fun hover => ⟨h.idle hlen hover, fun k => ?_⟩⟩
  · have hfew := s.conns.countP_le_length (p := fun c => c.task.isActive)
    have hone := s.phase.activated_le_one
    rw [h.active]
    exact UInt64.toNat_ofNat_of_lt' (by
      change _ < 2 ^ 64
      omega)
  · have hzero : load SpawnedConn.weight s.conns k = 0 :=
      load_eq_zero_iff.mpr fun c hc => by
        rw [SpawnedConn.weight, c.task.held_eq_nil (h.idle hlen hover c hc), List.count_nil]
    exact UInt64.toNat_inj.mp ((hbooks k).trans hzero)

/-- A session from its first step on, up to where it reads commands. -/
def Listener.session : List ListenerEvent :=
  [.arrive, .count, .count, .count, .count,
    .loggedIn 0 ⟨"app".toList, "10.0.0.1".toList, "web".toList, true⟩, .call 0, .call 0, .call 0, .call 0, .check 0]

/-- The session ends while the proxy waits for it, and every gauge is at zero; or it panics before, and the proxy waits
in vain. -/
theorem listener_accounts_sample :
    (∃ s, run Listener.step (.start 1 30 []) (Listener.session ++ [.shutdown, .look, .leave 0, .look, .call 0,
        .call 0, .call 0, .call 0, .finish 0, .finish 0, .look, .finish 0]) = some s ∧
      s.phase = .over .idle ∧ ∀ k, s.books.active k = 0) ∧
    ∃ s, run Listener.step (.start 1 30 []) (Listener.session ++ [.query 0 true false, .call 0, .call 0, .call 0,
        .call 0, .panic 0, .shutdown, .look, .tick 30000000000, .look]) = some s ∧
      s.phase = .over .forced ∧ (s.books.active (.registry "app".toList)).toNat = 1 := by
  constructor
  · have hsome : (run Listener.step (.start 1 30 []) (Listener.session ++ [.shutdown, .look, .leave 0, .look, .call 0,
        .call 0, .call 0, .call 0, .finish 0, .finish 0, .look, .finish 0])).map (fun s => (s.phase, s.conns)) =
        some (.over .idle, [⟨1, .gone⟩]) := rfl
    obtain ⟨s, hrun, hs⟩ := Option.map_eq_some_iff.mp hsome
    obtain ⟨hphase, hconns⟩ := Prod.mk.inj hs
    have hall := (listener_accounts hrun).2.2.2 (by rw [hconns]; decide)
    exact ⟨s, hrun, hphase, (hall.2.2 hphase).2⟩
  · have hsome : (run Listener.step (.start 1 30 []) (Listener.session ++ [.query 0 true false, .call 0, .call 0,
        .call 0, .call 0, .panic 0, .shutdown, .look, .tick 30000000000, .look])).map (fun s => (s.phase, s.conns)) =
        some (.over .forced,
          [⟨1, .panicked (some ⟨"app".toList, "10.0.0.1".toList, "web".toList, true⟩)⟩]) := by decide +kernel
    obtain ⟨s, hrun, hs⟩ := Option.map_eq_some_iff.mp hsome
    obtain ⟨hphase, hconns⟩ := Prod.mk.inj hs
    have hall := (listener_accounts hrun).2.2.2 (by rw [hconns]; simp)
    exact ⟨s, hrun, hphase, (hall.2.1 _).trans (by rw [hconns]; rfl)⟩

end TurbineProxy

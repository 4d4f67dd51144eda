import TurbineProxy.Failover

/-!
# Reloading the backends

`Router::reload_pool` swaps in a new pool. Whoever got an `Arc` of a pool at start-up keeps the one it
got. `FollowsRouting` is the property: every pool that a health checker or a failover action of the
dashboard writes is the one that its router uses.

`followsRouting_iff` says exactly when: as long as no reload has swapped a pool that somebody who is
running holds on to.
-/

namespace TurbineProxy

/-! ## Who writes which pool -/

/-- `backend_protocol` -/
inductive BackendProtocol : Type where
  /-- MySQL -/
  | mysql
  /-- PostgreSQL -/
  | pgsql
  deriving DecidableEq

/-- Who writes the health state of a pool. -/
inductive Holder : Type where
  /-- `HealthChecker` -/
  | healthChecker
  /-- `GrChecker` -/
  | grChecker
  /-- `cluster_action` for MySQL, on `state.pool` -/
  | dashboard
  /-- `PgHealthChecker` -/
  | pgHealthChecker
  /-- `cluster_action` for PostgreSQL, on `router.pool()` -/
  | pgDashboard
  deriving DecidableEq

/-- Whose pool it writes. -/
def Holder.protocol : Holder → BackendProtocol
  | .healthChecker | .grChecker | .dashboard => .mysql
  | .pgHealthChecker | .pgDashboard => .pgsql

/-- Whether it keeps the `Arc` it got at start-up. -/
def Holder.captures : Holder → Bool
  | .pgDashboard => false
  | _ => true

/-- Who checks the health of the backends. -/
def BackendProtocol.checker : BackendProtocol → Holder
  | .mysql => .healthChecker
  | .pgsql => .pgHealthChecker

/-- Who performs a cluster action. -/
def BackendProtocol.dashboard : BackendProtocol → Holder
  | .mysql => .dashboard
  | .pgsql => .pgDashboard

/-! ## Reloads -/

/-- What a configuration says of the backends, as far as the health state depends on it. -/
structure Backends where
  /-- how many replicas -/
  replicas : Nat
  /-- `circuit_breaker_threshold` -/
  cbThreshold : Nat
  /-- `circuit_breaker_recovery_ms` -/
  cbRecoveryMs : Nat

/-- The ways to reload the backends. -/
inductive ReloadPath : Type where
  /-- `reload_backends`: the configuration file, if it can be read -/
  | reloadBackends (config : Option Backends)
  /-- `cluster_sync`: the configuration in the request, if it can be parsed -/
  | clusterSync (authorized : Bool) (config : Option Backends)
  /-- `apply_mysql_backends`, after a backend was created, updated or deleted: what the store holds, if
  there is a primary -/
  | applyMysqlBackends (stored : Option Backends)
  /-- `apply_pg_backends` -/
  | applyPgBackends (enabled : Bool) (stored : Option Backends)

/-- The pool a reload swaps in. -/
def ReloadPath.swap : ReloadPath → Option (BackendProtocol × HaPool)
  | .reloadBackends config => config.map fun b => (.mysql, .new b.replicas b.cbThreshold b.cbRecoveryMs)
  | .clusterSync authorized config =>
    if authorized then config.map fun b => (.mysql, .new b.replicas b.cbThreshold b.cbRecoveryMs) else none
  | .applyMysqlBackends stored => stored.map fun b => (.mysql, .new b.replicas 5 10000)
  | .applyPgBackends enabled stored =>
    if enabled then stored.map fun b => (.pgsql, .new b.replicas 5 10000) else none

/-! ## The process -/

/-- The pools of a process; an `Arc` is a position. -/
structure Process where
  /-- every pool there ever was -/
  pools : List HaPool
  /-- the pool of each router -/
  router : BackendProtocol → Nat
  /-- the pool each holder got at start-up -/
  captured : Holder → Nat

/-- What happens in a process. -/
inductive ProcessEvent : Type where
  /-- a reload -/
  | reload (path : ReloadPath)
  /-- `check_primary` -/
  | checkPrimary (protocol : BackendProtocol) (ok : Bool) (now nowMs : Nat)
  /-- `check_replica`: whatever it finds -/
  | checkReplica (protocol : BackendProtocol) (i : Nat) (health : BackendHealth)
  /-- `apply_members`, on the index it finds -/
  | applyMembers (idx : Int)
  /-- `trigger_failover` of the dashboard -/
  | triggerFailover (protocol : BackendProtocol) (force : Bool)
  /-- `clear_failover` -/
  | clearFailover (protocol : BackendProtocol)
  /-- `recheck_health` -/
  | recheckHealth (protocol : BackendProtocol) (primaryOk : Bool) (replicasOk : Nat → Bool)

namespace Process

variable (ha : BackendProtocol → HaConfig) (s : Process)

/-- The pool a holder writes. -/
def holds (h : Holder) : Nat := if h.captures then s.captured h else s.router h.protocol

/-- A holder writes its pool. -/
def write (h : Holder) (f : HaPool → HaPool) : Process := { s with pools := s.pools.modify (s.holds h) f }

/-- Perform an event. -/
def step : ProcessEvent → Process
  | .reload path =>
    match path.swap with
    | some (protocol, pool) =>
      { s with
        pools := s.pools ++ [pool]
        router := Function.update s.router protocol s.pools.length }
    | none => s
  | .checkPrimary .mysql ok now _ =>
    s.write .healthChecker fun pool => HealthChecker.checkPrimary (ha .mysql) pool ok now
  | .checkPrimary .pgsql ok now nowMs =>
    s.write .pgHealthChecker fun pool => PgHealthChecker.checkPrimary (ha .pgsql) pool ok now nowMs
  | .checkReplica protocol i health =>
    s.write protocol.checker fun pool => { pool with replicaHealth := pool.replicaHealth.set i health }
  | .applyMembers idx => s.write .grChecker fun pool => { pool with grPrimaryIdx := idx }
  | .triggerFailover protocol force =>
    s.write protocol.dashboard fun pool => (ClusterAction.triggerFailover pool force).toOption.getD pool
  | .clearFailover protocol => s.write protocol.dashboard ClusterAction.clearFailover
  | .recheckHealth protocol primaryOk replicasOk =>
    s.write protocol.dashboard fun pool => ClusterAction.recheckPoolHealth pool primaryOk replicasOk

/-- At start-up there is one pool for each protocol, and everybody gets it. -/
def start (mysql pgsql : Backends) : Process where
  pools :=
    [.new mysql.replicas mysql.cbThreshold mysql.cbRecoveryMs,
      .new pgsql.replicas pgsql.cbThreshold pgsql.cbRecoveryMs]
  router := fun protocol => if protocol = .mysql then 0 else 1
  captured := fun h => if h.protocol = .mysql then 0 else 1

/-- **Health state follows routing**: whoever is running writes the pool that is routed to. -/
def FollowsRouting (running : Holder → Bool) : Prop :=
  ∀ h, running h = true → s.holds h = s.router h.protocol

end Process

/-! ## Runs -/

/-- The event swaps the pool of a protocol. -/
def ProcessEvent.Swaps (protocol : BackendProtocol) (e : ProcessEvent) : Prop :=
  ∃ path pool, e = .reload path ∧ path.swap = some (protocol, pool)

variable {ha : BackendProtocol → HaConfig} {s : Process} {protocol : BackendProtocol} {e : ProcessEvent}

namespace Process

/-- Nobody gets another pool. -/
theorem step_captured : (s.step ha e).captured = s.captured := by
  cases e with
  | reload path =>
    rw [step]
    split <;> rfl
  | checkPrimary protocol ok now nowMs => cases protocol <;> rfl
  | _ => rfl

/-- Pools are never forgotten. -/
theorem length_step : s.pools.length ≤ (s.step ha e).pools.length := by
  have hwrite : ∀ h f, s.pools.length ≤ (s.write h f).pools.length :=
    fun h f => (List.length_modify ..).ge
  cases e with
  | reload path =>
    rw [step]
    split
    · exact List.length_append ▸ Nat.le_add_right _ _
    · exact Nat.le_refl _
  | checkPrimary protocol ok now nowMs => cases protocol <;> exact hwrite _ _
  | _ => exact hwrite _ _

/-- A swap gives the router a pool that is new. -/
theorem router_step_of_swaps (h : e.Swaps protocol) : (s.step ha e).router protocol = s.pools.length := by
  obtain ⟨path, pool, rfl, hswap⟩ := h
  rw [step, hswap]
  exact Function.update_self ..

/-- Nothing else changes the pool of a router. -/
theorem router_step_of_not_swaps (h : ¬e.Swaps protocol) :
    (s.step ha e).router protocol = s.router protocol := by
  cases e with
  | reload path =>
    rw [step]
    split
    · rename_i swapped pool hswap
      refine Function.update_of_ne ?_ _ _
      rintro rfl
      exact h ⟨path, pool, rfl, hswap⟩
    · rfl
  | checkPrimary protocol ok now nowMs => cases protocol <;> rfl
  | _ => rfl

/-- Where a run leads: everybody holds what it held, and a router has the pool it had, or, if there was a
swap, one that did not exist before. -/
theorem foldl_step (ha : BackendProtocol → HaConfig) (s : Process) (protocol : BackendProtocol)
    (events : List ProcessEvent) :
    (events.foldl (step ha) s).captured = s.captured ∧ s.pools.length ≤ (events.foldl (step ha) s).pools.length ∧
      ((∀ e ∈ events, ¬e.Swaps protocol) → (events.foldl (step ha) s).router protocol = s.router protocol) ∧
      ((∃ e ∈ events, e.Swaps protocol) → s.pools.length ≤ (events.foldl (step ha) s).router protocol) := by
  induction events using List.reverseRecOn with
  | nil => exact ⟨rfl, Nat.le_refl _, fun _ => rfl, fun h => absurd h (by simp)⟩
  | append_singleton events e ih =>
    obtain ⟨hcaptured, hlength, hkeeps, hswaps⟩ := ih
    rw [List.foldl_append, List.foldl_cons, List.foldl_nil]
    refine ⟨step_captured.trans hcaptured, hlength.trans length_step, fun hnone => ?_, fun hsome => ?_⟩
    · rw [router_step_of_not_swaps (hnone e (by simp))]
      exact hkeeps fun e' he' => hnone e' (List.mem_append_left _ he')
    · by_cases he : e.Swaps protocol
      · rw [router_step_of_swaps he]
        exact hlength
      · rw [router_step_of_not_swaps he]
        obtain ⟨e', he', hswap⟩ := hsome
        rcases List.mem_append.mp he' with he' | he'
        · exact hswaps ⟨e', he', hswap⟩
        · obtain rfl := List.mem_singleton.mp he'
          exact absurd hswap he

/-- At start-up everybody holds the pool of its router, one of the first two. -/
theorem captured_start (mysql pgsql : Backends) (h : Holder) :
    (start mysql pgsql).captured h = (start mysql pgsql).router h.protocol ∧
      (start mysql pgsql).captured h < (start mysql pgsql).pools.length := by
  refine ⟨rfl, ?_⟩
  change (if h.protocol = .mysql then 0 else 1) < 2
  split <;> decide

/-- **When health state follows routing**: exactly as long as no reload has swapped the pool of somebody
who is running and keeps the one from start-up. -/
theorem followsRouting_iff (ha : BackendProtocol → HaConfig) (running : Holder → Bool) (mysql pgsql : Backends)
    (events : List ProcessEvent) :
    (events.foldl (step ha) (start mysql pgsql)).FollowsRouting running ↔
      ∀ h, running h = true → h.captures = true → ∀ e ∈ events, ¬e.Swaps h.protocol := by
  constructor
  · intro hfollows h hrunning hcaptures e he hswaps
    obtain ⟨hcaptured, -, -, hnew⟩ :=
      foldl_step ha (start mysql pgsql) h.protocol events
    obtain ⟨-, hlt⟩ := captured_start mysql pgsql h
    have heq := hfollows h hrunning
    rw [holds, if_pos hcaptures, hcaptured] at heq
    exact absurd (hnew ⟨e, he, hswaps⟩) (Nat.not_le.mpr (heq ▸ hlt))
  · intro hnone h hrunning
    rw [holds]
    split
    · rename_i hcaptures
      obtain ⟨hcaptured, -, hkeeps, -⟩ :=
        foldl_step ha (start mysql pgsql) h.protocol events
      rw [hcaptured, hkeeps (hnone h hrunning hcaptures)]
      exact (captured_start mysql pgsql h).1
    · rfl

/-- One replica; the first failed check promotes it. -/
def oneCheck : BackendProtocol → HaConfig := fun _ => ⟨1, 1, 0, 1⟩

/-- The backends are reloaded without any change, and then the primary goes down. -/
def reloadedThenDown : Process :=
  [.reload (.reloadBackends (some ⟨1, 5, 30000⟩)), .checkPrimary .mysql false 100 0].foldl (step oneCheck)
    (start ⟨1, 5, 30000⟩ ⟨1, 5, 30000⟩)

/-- The replica is promoted in a pool that is not routed to any more. -/
theorem promoted_aside :
    ¬reloadedThenDown.FollowsRouting (fun _ => true) ∧
      (reloadedThenDown.pools[reloadedThenDown.holds .healthChecker]?).map (·.failoverIdx) = some 0 ∧
      (reloadedThenDown.pools[reloadedThenDown.router .mysql]?).map (·.failoverIdx) = some (-1) := by
  refine ⟨fun h => ?_, by decide +kernel, by decide +kernel⟩
  exact absurd (h .healthChecker rfl) (by decide +kernel)

end Process

end TurbineProxy

import Mathlib.Data.List.MinMax
import TurbineProxy.Breaker
import TurbineProxy.Text

/-!
# Failover: who writes the health state of a pool

The part of `BackendPool` that health checks write, and what writes it: `check_primary` of `health.rs`
and of `pg_health.rs`, each with its own `trigger_failover`, and the failover actions of the dashboard.
A check is given its outcome and the clock it reads.
-/

namespace TurbineProxy

/-!
## The state

The fields of the pool that the health checkers and the dashboard read and write, each of them an atomic in the source.
-/

/-- `BackendHealth` -/
structure BackendHealth where
  /-- reachable and within the lag limit -/
  healthy : Bool
  /-- last measured lag -/
  lagMs : Nat
  /-- failed checks since the last success -/
  consecutiveFailures : Nat
  deriving DecidableEq

/-- `BackendHealth::new` -/
def BackendHealth.new (initialHealthy : Bool) : BackendHealth := ⟨initialHealthy, 0, 0⟩

/-- What the health checks of a `BackendPool` read and write. -/
structure HaPool where
  /-- `primary_health` -/
  primaryHealth : BackendHealth
  /-- `replica_health` -/
  replicaHealth : List BackendHealth
  /-- `failover_idx`: the replica that acts as the primary, or -1 -/
  failoverIdx : Int
  /-- `gr_primary_idx`: the replica that group replication has elected, or -1 -/
  grPrimaryIdx : Int
  /-- `failover_events_total` -/
  failoverEventsTotal : Nat
  /-- `failover_flap_total` -/
  failoverFlapTotal : Nat
  /-- `recovery_checks`: consecutive successful primary checks since last failure -/
  recoveryChecks : Nat
  /-- `failover_triggered_at`, in seconds, 0 = never -/
  failoverTriggeredAt : Nat
  /-- `primary_breaker` -/
  primaryBreaker : CircuitBreaker
  deriving DecidableEq

/-- `BackendPool::with_options`, for a number of replicas. -/
def HaPool.new (replicas cbThreshold cbRecoveryMs : Nat) : HaPool where
  primaryHealth := .new true
  replicaHealth := List.replicate replicas (.new true)
  failoverIdx := -1
  grPrimaryIdx := -1
  failoverEventsTotal := 0
  failoverFlapTotal := 0
  recoveryChecks := 0
  failoverTriggeredAt := 0
  primaryBreaker := .new cbThreshold cbRecoveryMs

/-- `failover_active` -/
def HaPool.failoverActive (pool : HaPool) : Prop := 0 ≤ pool.failoverIdx

instance (pool : HaPool) : Decidable pool.failoverActive := inferInstanceAs (Decidable (0 ≤ _))

/-- What a checker is configured with, as far as `check_primary` reads it. -/
structure HaConfig where
  /-- `replica_configs.len()` -/
  replicaConfigs : Nat
  /-- `failover_threshold` -/
  failoverThreshold : Nat
  /-- `cooldown_secs` -/
  cooldownSecs : Nat
  /-- `min_recovery_checks` -/
  minRecoveryChecks : Nat
  deriving DecidableEq

variable (ha : HaConfig) (pool : HaPool)

/-- What both functions `trigger_failover` record before they choose: a flap, if the checker triggers again within the
cooldown window, the time, and a fresh recovery counter. The window is a machine word, twice the configured seconds. -/
def HaPool.noteTrigger (now : Nat) : HaPool :=
  { pool with
    failoverFlapTotal :=
      if 0 < pool.failoverTriggeredAt ∧ 0 < ha.cooldownSecs ∧
          now - pool.failoverTriggeredAt < ha.cooldownSecs * 2 % 2 ^ 64 then
        usizeSucc pool.failoverFlapTotal
      else pool.failoverFlapTotal
    failoverTriggeredAt := now
    recoveryChecks := 0 }

/-! ## `health.rs` -/

namespace HealthChecker

/-- The healthy replica with the lowest lag, the first of them. Indexing panics unless there is a
health record for every configured replica. -/
def best : Option (Option Nat) :=
  if pool.replicaHealth.length < ha.replicaConfigs then none
  else
    some (((List.range ha.replicaConfigs).filter fun i => pool.replicaHealth[i]?.any (·.healthy)).argmin
      fun i => pool.replicaHealth[i]?.elim 0 (·.lagMs))

/-- What its `trigger_failover` records first. -/
def noteTrigger (now : Nat) : HaPool := HaPool.noteTrigger ha pool now

/-- `trigger_failover` -/
def triggerFailover (now : Nat) : HaPool :=
  let pool := noteTrigger ha pool now
  match best ha pool with
  | some (some idx) =>
    { pool with failoverIdx := idx, failoverEventsTotal := usizeSucc pool.failoverEventsTotal }
  | some none => pool
  -- the panic ends the task; what was stored stays
  | none => pool

/-- `check_primary` -/
def checkPrimary (ok : Bool) (now : Nat) : HaPool :=
  if ok then
    let prevFailures := pool.primaryHealth.consecutiveFailures
    let wasDown := !pool.primaryHealth.healthy
    let pool := { pool with
      primaryHealth := { pool.primaryHealth with consecutiveFailures := 0, healthy := true } }
    if 0 ≤ pool.failoverIdx then
      let recoveryCount := usizeSucc pool.recoveryChecks
      let pool := { pool with recoveryChecks := recoveryCount }
      if recoveryCount < ha.minRecoveryChecks then pool
      else if 0 < pool.failoverTriggeredAt ∧ 0 < ha.cooldownSecs ∧
          now - pool.failoverTriggeredAt < ha.cooldownSecs then pool
      else { pool with failoverIdx := -1, recoveryChecks := 0, failoverTriggeredAt := 0 }
    else if wasDown ∨ ha.failoverThreshold ≤ prevFailures then { pool with recoveryChecks := 0 }
    else pool
  else
    let failures := u32Succ pool.primaryHealth.consecutiveFailures
    let pool := { pool with
      primaryHealth := { pool.primaryHealth with consecutiveFailures := failures, healthy := false } }
    if ha.failoverThreshold ≤ failures ∧ pool.failoverIdx < 0 then triggerFailover ha pool now
    else pool

end HealthChecker

/-! ## `pg_health.rs` -/

namespace PgHealthChecker

/-- The healthy replica with the lowest lag; replicas without a health record are skipped. -/
def best : Option Nat :=
  ((List.range ha.replicaConfigs).filter fun i =>
      if i < pool.replicaHealth.length then pool.replicaHealth[i]?.any (·.healthy) else false).argmin
    fun i => if i < pool.replicaHealth.length then pool.replicaHealth[i]?.elim 0 (·.lagMs) else 2 ^ 64 - 1

/-- What its `trigger_failover` records first. -/
def noteTrigger (now : Nat) : HaPool := HaPool.noteTrigger ha pool now

/-- `trigger_failover` -/
def triggerFailover (now : Nat) : HaPool :=
  let pool := noteTrigger ha pool now
  match best ha pool with
  | some idx =>
    { pool with failoverIdx := idx, failoverEventsTotal := usizeSucc pool.failoverEventsTotal }
  | none => pool

/-- `check_primary`; it drives the primary breaker as well, at time `nowMs`. -/
def checkPrimary (ok : Bool) (now nowMs : Nat) : HaPool :=
  if ok then
    let pool := { pool with primaryBreaker := pool.primaryBreaker.recordSuccess }
    let prev := pool.primaryHealth.consecutiveFailures
    let wasDown := !pool.primaryHealth.healthy
    let pool := { pool with
      primaryHealth := { pool.primaryHealth with consecutiveFailures := 0, healthy := true } }
    if 0 ≤ pool.failoverIdx then
      let recoveryCount := usizeSucc pool.recoveryChecks
      let pool := { pool with recoveryChecks := recoveryCount }
      if recoveryCount < ha.minRecoveryChecks then pool
      else if 0 < pool.failoverTriggeredAt ∧ 0 < ha.cooldownSecs ∧
          now - pool.failoverTriggeredAt < ha.cooldownSecs then pool
      else { pool with failoverIdx := -1, recoveryChecks := 0, failoverTriggeredAt := 0 }
    else if wasDown ∨ ha.failoverThreshold ≤ prev then { pool with recoveryChecks := 0 }
    else pool
  else
    let pool := { pool with primaryBreaker := pool.primaryBreaker.recordFailure nowMs }
    let failures := u32Succ pool.primaryHealth.consecutiveFailures
    let pool := { pool with
      primaryHealth := { pool.primaryHealth with consecutiveFailures := failures, healthy := false } }
    if ha.failoverThreshold ≤ failures ∧ pool.failoverIdx < 0 then triggerFailover ha pool now
    else pool

end PgHealthChecker

/-! ## The dashboard -/

namespace ClusterAction

/-- `trigger_failover` of `cluster_action` -/
def triggerFailover (force : Bool) : Except Str HaPool :=
  if !force && pool.primaryHealth.healthy then
    .error "primary is currently healthy — set force:true to override".toList
  else
    let candidate := ((List.range pool.replicaHealth.length).filter fun i =>
        pool.replicaHealth[i]?.any (·.healthy)).argmin fun i => pool.replicaHealth[i]?.elim 0 (·.lagMs)
    match candidate with
    | some idx => .ok { pool with failoverIdx := idx }
    | none => .error "no healthy replica available for failover".toList

/-- `clear_failover` -/
def clearFailover : HaPool := { pool with failoverIdx := -1 }

/-- A fresh health record after a probe. -/
def recheck (health : BackendHealth) (ok : Bool) : BackendHealth :=
  if ok then { health with healthy := true, consecutiveFailures := 0 }
  else { health with healthy := false, consecutiveFailures := u32Succ health.consecutiveFailures }

/-- `recheck_pool_health`, on the outcomes of its probes. -/
def recheckPoolHealth (primaryOk : Bool) (replicasOk : Nat → Bool) : HaPool :=
  { pool with
    primaryHealth := recheck pool.primaryHealth primaryOk
    replicaHealth := pool.replicaHealth.mapIdx fun i health => recheck health (replicasOk i) }

end ClusterAction

end TurbineProxy

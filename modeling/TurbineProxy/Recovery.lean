import TurbineProxy.Failover
import TurbineProxy.Threads

/-!
# Recovery from a failover

The two checkers are one automaton (`checkers_agree`), so what a check can do is said once, in
`CheckStep`, and holds of both.

`Guarded` is the property of a history: whenever a check cleared the failover by itself, enough
consecutive checks had succeeded since the failover became active or a check failed, and it had been
active for the cooldown. `guarded_of_careful` says under which condition on the steps it holds.
-/

namespace TurbineProxy

/-! ## The two checkers agree -/

/-- What is minimal depends on the values of the members only. -/
theorem argmin_congr {α β : Type} [LinearOrder β] {f g : α → β} {l : List α} (h : ∀ a ∈ l, f a = g a) :
    l.argmin f = l.argmin g := by
  induction l using List.reverseRecOn with
  | nil => rfl
  | append_singleton l a ih =>
    have hl : ∀ b ∈ l, f b = g b := fun b hb => h b (List.mem_append_left _ hb)
    have ha : f a = g a := h a (List.mem_append_right _ List.mem_cons_self)
    rw [List.argmin_concat, List.argmin_concat, ih hl]
    rcases hm : l.argmin g with _ | m
    · rfl
    · have hmem : m ∈ l := List.argmin_mem hm
      dsimp only
      rw [ha, hl m hmem]

section Agreement

variable {ha : HaConfig} {pool : HaPool}

/-- With one health record for each configured replica, both choose the same one. -/
theorem best_eq (h : pool.replicaHealth.length = ha.replicaConfigs) :
    HealthChecker.best ha pool = some (PgHealthChecker.best ha pool) := by
  have hlt : ∀ i ∈ List.range ha.replicaConfigs, i < pool.replicaHealth.length :=
    fun i hi => h ▸ List.mem_range.mp hi
  unfold HealthChecker.best PgHealthChecker.best
  rw [if_neg (h ▸ Nat.lt_irrefl _)]
  congr 1
  rw [List.filter_congr fun i hi => (if_pos (hlt i hi)).symm]
  refine argmin_congr fun i hi => ?_
  rw [if_pos (hlt i (List.mem_of_mem_filter hi))]

/-- Both promote in the same way; the breaker has no part in it. -/
theorem triggerFailover_eq (pool : HaPool) (b : CircuitBreaker) (now : Nat)
    (h : pool.replicaHealth.length = ha.replicaConfigs) :
    { PgHealthChecker.triggerFailover ha { pool with primaryBreaker := b } now with
        primaryBreaker := pool.primaryBreaker } = HealthChecker.triggerFailover ha pool now := by
  have hbest : HealthChecker.best ha (HealthChecker.noteTrigger ha pool now) =
      some (PgHealthChecker.best ha (PgHealthChecker.noteTrigger ha { pool with primaryBreaker := b } now)) :=
    best_eq h
  unfold PgHealthChecker.triggerFailover HealthChecker.triggerFailover
  dsimp only
  rw [hbest]
  cases PgHealthChecker.best ha (PgHealthChecker.noteTrigger ha { pool with primaryBreaker := b } now) <;> rfl

/-- Both do the same after a successful check, whatever the health records are. -/
theorem passed_eq (now nowMs : Nat) :
    { PgHealthChecker.checkPrimary ha pool true now nowMs with primaryBreaker := pool.primaryBreaker } =
      HealthChecker.checkPrimary ha pool true now := by
  unfold PgHealthChecker.checkPrimary HealthChecker.checkPrimary
  by_cases hactive : 0 ≤ pool.failoverIdx
  · simp only [if_true, if_pos hactive]
    -- it is held by the counter, held by the cooldown, or cleared
    by_cases hcount : usizeSucc pool.recoveryChecks < ha.minRecoveryChecks
    · simp only [if_pos hcount]
    · by_cases hcooldown : 0 < pool.failoverTriggeredAt ∧ 0 < ha.cooldownSecs ∧
        now - pool.failoverTriggeredAt < ha.cooldownSecs
      · simp only [if_neg hcount, if_pos hcooldown]
      · simp only [if_neg hcount, if_neg hcooldown]
  · simp only [if_true, if_neg hactive]
    by_cases hdown : (!pool.primaryHealth.healthy) = true ∨
      ha.failoverThreshold ≤ pool.primaryHealth.consecutiveFailures
    · simp only [if_pos hdown]
    · simp only [if_neg hdown]

/-- **The two checkers agree** on the next state of the pool; the PostgreSQL one also drives the primary
breaker. -/
theorem checkers_agree (ha : HaConfig) (pool : HaPool) (ok : Bool) (now nowMs : Nat)
    (h : pool.replicaHealth.length = ha.replicaConfigs) :
    { PgHealthChecker.checkPrimary ha pool ok now nowMs with primaryBreaker := pool.primaryBreaker } =
      HealthChecker.checkPrimary ha pool ok now := by
  cases ok with
  | true => exact passed_eq now nowMs
  | false =>
    unfold PgHealthChecker.checkPrimary HealthChecker.checkPrimary
    by_cases htrigger : ha.failoverThreshold ≤ u32Succ pool.primaryHealth.consecutiveFailures ∧
      pool.failoverIdx < 0
    · simp only [Bool.false_eq_true, if_false, if_pos htrigger]
      exact triggerFailover_eq { pool with primaryHealth :=
        ⟨false, pool.primaryHealth.lagMs, u32Succ pool.primaryHealth.consecutiveFailures⟩ } _ now h
    · simp only [Bool.false_eq_true, if_false, if_neg htrigger]

/-- A pool with two healthy replicas whose primary has just begun to fail. -/
def failingPool : HaPool := { HaPool.new 2 5 30000 with primaryHealth := ⟨false, 0, 2⟩ }

theorem checkers_agree_promotion :
    { PgHealthChecker.checkPrimary ⟨2, 3, 30, 3⟩ failingPool false 100 100000 with
        primaryBreaker := failingPool.primaryBreaker } =
      HealthChecker.checkPrimary ⟨2, 3, 30, 3⟩ failingPool false 100 :=
  checkers_agree _ _ _ _ _ rfl

end Agreement

/-!
## What a check can do

A check holds, counts, activates or clears a failover; every invariant about runs is proved of these few cases.
-/

/-- Which of the two checkers. -/
inductive Checker : Type where
  /-- `HealthChecker` -/
  | mysql
  /-- `PgHealthChecker` -/
  | postgres

/-- `check_primary`; the clock is read in seconds, and in milliseconds by the breaker. -/
def Checker.checkPrimary (checker : Checker) (ha : HaConfig) (pool : HaPool) (ok : Bool)
    (now nowMs : Nat) : HaPool :=
  match checker with
  | .mysql => HealthChecker.checkPrimary ha pool ok now
  | .postgres => PgHealthChecker.checkPrimary ha pool ok now nowMs

/-- Everything a check can do to a failover. -/
inductive CheckStep (ha : HaConfig) (pool : HaPool) (ok : Bool) (now : Nat) (pool' : HaPool) : Prop where
  /-- no failover is active, nor becomes active -/
  | idle : pool.failoverIdx < 0 → pool'.failoverIdx = pool.failoverIdx → CheckStep ha pool ok now pool'
  /-- a failed check leaves an active failover alone -/
  | failed : ok = false → 0 ≤ pool.failoverIdx → pool'.failoverIdx = pool.failoverIdx →
      pool'.recoveryChecks = pool.recoveryChecks →
      pool'.failoverTriggeredAt = pool.failoverTriggeredAt → CheckStep ha pool ok now pool'
  /-- a failed check triggers a failover -/
  | triggered : ok = false → pool.failoverIdx < 0 → 0 ≤ pool'.failoverIdx → pool'.recoveryChecks = 0 →
      pool'.failoverTriggeredAt = now → CheckStep ha pool ok now pool'
  /-- a successful check is counted -/
  | held : ok = true → 0 ≤ pool.failoverIdx → pool'.failoverIdx = pool.failoverIdx →
      pool'.recoveryChecks = usizeSucc pool.recoveryChecks →
      pool'.failoverTriggeredAt = pool.failoverTriggeredAt → CheckStep ha pool ok now pool'
  /-- a successful check clears the failover -/
  | cleared : ok = true → 0 ≤ pool.failoverIdx → pool'.failoverIdx = -1 →
      ha.minRecoveryChecks ≤ usizeSucc pool.recoveryChecks →
      (0 < pool.failoverTriggeredAt → 0 < ha.cooldownSecs →
        ha.cooldownSecs ≤ now - pool.failoverTriggeredAt) → CheckStep ha pool ok now pool'

section CheckStep

variable {ha : HaConfig} {pool : HaPool}

/-- What a check that passes does is one of the steps that a check can take. -/
theorem checkStep_passed (now : Nat) :
    CheckStep ha pool true now (HealthChecker.checkPrimary ha pool true now) := by
  rw [HealthChecker.checkPrimary]
  rw [if_pos rfl]
  dsimp only
  by_cases hactive : 0 ≤ pool.failoverIdx
  · rw [if_pos hactive]
    split
    · exact .held rfl hactive rfl rfl rfl
    · rename_i hcount
      split
      · exact .held rfl hactive rfl rfl rfl
      · rename_i hcooldown
        refine .cleared rfl hactive rfl (Nat.le_of_not_lt hcount) fun htriggered hpos => ?_
        exact Nat.le_of_not_lt fun hlt => hcooldown ⟨htriggered, hpos, hlt⟩
  · rw [if_neg hactive]
    split <;> exact .idle (Int.not_le.mp hactive) rfl

/-- A failed check, on what its promotion leaves. -/
theorem checkStep_failed {now failures : Nat} {health : BackendHealth} {breaker : CircuitBreaker}
    {promoted : HaPool} (hpromoted : promoted.recoveryChecks = 0 ∧ promoted.failoverTriggeredAt = now ∧
      (promoted.failoverIdx = pool.failoverIdx ∨ 0 ≤ promoted.failoverIdx)) :
    CheckStep ha pool false now
      (if ha.failoverThreshold ≤ failures ∧ pool.failoverIdx < 0 then promoted
        else { pool with primaryHealth := health, primaryBreaker := breaker }) := by
  split
  · rename_i htrigger
    obtain ⟨hzero, hnow, hsame | hactive⟩ := hpromoted
    · exact .idle htrigger.2 hsame
    · exact .triggered rfl htrigger.2 hactive hzero hnow
  · rcases Int.lt_or_le pool.failoverIdx 0 with hidle | hactive
    · exact .idle hidle rfl
    · exact .failed rfl hactive rfl rfl rfl

/-- Whatever a checker does is one of these steps. -/
theorem Checker.checkStep (checker : Checker) (ok : Bool) (now nowMs : Nat) :
    CheckStep ha pool ok now (checker.checkPrimary ha pool ok now nowMs) := by
  cases ok with
  | true =>
    cases checker with
    | mysql => exact checkStep_passed now
    | postgres =>
      have hstep : CheckStep ha pool true now _ := (passed_eq now nowMs).symm ▸ checkStep_passed now
      cases hstep with
      | idle h₁ h₂ => exact .idle h₁ h₂
      | failed h => cases h
      | triggered h => cases h
      | held h₁ h₂ h₃ h₄ h₅ => exact .held h₁ h₂ h₃ h₄ h₅
      | cleared h₁ h₂ h₃ h₄ h₅ => exact .cleared h₁ h₂ h₃ h₄ h₅
  | false =>
    cases checker with
    | mysql =>
      refine checkStep_failed ?_
      rw [HealthChecker.triggerFailover]
      dsimp only
      split
      · exact ⟨rfl, rfl, .inr (Int.natCast_nonneg _)⟩
      · exact ⟨rfl, rfl, .inl rfl⟩
      · exact ⟨rfl, rfl, .inl rfl⟩
    | postgres =>
      refine checkStep_failed ?_
      rw [PgHealthChecker.triggerFailover]
      dsimp only
      split
      · exact ⟨rfl, rfl, .inr (Int.natCast_nonneg _)⟩
      · exact ⟨rfl, rfl, .inl rfl⟩

end CheckStep

/-! ## Histories -/

/-- What happens to a failover. -/
inductive HaMark : Type where
  /-- a primary check succeeded -/
  | passed
  /-- a primary check failed -/
  | failed
  /-- a failover became active -/
  | activated (now : Nat)
  /-- a check cleared the failover -/
  | cleared (now : Nat)
  deriving DecidableEq

/-- Successful checks since the failover became active or a check failed. -/
def streak : List HaMark → Nat
  | .passed :: older => streak older + 1
  | .cleared _ :: older => streak older
  | .failed :: _ | .activated _ :: _ | [] => 0

/-- When the failover became active. -/
def activeSince : List HaMark → Option Nat
  | .activated now :: _ => some now
  | _ :: older => activeSince older
  | [] => none

/-- Whenever a check cleared the failover, enough consecutive checks had succeeded and the cooldown was
over. -/
def Guarded (ha : HaConfig) : List HaMark → Prop
  | [] => True
  | .cleared now :: older =>
    (ha.minRecoveryChecks ≤ streak older ∧
      ∃ since, activeSince older = some since ∧ ha.cooldownSecs ≤ now - since) ∧ Guarded ha older
  | _ :: older => Guarded ha older

/-- A pool, with what happened to its failover, the latest first. -/
structure HaWorld where
  /-- the pool -/
  pool : HaPool
  /-- what happened -/
  log : List HaMark

/-- What is done to a pool. -/
inductive HaEvent : Type where
  /-- `check_primary` -/
  | check (ok : Bool) (now nowMs : Nat)
  /-- `check_replica`: whatever it finds -/
  | checkReplica (i : Nat) (health : BackendHealth)
  /-- `trigger_failover` of the dashboard -/
  | trigger (force : Bool) (now : Nat)
  /-- `clear_failover` of the dashboard -/
  | clear
  /-- `recheck_health` of the dashboard -/
  | recheck (primaryOk : Bool) (replicasOk : Nat → Bool)

/-- The mark of a failover that becomes active. -/
def activation (pool pool' : HaPool) (now : Nat) : List HaMark :=
  if pool.failoverIdx < 0 ∧ 0 ≤ pool'.failoverIdx then [.activated now] else []

/-- The mark of a failover that is cleared. -/
def clearance (pool pool' : HaPool) (now : Nat) : List HaMark :=
  if 0 ≤ pool.failoverIdx ∧ pool'.failoverIdx < 0 then [.cleared now] else []

/-- Perform an event with one of the two checkers, and note what it did to the failover. -/
def HaWorld.step (checker : Checker) (ha : HaConfig) (w : HaWorld) : HaEvent → Option HaWorld
  | .check ok now nowMs =>
    let pool' := checker.checkPrimary ha w.pool ok now nowMs
    some ⟨pool', clearance w.pool pool' now ++ activation w.pool pool' now ++
      (if ok then .passed else .failed) :: w.log⟩
  | .checkReplica i health =>
    some { w with pool := { w.pool with replicaHealth := w.pool.replicaHealth.set i health } }
  | .trigger force now =>
    match ClusterAction.triggerFailover w.pool force with
    | .ok pool' => some ⟨pool', activation w.pool pool' now ++ w.log⟩
    | .error _ => some w
  | .clear => some { w with pool := ClusterAction.clearFailover w.pool }
  | .recheck primaryOk replicasOk =>
    some { w with pool := ClusterAction.recheckPoolHealth w.pool primaryOk replicasOk }

/-- At start-up. -/
def HaWorld.start (replicas cbThreshold cbRecoveryMs : Nat) : HaWorld :=
  ⟨.new replicas cbThreshold cbRecoveryMs, []⟩

/-- No check fails once successes have been counted, and the dashboard does not promote a replica with
successes counted or, when there is a cooldown, without a time that it runs from. -/
def HaWorld.Careful (ha : HaConfig) (w : HaWorld) : HaEvent → Prop
  | .check ok now _ => ok = false →
    (0 ≤ w.pool.failoverIdx → w.pool.recoveryChecks = 0 ∨ ha.minRecoveryChecks ≤ 1) ∧
      (w.pool.failoverIdx < 0 → ha.cooldownSecs = 0 ∨ 0 < now)
  | .trigger _ now => w.pool.failoverIdx < 0 →
    (w.pool.recoveryChecks = 0 ∨ ha.minRecoveryChecks ≤ 1) ∧
      (ha.cooldownSecs = 0 ∨ 0 < w.pool.failoverTriggeredAt ∧ now ≤ w.pool.failoverTriggeredAt)
  | _ => True

instance (ha : HaConfig) (w : HaWorld) : (e : HaEvent) → Decidable (w.Careful ha e)
  | .check ok now _ => inferInstanceAs (Decidable (ok = false →
    (0 ≤ w.pool.failoverIdx → w.pool.recoveryChecks = 0 ∨ ha.minRecoveryChecks ≤ 1) ∧
      (w.pool.failoverIdx < 0 → ha.cooldownSecs = 0 ∨ 0 < now)))
  | .trigger _ now => inferInstanceAs (Decidable (w.pool.failoverIdx < 0 →
    (w.pool.recoveryChecks = 0 ∨ ha.minRecoveryChecks ≤ 1) ∧
      (ha.cooldownSecs = 0 ∨ 0 < w.pool.failoverTriggeredAt ∧ now ≤ w.pool.failoverTriggeredAt)))
  | .checkReplica .. | .clear | .recheck .. => .isTrue trivial

/-! ## Whole runs -/

/-- While a failover is active, what the pool remembers of it is true. -/
structure Watched (ha : HaConfig) (w : HaWorld) : Prop where
  /-- what was cleared -/
  guarded : Guarded ha w.log
  /-- the counter -/
  counted : 0 ≤ w.pool.failoverIdx →
    w.pool.recoveryChecks ≤ streak w.log ∨ ha.minRecoveryChecks ≤ 1
  /-- the time -/
  timed : 0 ≤ w.pool.failoverIdx → ∃ since, activeSince w.log = some since ∧
    (ha.cooldownSecs = 0 ∨ 0 < w.pool.failoverTriggeredAt ∧ since ≤ w.pool.failoverTriggeredAt)

section Runs

variable {checker : Checker} {ha : HaConfig} {w w' : HaWorld} {pool' : HaPool} {now : Nat}

theorem activation_of_active (h : 0 ≤ w.pool.failoverIdx) : activation w.pool pool' now = [] :=
  if_neg fun hidle => Int.not_lt.mpr h hidle.1

theorem activation_of_idle (h : pool'.failoverIdx < 0) : activation w.pool pool' now = [] :=
  if_neg fun hactive => Int.not_lt.mpr hactive.2 h

theorem clearance_of_idle (h : w.pool.failoverIdx < 0) : clearance w.pool pool' now = [] :=
  if_neg fun hactive => Int.not_lt.mpr hactive.1 h

theorem clearance_of_active (h : 0 ≤ pool'.failoverIdx) : clearance w.pool pool' now = [] :=
  if_neg fun hidle => Int.not_lt.mpr h hidle.2

theorem usizeSucc_le (n : Nat) : usizeSucc n ≤ n + 1 := Nat.mod_le _ _

/-- With no failover active, there is nothing to remember. -/
theorem watched_of_idle {log : List HaMark} (hlog : Guarded ha log) (hidle : pool'.failoverIdx < 0) :
    Watched ha ⟨pool', log⟩ :=
  ⟨hlog, fun h => absurd hidle (Int.not_lt.mpr h), fun h => absurd hidle (Int.not_lt.mpr h)⟩

/-- A check keeps the account. -/
theorem Watched.check {ok : Bool} {nowMs : Nat} (h : Watched ha w) (hok : w.Careful ha (.check ok now nowMs))
    (hstep : w.step checker ha (.check ok now nowMs) = some w') : Watched ha w' := by
  obtain rfl := Option.some.inj hstep
  have hmark : Guarded ha ((if ok then HaMark.passed else .failed) :: w.log) := by
    cases ok <;> exact h.guarded
  generalize hpool : checker.checkPrimary ha w.pool ok now nowMs = pool'
  have hcheck : CheckStep ha w.pool ok now pool' := hpool ▸ checker.checkStep ok now nowMs
  cases hcheck with
  | idle hidle hsame =>
    rw [clearance_of_idle hidle, activation_of_idle (hsame ▸ hidle)]
    exact watched_of_idle hmark (hsame ▸ hidle)
  | failed hfailed hactive hsame hchecks htime =>
    rw [clearance_of_active (hsame ▸ hactive), activation_of_active hactive]
    refine ⟨hmark, fun _ => ?_, fun _ => ?_⟩
    · rw [hchecks]
      exact ((hok hfailed).1 hactive).imp (fun hzero => hzero.trans_le (Nat.zero_le _)) id
    · rw [hfailed, htime]
      exact h.timed hactive
  | triggered hfailed hidle hactive hchecks htime =>
    rw [clearance_of_idle hidle, activation, if_pos ⟨hidle, hactive⟩]
    refine ⟨hmark, fun _ => .inl (hchecks ▸ Nat.zero_le _), fun _ => ⟨now, rfl, ?_⟩⟩
    rw [htime]
    exact ((hok hfailed).2 hidle).imp id fun hpos => ⟨hpos, Nat.le_refl now⟩
  | held hpassed hactive hsame hchecks htime =>
    rw [clearance_of_active (hsame ▸ hactive), activation_of_active hactive, hpassed]
    refine ⟨h.guarded, fun _ => ?_, fun _ => ?_⟩
    · rw [hchecks]
      exact (h.counted hactive).imp (fun hle => (usizeSucc_le _).trans (Nat.succ_le_succ hle)) id
    · rw [htime]
      exact h.timed hactive
  | cleared hpassed hactive hnone hchecks hcooldown =>
    have hidle : pool'.failoverIdx < 0 := hnone ▸ Int.negSucc_lt_zero 0
    rw [activation_of_idle hidle, clearance, if_pos ⟨hactive, hidle⟩, hpassed]
    refine watched_of_idle ⟨⟨?_, ?_⟩, h.guarded⟩ hidle
    · change ha.minRecoveryChecks ≤ streak w.log + 1
      rcases h.counted hactive with hle | hone
      · exact hchecks.trans ((usizeSucc_le _).trans (Nat.succ_le_succ hle))
      · exact hone.trans (Nat.le_add_left 1 _)
    · obtain ⟨since, hsince, htime⟩ := h.timed hactive
      refine ⟨since, hsince, ?_⟩
      rcases htime with hzero | ⟨hpos, hle⟩
      · exact hzero ▸ Nat.zero_le _
      · rcases Nat.eq_zero_or_pos ha.cooldownSecs with hzero | hcooled
        · exact hzero ▸ Nat.zero_le _
        · exact (hcooldown hpos hcooled).trans (Nat.sub_le_sub_left hle now)

/-- The dashboard sets the index and nothing else. -/
theorem triggerFailover_eq_ok {pool : HaPool} {force : Bool}
    (h : ClusterAction.triggerFailover pool force = .ok pool') :
    ∃ idx : Nat, pool' = { pool with failoverIdx := idx } := by
  rw [ClusterAction.triggerFailover] at h
  split at h
  · cases h
  · dsimp only at h
    split at h
    · exact ⟨_, (Except.ok.inj h).symm⟩
    · cases h

/-- So does a promotion by the dashboard. -/
theorem Watched.trigger {force : Bool} (h : Watched ha w) (hok : w.Careful ha (.trigger force now))
    (hstep : w.step checker ha (.trigger force now) = some w') : Watched ha w' := by
  rw [HaWorld.step] at hstep
  split at hstep
  · rename_i pool' htrigger
    obtain rfl := Option.some.inj hstep
    obtain ⟨idx, hpool⟩ := triggerFailover_eq_ok htrigger
    rcases Int.lt_or_le w.pool.failoverIdx 0 with hidle | hactive
    · have hnow : 0 ≤ pool'.failoverIdx := hpool ▸ Int.natCast_nonneg idx
      rw [activation, if_pos ⟨hidle, hnow⟩]
      obtain ⟨hchecks, htime⟩ := hok hidle
      refine ⟨h.guarded, fun _ => ?_, fun _ => ⟨now, rfl, ?_⟩⟩
      · rw [hpool]
        exact hchecks.imp (fun hzero => hzero.trans_le (Nat.zero_le _)) id
      · rw [hpool]
        exact htime
    · rw [activation_of_active hactive, hpool]
      exact ⟨h.guarded, fun _ => h.counted hactive, fun _ => h.timed hactive⟩
  · obtain rfl := Option.some.inj hstep
    exact h

/-- **Recovery guard**: along every run in which each step is careful, a check clears a failover only
after enough consecutive successes and the cooldown. -/
theorem guarded_of_careful {replicas cbThreshold cbRecoveryMs : Nat} {events : List HaEvent}
    (h : Steps (HaWorld.step checker ha) (HaWorld.Careful ha) (.start replicas cbThreshold cbRecoveryMs)
      events w) : Guarded ha w.log := by
  have hstart : Watched ha (.start replicas cbThreshold cbRecoveryMs) :=
    watched_of_idle trivial (Int.negSucc_lt_zero 0)
  refine (h.induct (P := Watched ha) (fun w e w' hw hok hstep => ?_) hstart).guarded
  cases e with
  | check ok now nowMs => exact hw.check hok hstep
  | trigger force now => exact hw.trigger hok hstep
  | checkReplica i health =>
    obtain rfl := Option.some.inj hstep
    exact ⟨hw.guarded, hw.counted, hw.timed⟩
  | clear =>
    obtain rfl := Option.some.inj hstep
    exact watched_of_idle hw.guarded (Int.negSucc_lt_zero 0)
  | recheck primaryOk replicasOk =>
    obtain rfl := Option.some.inj hstep
    exact ⟨hw.guarded, hw.counted, hw.timed⟩

end Runs

/-! ## Runs -/

/-- One replica; one failed check promotes it, two successful ones and half a minute clear it. -/
def twoChecks : HaConfig := ⟨1, 1, 30, 2⟩

/-- The primary fails once and then recovers. -/
def steadyRecovery : List HaEvent := [.check false 100 0, .check true 115 0, .check true 130 0]

theorem guarded_of_careful_steadyRecovery : ∃ w, run (HaWorld.step .mysql twoChecks) (.start 1 5 30000)
    steadyRecovery = some w ∧ Guarded twoChecks w.log := by
  obtain ⟨w, hw⟩ := Option.isSome_iff_exists.mp (show (run (fun w e => if decide (w.Careful twoChecks e) then
    HaWorld.step .mysql twoChecks w e else none) (.start 1 5 30000) steadyRecovery).isSome = true by
      decide +kernel)
  have hsteps := steps_of_checked (fun _ _ h => of_decide_eq_true h) hw
  exact ⟨w, hsteps.run, guarded_of_careful hsteps⟩

/-- It fails again between its two successes. -/
def flapping : List HaEvent :=
  [.check false 100 0, .check true 110 0, .check false 120 0, .check true 130 0]

/-- The dashboard promotes the replica. -/
def promotedByHand : List HaEvent := [.trigger true 100, .check true 101 0, .check true 102 0]

/-- The flapping primary gets its role back after a single success, and a promotion by hand does not
last for the cooldown. -/
theorem cleared_early :
    (∃ w, run (HaWorld.step .mysql twoChecks) (.start 1 5 30000) flapping = some w ∧
      w.log = [.cleared 130, .passed, .failed, .passed, .activated 100, .failed] ∧
      ¬Guarded twoChecks w.log) ∧
    (∃ w, run (HaWorld.step .mysql twoChecks) (.start 1 5 30000) promotedByHand = some w ∧
      w.log = [.cleared 102, .passed, .passed, .activated 100] ∧ ¬Guarded twoChecks w.log) := by
  have hflapping : (run (HaWorld.step .mysql twoChecks) (.start 1 5 30000) flapping).map (·.log) =
      some [.cleared 130, .passed, .failed, .passed, .activated 100, .failed] := by decide +kernel
  have hpromoted : (run (HaWorld.step .mysql twoChecks) (.start 1 5 30000) promotedByHand).map (·.log) =
      some [.cleared 102, .passed, .passed, .activated 100] := by decide +kernel
  constructor
  · obtain ⟨w, hw, hlog⟩ := Option.map_eq_some_iff.mp hflapping
    refine ⟨w, hw, hlog, fun h => ?_⟩
    rw [hlog] at h
    exact absurd h.1.1 (by decide)
  · obtain ⟨w, hw, hlog⟩ := Option.map_eq_some_iff.mp hpromoted
    refine ⟨w, hw, hlog, fun h => ?_⟩
    rw [hlog] at h
    obtain ⟨⟨-, since, hsince, hcooldown⟩, -⟩ := h
    obtain rfl := Option.some.inj hsince
    exact absurd hcooldown (by decide)

end TurbineProxy

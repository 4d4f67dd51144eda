import TurbineProxy.FailoverChoice

/-!
# Counting flaps

A flap is a failover that becomes active less than two cooldowns after the one before it, and
`failover_flap_total` is to count them. `trigger_failover` measures from the time it last stored, which a
clear erases and which every attempt renews, also one that finds no replica to promote.

The history notes these unmet attempts. While no failover is active, what `failover_triggered_at` holds is
the time of the last one since the last clear (`Timed`). `flaps_counted` says in which runs the count
comes out right.
-/

namespace TurbineProxy

/-- A failover became active less than two cooldowns ago. -/
def lately (ha : HaConfig) (now : Nat) (log : List HaMark) : Bool :=
  (activeSince log).any (now - · < 2 * ha.cooldownSecs)

/-- The failovers that became active less than two cooldowns after the one before. -/
def flaps (ha : HaConfig) : List HaMark → Nat
  | [] => 0
  | .activated now :: older => flaps ha older + if lately ha now older then 1 else 0
  | _ :: older => flaps ha older

/-- A failed check now makes an attempt at a failover. -/
def HaPool.Attempts (ha : HaConfig) (pool : HaPool) : Prop :=
  ha.failoverThreshold ≤ u32Succ pool.primaryHealth.consecutiveFailures ∧ pool.failoverIdx < 0

instance (ha : HaConfig) (pool : HaPool) : Decidable (pool.Attempts ha) := inferInstanceAs (Decidable (_ ∧ _))

/-- A pool, with what happened to its failover and the last attempt since the last clear that found no
healthy replica. -/
structure FlapWorld where
  /-- the pool, and what happened -/
  world : HaWorld
  /-- when that attempt was made -/
  unmet : Option Nat

/-- Note whether an attempt was unmet, and that a clear ends the account. -/
def FlapWorld.noteUnmet (ha : HaConfig) (w : FlapWorld) (pool' : HaPool) : HealthEvent → Option Nat
  | .checkPrimary false now => if w.world.pool.Attempts ha ∧ pool'.failoverIdx < 0 then some now else w.unmet
  | .checkPrimary true _ => if 0 ≤ w.world.pool.failoverIdx ∧ pool'.failoverIdx < 0 then none else w.unmet
  | .checkReplica .. | .poll _ => w.unmet

/-- Perform a check, and note whether an attempt found nobody to fail over to. -/
def FlapWorld.watch (cfg : HealthSetup) (w : FlapWorld) (e : HealthEvent) : Option FlapWorld :=
  (w.world.watch cfg e).map fun world => ⟨world, w.noteUnmet cfg.ha world.pool e⟩

/-- At start-up. -/
def FlapWorld.start (replicas cbThreshold cbRecoveryMs : Nat) : FlapWorld :=
  ⟨.start replicas cbThreshold cbRecoveryMs, none⟩

/-- An attempt less than two cooldowns ago found no healthy replica, and there was no clear since. An
attempt in the first second of 1970 does not count. -/
def FlapWorld.Unmet (ha : HaConfig) (w : FlapWorld) (now : Nat) : Prop :=
  0 < w.unmet.getD 0 ∧ now - w.unmet.getD 0 < 2 * ha.cooldownSecs

instance (ha : HaConfig) (w : FlapWorld) (now : Nat) : Decidable (w.Unmet ha now) :=
  inferInstanceAs (Decidable (_ ∧ _))

/-- An attempt soon after an unmet one finds a healthy replica and comes soon after a failover became
active; and a failover that becomes active soon after another comes soon after an unmet attempt. -/
def FlapWorld.OnTime (ha : HaConfig) (w : FlapWorld) : HealthEvent → Prop
  | .checkPrimary ok now => ok = false → w.world.pool.Attempts ha →
    (w.Unmet ha now → w.world.pool.replicaHealth.any (·.healthy) = true ∧ lately ha now w.world.log = true) ∧
    (w.world.pool.replicaHealth.any (·.healthy) = true → lately ha now w.world.log = true → w.Unmet ha now)
  | _ => True

instance (ha : HaConfig) (w : FlapWorld) : (e : HealthEvent) → Decidable (w.OnTime ha e)
  | .checkPrimary ok now => inferInstanceAs (Decidable (ok = false → w.world.pool.Attempts ha →
    (w.Unmet ha now → w.world.pool.replicaHealth.any (·.healthy) = true ∧ lately ha now w.world.log = true) ∧
    (w.world.pool.replicaHealth.any (·.healthy) = true → lately ha now w.world.log = true → w.Unmet ha now)))
  | .checkReplica .. | .poll _ => .isTrue trivial

/-- A failed check is noted. -/
def HaPool.noteFailure (pool : HaPool) : HaPool :=
  { pool with primaryHealth := { pool.primaryHealth with
      consecutiveFailures := u32Succ pool.primaryHealth.consecutiveFailures, healthy := false } }

section Count

variable {cfg : HealthSetup} {ha : HaConfig} {w w' : FlapWorld} {pool : HaPool} {now : Nat}

theorem checkPrimary_failed (ha : HaConfig) (pool : HaPool) (now : Nat) :
    HealthChecker.checkPrimary ha pool false now =
      if pool.Attempts ha then HealthChecker.triggerFailover ha pool.noteFailure now
      else pool.noteFailure := rfl

/-- A success does not touch the counter. It leaves the index and the time alone where no failover is
active; where one is, it stays active, or it is cleared and the time with it. -/
theorem passed_spec (ha : HaConfig) (pool : HaPool) (now : Nat) :
    (HealthChecker.checkPrimary ha pool true now).failoverFlapTotal = pool.failoverFlapTotal ∧
      if 0 ≤ pool.failoverIdx then
        (HealthChecker.checkPrimary ha pool true now).failoverIdx = pool.failoverIdx ∨
          (HealthChecker.checkPrimary ha pool true now).failoverIdx = -1 ∧
            (HealthChecker.checkPrimary ha pool true now).failoverTriggeredAt = 0
      else (HealthChecker.checkPrimary ha pool true now).failoverIdx = pool.failoverIdx ∧
        (HealthChecker.checkPrimary ha pool true now).failoverTriggeredAt = pool.failoverTriggeredAt := by
  rw [HealthChecker.checkPrimary]
  dsimp only
  rw [if_pos rfl]
  by_cases hactive : 0 ≤ pool.failoverIdx
  · rw [if_pos hactive, if_pos hactive]
    split
    · exact ⟨rfl, .inl rfl⟩
    · split
      · exact ⟨rfl, .inl rfl⟩
      · exact ⟨rfl, .inr ⟨rfl, rfl⟩⟩
  · rw [if_neg hactive, if_neg hactive]
    split <;> exact ⟨rfl, rfl, rfl⟩

/-- An attempt stores its time, and counts a flap by the time that was stored before it. It promotes a
replica if one is healthy. -/
theorem attempt_spec (hrecords : pool.replicaHealth.length = ha.replicaConfigs) (now : Nat) :
    (HealthChecker.triggerFailover ha pool.noteFailure now).failoverTriggeredAt = now ∧
    (HealthChecker.triggerFailover ha pool.noteFailure now).failoverFlapTotal =
      (if 0 < pool.failoverTriggeredAt ∧ 0 < ha.cooldownSecs ∧
          now - pool.failoverTriggeredAt < ha.cooldownSecs * 2 % 2 ^ 64 then
        usizeSucc pool.failoverFlapTotal else pool.failoverFlapTotal) ∧
    if pool.replicaHealth.any (·.healthy) then
      0 ≤ (HealthChecker.triggerFailover ha pool.noteFailure now).failoverIdx
    else (HealthChecker.triggerFailover ha pool.noteFailure now).failoverIdx = pool.failoverIdx := by
  have hbest : HealthChecker.best ha (HealthChecker.noteTrigger ha pool.noteFailure now) = some none ↔
      pool.replicaHealth.any (·.healthy) = false := best_eq_none_iff hrecords
  unfold HealthChecker.triggerFailover
  dsimp only
  split
  · rename_i idx hidx
    refine ⟨rfl, rfl, ?_⟩
    rw [hidx] at hbest
    rw [if_pos (by simpa using hbest)]
    exact Int.natCast_nonneg idx
  · rename_i hnone
    exact ⟨rfl, rfl, by rw [if_neg (by rw [hbest.mp hnone]; exact Bool.false_ne_true)]; rfl⟩
  · rename_i hpanic
    -- there is a record for every replica
    exact absurd hrecords.symm.le (by
      rw [HealthChecker.best] at hpanic
      split at hpanic
      · rename_i hlt
        exact Nat.not_le.mpr hlt
      · cases hpanic)

/-- A failover that is cleared is no flap by that. -/
theorem flaps_clearance (pool pool' : HaPool) (log : List HaMark) :
    flaps ha (clearance pool pool' now ++ log) = flaps ha log := by
  rw [clearance]
  split <;> rfl

/-- While no failover is active, the time that is stored is that of the last unmet attempt, 0 without one. -/
def Timed (w : FlapWorld) : Prop :=
  w.world.pool.failoverIdx < 0 → w.world.pool.failoverTriggeredAt = w.unmet.getD 0

/-- The counter is the number of flaps, as a machine word. -/
def Counted (ha : HaConfig) (w : FlapWorld) : Prop :=
  w.world.pool.failoverFlapTotal = flaps ha w.world.log % 2 ^ 64

theorem usizeSucc_mod (n : Nat) : usizeSucc (n % 2 ^ 64) = (n + 1) % 2 ^ 64 := Nat.mod_add_mod n _ 1

/-- What the history of flaps becomes with a check: a promotion may be one. -/
theorem flaps_check {ok : Bool} (w : HaWorld) (pool' : HaPool) :
    flaps ha (clearance w.pool pool' now ++ activation w.pool pool' now ++
        (if ok then HaMark.passed else .failed) :: w.log) =
      flaps ha w.log +
        if w.pool.failoverIdx < 0 ∧ 0 ≤ pool'.failoverIdx ∧ lately ha now w.log = true then 1 else 0 := by
  have hmark : flaps ha ((if ok then HaMark.passed else .failed) :: w.log) = flaps ha w.log := by
    cases ok <;> rfl
  have hlately : lately ha now ((if ok then HaMark.passed else .failed) :: w.log) = lately ha now w.log := by
    cases ok <;> rfl
  rw [List.append_assoc, flaps_clearance, activation]
  by_cases hactive : w.pool.failoverIdx < 0 ∧ 0 ≤ pool'.failoverIdx
  · rw [if_pos hactive]
    change flaps ha (_ :: w.log) + (if lately ha now (_ :: w.log) = true then 1 else 0) = _
    rw [hmark, hlately]
    simp only [hactive, true_and]
  · rw [if_neg hactive, List.nil_append, hmark, if_neg fun h => hactive ⟨h.1, h.2.1⟩]
    rfl

/-- The test that the code makes is about the last unmet attempt. -/
theorem Timed.unmet_iff (h : Timed w) (hidle : w.world.pool.failoverIdx < 0)
    (hfits : 2 * ha.cooldownSecs < 2 ^ 64) (now : Nat) :
    (0 < w.world.pool.failoverTriggeredAt ∧ 0 < ha.cooldownSecs ∧
      now - w.world.pool.failoverTriggeredAt < ha.cooldownSecs * 2 % 2 ^ 64) ↔ w.Unmet ha now := by
  rw [FlapWorld.Unmet, h hidle, Nat.mul_comm ha.cooldownSecs 2, Nat.mod_eq_of_lt hfits]
  constructor
  · rintro ⟨hpos, -, hsoon⟩
    exact ⟨hpos, hsoon⟩
  · rintro ⟨hpos, hsoon⟩
    exact ⟨hpos, by omega, hsoon⟩

/-- A check of the primary keeps the count right, if it is on time, and the time as well. -/
theorem Counted.check {ok : Bool} (h : Counted ha w) (htimed : Timed w) (htracked : Tracked ha w.world)
    (hfits : 2 * ha.cooldownSecs < 2 ^ 64) (hok : w.OnTime ha (.checkPrimary ok now))
    {world : HaWorld} (hstep : w.world.step .mysql ha (.check ok now 0) = some world) :
    Counted ha ⟨world, w.noteUnmet ha world.pool (.checkPrimary ok now)⟩ ∧
      Timed ⟨world, w.noteUnmet ha world.pool (.checkPrimary ok now)⟩ := by
  obtain rfl := Option.some.inj hstep
  change (HealthChecker.checkPrimary ha w.world.pool ok now).failoverFlapTotal = flaps ha
    (clearance _ (HealthChecker.checkPrimary ha w.world.pool ok now) now ++
      activation _ (HealthChecker.checkPrimary ha w.world.pool ok now) now ++ _) % 2 ^ 64 ∧
    ((HealthChecker.checkPrimary ha w.world.pool ok now).failoverIdx < 0 →
      (HealthChecker.checkPrimary ha w.world.pool ok now).failoverTriggeredAt =
        (w.noteUnmet ha (HealthChecker.checkPrimary ha w.world.pool ok now) (.checkPrimary ok now)).getD 0)
  rw [flaps_check]
  unfold Counted at h
  cases ok with
  | true =>
    obtain ⟨htotal, hspec⟩ := passed_spec ha w.world.pool now
    unfold FlapWorld.noteUnmet
    dsimp only
    by_cases hactive : 0 ≤ w.world.pool.failoverIdx
    · rw [if_pos hactive] at hspec
      refine ⟨by rw [htotal, if_neg fun hmark => Int.not_lt.mpr hactive hmark.1]; exact h, fun hidle => ?_⟩
      rw [if_pos ⟨hactive, hidle⟩]
      rcases hspec with hsame | ⟨-, hzero⟩
      · exact absurd (hsame ▸ hidle) (Int.not_lt.mpr hactive)
      · exact hzero
    · rw [if_neg hactive] at hspec
      refine ⟨?_, fun hidle => ?_⟩
      · rw [htotal, if_neg fun hmark => hactive (hspec.1 ▸ hmark.2.1)]
        exact h
      · rw [if_neg fun hmark => hactive hmark.1, hspec.2]
        exact htimed (hspec.1 ▸ hidle)
  | false =>
    rw [checkPrimary_failed]
    unfold FlapWorld.noteUnmet
    dsimp only
    by_cases hattempt : w.world.pool.Attempts ha
    · rw [if_pos hattempt]
      obtain ⟨hnow, htotal, hidx⟩ := attempt_spec htracked.records now
      obtain ⟨hunmet, hflap⟩ := hok rfl hattempt
      rw [htotal, if_congr (htimed.unmet_iff hattempt.2 hfits now) rfl rfl]
      refine ⟨?_, fun hidle => by rw [if_pos ⟨hattempt, hidle⟩, hnow]; rfl⟩
      cases hany : w.world.pool.replicaHealth.any (·.healthy) with
      | false =>
        -- no healthy replica: the attempt must not look like a flap
        rw [hany, if_neg Bool.false_ne_true] at hidx
        rw [if_neg fun hsoon => by simpa [hany] using (hunmet hsoon).1, hidx,
          if_neg fun hmark => Int.not_lt.mpr hmark.2.1 hmark.1]
        exact h
      | true =>
        rw [hany, if_pos rfl] at hidx
        have hiff : w.Unmet ha now ↔ lately ha now w.world.log = true :=
          ⟨fun hsoon => (hunmet hsoon).2, hflap hany⟩
        by_cases hlately : lately ha now w.world.log = true
        · rw [if_pos (hiff.mpr hlately), if_pos ⟨hattempt.2, hidx, hlately⟩, h, usizeSucc_mod]
        · rw [if_neg (mt hiff.mp hlately), if_neg fun hmark => hlately hmark.2.2]
          exact h
    · rw [if_neg hattempt]
      refine ⟨?_, fun hidle => ?_⟩
      · rw [if_neg fun hmark => Int.not_lt.mpr hmark.2.1 hmark.1]
        exact h
      · rw [if_neg fun hmark => hattempt hmark.1]
        exact htimed hidle

/-- **Flap detection**: the counter is the number of flaps, along every run in which the attempts are on
time. -/
theorem flaps_counted {cbThreshold cbRecoveryMs : Nat} {events : List HealthEvent}
    (hfits : 2 * cfg.ha.cooldownSecs < 2 ^ 64)
    (h : Steps (FlapWorld.watch cfg) (FlapWorld.OnTime cfg.ha)
      (.start cfg.ha.replicaConfigs cbThreshold cbRecoveryMs) events w) :
    w.world.pool.failoverFlapTotal = flaps cfg.ha w.world.log % 2 ^ 64 := by
  refine (h.induct (P := fun w => Tracked cfg.ha w.world ∧ Counted cfg.ha w ∧ Timed w)
    (fun w e w' hw hok hstep => ?_)
    ⟨tracked_start cfg.ha cbThreshold cbRecoveryMs, rfl, fun _ => rfl⟩).2.1
  obtain ⟨htracked, hcounted, htimed⟩ := hw
  obtain ⟨world, hworld, rfl⟩ := Option.map_eq_some_iff.mp hstep
  refine ⟨htracked.watch hworld, ?_⟩
  cases e with
  | checkPrimary ok now => exact hcounted.check htimed htracked hfits hok hworld
  | checkReplica i server =>
    obtain ⟨-, hworld⟩ := Option.ite_none_right_eq_some.mp hworld
    obtain ⟨health, -, rfl⟩ := Option.map_eq_some_iff.mp hworld
    exact ⟨hcounted, htimed⟩
  | poll resps =>
    obtain rfl := Option.some.inj hworld
    obtain ⟨idx, hpool⟩ := pollOnce_eq cfg.gr resps w.world.pool
    rw [hpool]
    exact ⟨hcounted, htimed⟩

end Count

/-!
## Runs

What is proved of every attempt on time is that `failover_triggered_at` is the time of the last attempt that was not
met, as long as no failover is active.
-/

/-- One replica; one failed check promotes it, one successful one clears it after ten seconds. -/
def quickChecks : HealthSetup where
  ha := ⟨1, 1, 10, 1⟩
  galeraCheck := false
  maxLagMs := 1000
  gr := ⟨"db1:3306".toList, ["db2:3306".toList]⟩

/-- After a failover and its end, an attempt finds no replica, and the next one finds it again. -/
def retriedFlap : List HealthEvent :=
  [.checkPrimary false 100, .checkPrimary true 110, .checkReplica 0 none, .checkPrimary false 112,
    .checkReplica 0 (some (statusOf (1 :: asciiBytes "0"))), .checkPrimary false 114]

theorem flaps_counted_retried : ∃ w, run (FlapWorld.watch quickChecks) (.start 1 5 30000) retriedFlap = some w ∧
    flaps quickChecks.ha w.world.log = 1 ∧
    w.world.pool.failoverFlapTotal = flaps quickChecks.ha w.world.log % 2 ^ 64 := by
  have hrun : (run (fun w e => if decide (w.OnTime quickChecks.ha e) then FlapWorld.watch quickChecks w e else none)
      (.start 1 5 30000) retriedFlap).map (fun w => flaps quickChecks.ha w.world.log) = some 1 := by decide +kernel
  obtain ⟨w, hw, hflaps⟩ := Option.map_eq_some_iff.mp hrun
  have hsteps := steps_of_checked (fun _ _ h => of_decide_eq_true h) hw
  exact ⟨w, hsteps.run, hflaps, flaps_counted (by decide) hsteps⟩

/-- The failover is cleared after ten seconds, and becomes active again after five more. -/
def clearedFlap : List HealthEvent := [.checkPrimary false 100, .checkPrimary true 110, .checkPrimary false 115]

/-- There is no replica to promote, and the primary stays away. -/
def noReplica : List HealthEvent := [.checkReplica 0 none, .checkPrimary false 100, .checkPrimary false 105]

/-- A flap after a clear is not counted, and a second attempt without a healthy replica is. -/
theorem flaps_miscounted :
    (∃ w, run (HaWorld.watch quickChecks) (.start 1 5 30000) clearedFlap = some w ∧
      flaps quickChecks.ha w.log = 1 ∧ w.pool.failoverFlapTotal = 0) ∧
    (∃ w, run (HaWorld.watch quickChecks) (.start 1 5 30000) noReplica = some w ∧
      flaps quickChecks.ha w.log = 0 ∧ w.pool.failoverFlapTotal = 1) := by
  have hcleared : (run (HaWorld.watch quickChecks) (.start 1 5 30000) clearedFlap).map (fun w =>
      (flaps quickChecks.ha w.log, w.pool.failoverFlapTotal)) = some (1, 0) := by decide +kernel
  have hnone : (run (HaWorld.watch quickChecks) (.start 1 5 30000) noReplica).map (fun w =>
      (flaps quickChecks.ha w.log, w.pool.failoverFlapTotal)) = some (0, 1) := by decide +kernel
  obtain ⟨w, hw, heq⟩ := Option.map_eq_some_iff.mp hcleared
  obtain ⟨w', hw', heq'⟩ := Option.map_eq_some_iff.mp hnone
  exact ⟨⟨w, hw, Prod.mk.inj heq⟩, ⟨w', hw', Prod.mk.inj heq'⟩⟩

end TurbineProxy

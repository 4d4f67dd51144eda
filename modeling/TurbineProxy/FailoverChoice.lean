import TurbineProxy.BackendPool
import TurbineProxy.GroupReplication
import TurbineProxy.Recovery
import TurbineProxy.ReplicaLag

/-!
# Which replica a failover chooses, and who uses it

`HealthChecker` runs its checks beside the group-replication monitor on one pool. `promotion` says what a
single check does to the failover index, in any state; `failover_sound` follows whole runs from start-up
down to the connection that `get_primary_for_database` asks for.
-/

namespace TurbineProxy

/-! ## One check -/

/-- A check that promotes: none was active, enough checks have failed, and the replica is a healthy one
with the smallest lag. -/
structure Promotion (ha : HaConfig) (pool pool' : HaPool) : Prop where
  /-- no failover was active -/
  idle : pool.failoverIdx < 0
  /-- this check has failed, and enough before it -/
  failures : ha.failoverThreshold ≤ u32Succ pool.primaryHealth.consecutiveFailures
  /-- the replica -/
  chosen : ∃ (idx : Nat) (health : BackendHealth), pool'.failoverIdx = idx ∧ idx < ha.replicaConfigs ∧
    pool.replicaHealth[idx]? = some health ∧ health.healthy = true ∧
    ∀ (i : Nat) (other : BackendHealth), i < ha.replicaConfigs → pool.replicaHealth[i]? = some other →
      other.healthy = true → health.lagMs ≤ other.lagMs

section Check

variable {ha : HaConfig} {pool : HaPool} {now : Nat}

/-- The replica that is chosen. -/
theorem best_spec {idx : Nat} (h : HealthChecker.best ha pool = some (some idx)) :
    idx < ha.replicaConfigs ∧ ∃ health, pool.replicaHealth[idx]? = some health ∧ health.healthy = true ∧
      ∀ (i : Nat) (other : BackendHealth), i < ha.replicaConfigs → pool.replicaHealth[i]? = some other →
        other.healthy = true → health.lagMs ≤ other.lagMs := by
  obtain ⟨-, h⟩ := Option.ite_none_left_eq_some.mp h
  have hargmin := Option.some.inj h
  obtain ⟨hrange, hhealthy⟩ := List.mem_filter.mp (List.argmin_mem hargmin)
  rcases hget : pool.replicaHealth[idx]? with _ | health
  · rw [hget] at hhealthy
    cases hhealthy
  rw [hget] at hhealthy
  refine ⟨List.mem_range.mp hrange, health, rfl, hhealthy, fun i other hi hother hup' => ?_⟩
  have hmem : i ∈ (List.range ha.replicaConfigs).filter fun i => pool.replicaHealth[i]?.any (·.healthy) :=
    List.mem_filter.mpr ⟨List.mem_range.mpr hi, by rw [hother]; exact hup'⟩
  have hle := List.le_of_mem_argmin hmem hargmin
  rwa [hget, hother] at hle

/-- A healthy replica is found, when there is one. -/
theorem best_eq_none_iff (h : pool.replicaHealth.length = ha.replicaConfigs) :
    HealthChecker.best ha pool = some none ↔ pool.replicaHealth.any (·.healthy) = false := by
  rw [HealthChecker.best]
  rw [if_neg (h ▸ Nat.lt_irrefl _), Option.some_inj, List.argmin_eq_none, List.filter_eq_nil_iff,
    List.any_eq_false, ← h]
  constructor
  · intro hnone health hmem
    obtain ⟨i, hi, rfl⟩ := List.mem_iff_getElem.mp hmem
    have hdown := hnone i (List.mem_range.mpr hi)
    rwa [List.getElem?_eq_getElem hi] at hdown
  · intro hnone i hi
    rw [List.getElem?_eq_getElem (List.mem_range.mp hi)]
    exact hnone _ (List.getElem_mem _)

/-- Whatever `trigger_failover` does to the index. -/
theorem triggerFailover_idx (ha : HaConfig) (pool : HaPool) (now : Nat) :
    (HealthChecker.triggerFailover ha pool now).failoverIdx = pool.failoverIdx ∨
      ∃ idx : Nat, HealthChecker.best ha (HealthChecker.noteTrigger ha pool now) = some (some idx) ∧
      (HealthChecker.triggerFailover ha pool now).failoverIdx = idx := by
  unfold HealthChecker.triggerFailover
  dsimp only
  split
  · rename_i idx hbest
    exact .inr ⟨idx, hbest, rfl⟩
  · exact .inl rfl
  · exact .inl rfl

/-- **What a check does to the index**: nothing, or it clears it after a success, or it promotes. -/
theorem promotion (ha : HaConfig) (pool : HaPool) (ok : Bool) (now : Nat) :
    (HealthChecker.checkPrimary ha pool ok now).failoverIdx = pool.failoverIdx ∨
      (ok = true ∧ (HealthChecker.checkPrimary ha pool ok now).failoverIdx = -1) ∨
      (ok = false ∧ Promotion ha pool (HealthChecker.checkPrimary ha pool ok now)) := by
  cases ok with
  | true =>
    have hpassed : CheckStep ha pool true now (HealthChecker.checkPrimary ha pool true now) :=
      checkStep_passed now
    cases hpassed with
    | idle _ hsame => exact .inl hsame
    | failed h => cases h
    | triggered h => cases h
    | held _ _ hsame => exact .inl hsame
    | cleared _ _ hnone => exact .inr (.inl ⟨rfl, hnone⟩)
  | false =>
    rw [HealthChecker.checkPrimary]
    rw [if_neg Bool.false_ne_true]
    dsimp only
    split
    · rename_i htrigger
      rcases triggerFailover_idx ha { pool with primaryHealth :=
        ⟨false, pool.primaryHealth.lagMs, u32Succ pool.primaryHealth.consecutiveFailures⟩ } now with
        hsame | ⟨idx, hbest, hidx⟩
      · exact .inl hsame
      · obtain ⟨hlt, health, hget, hup, hleast⟩ := best_spec hbest
        exact .inr (.inr ⟨rfl, htrigger.2, htrigger.1, idx, health, hidx, hlt, hget, hup, hleast⟩)
    · exact .inl rfl

/-- What a check leaves alone, and the counter of failures. -/
theorem checkPrimary_frame (ha : HaConfig) (pool : HaPool) (ok : Bool) (now : Nat) :
    (HealthChecker.checkPrimary ha pool ok now).replicaHealth = pool.replicaHealth ∧
      (HealthChecker.checkPrimary ha pool ok now).primaryHealth.consecutiveFailures =
        if ok then 0 else u32Succ pool.primaryHealth.consecutiveFailures := by
  cases ok with
  | true =>
    rw [HealthChecker.checkPrimary]
    dsimp only
    rw [if_pos rfl, if_pos rfl]
    split
    · split
      · exact ⟨rfl, rfl⟩
      · split <;> exact ⟨rfl, rfl⟩
    · split <;> exact ⟨rfl, rfl⟩
  | false =>
    rw [HealthChecker.checkPrimary]
    dsimp only
    rw [if_neg Bool.false_ne_true, if_neg Bool.false_ne_true]
    split
    · unfold HealthChecker.triggerFailover
      dsimp only
      split <;> exact ⟨rfl, rfl⟩
    · exact ⟨rfl, rfl⟩

end Check

/-! ## Runs -/

/-- What the checkers of a pool are configured with. -/
structure HealthSetup where
  /-- what `check_primary` reads -/
  ha : HaConfig
  /-- `galera_check` -/
  galeraCheck : Bool
  /-- `max_lag_ms` -/
  maxLagMs : UInt64
  /-- the group-replication monitor -/
  gr : GrChecker

/-- What the checkers of a pool do. -/
inductive HealthEvent : Type where
  /-- `check_primary`: whether it succeeds, and the clock in seconds -/
  | checkPrimary (ok : Bool) (now : Nat)
  /-- `check_replica`: what the server sends, if it can be connected to -/
  | checkReplica (i : Nat) (server : Option Bytes)
  /-- `poll_once`: what the backends return -/
  | poll (resps : List (Option StatusReply))

/-- A new health record for a replica. -/
def HaPool.setHealth (pool : HaPool) (i : Nat) (health : BackendHealth) : HaPool :=
  { pool with replicaHealth := pool.replicaHealth.set i health }

/-- Perform a check as the MySQL checker does; `none` where it would index a replica that is not there. -/
def HaWorld.watch (cfg : HealthSetup) (w : HaWorld) : HealthEvent → Option HaWorld
  | .checkPrimary ok now => w.step .mysql cfg.ha (.check ok now 0)
  | .checkReplica i server =>
    if i < cfg.ha.replicaConfigs then
      -- indexing panics where there is no record
      (w.pool.replicaHealth[i]?).map fun health =>
        { w with
          pool := w.pool.setHealth i (HealthChecker.checkReplica cfg.galeraCheck cfg.maxLagMs server health) }
    else none
  | .poll resps => some { w with pool := cfg.gr.pollOnce resps w.pool }

/-- Failed checks in a row, with no failover active. -/
def failStreak : List HaMark → Nat
  | .failed :: older => failStreak older + 1
  | .passed :: _ | .activated _ :: _ | .cleared _ :: _ | [] => 0

/-- Whenever a failover became active, enough checks had failed in a row. -/
def Earned (ha : HaConfig) : List HaMark → Prop
  | [] => True
  | .activated _ :: older => ha.failoverThreshold ≤ failStreak older ∧ Earned ha older
  | _ :: older => Earned ha older

/-- What holds of a pool and of what happened to it. -/
structure Tracked (ha : HaConfig) (w : HaWorld) : Prop where
  /-- what was promoted -/
  earned : Earned ha w.log
  /-- the counter -/
  counted : w.pool.failoverIdx < 0 → w.pool.primaryHealth.consecutiveFailures ≤ failStreak w.log
  /-- the index -/
  valid : w.pool.failoverIdx = -1 ∨ 0 ≤ w.pool.failoverIdx ∧ w.pool.failoverIdx < ha.replicaConfigs
  /-- one health record for each replica -/
  records : w.pool.replicaHealth.length = ha.replicaConfigs

section Runs

variable {cfg : HealthSetup} {ha : HaConfig} {w w' : HaWorld} {pool' : HaPool} {now : Nat}

theorem u32Succ_le (n : Nat) : u32Succ n ≤ n + 1 := Nat.mod_le _ _

/-- A check that does not change the index has no mark of its own. -/
theorem marks_of_same (h : pool'.failoverIdx = w.pool.failoverIdx) (now : Nat) :
    clearance w.pool pool' now = [] ∧ activation w.pool pool' now = [] := by
  rcases Int.lt_or_le w.pool.failoverIdx 0 with hidle | hactive
  · exact ⟨clearance_of_idle hidle, activation_of_idle (h ▸ hidle)⟩
  · exact ⟨clearance_of_active (h ▸ hactive), activation_of_active hactive⟩

/-- A check of the primary keeps the account. -/
theorem Tracked.check {ok : Bool} (h : Tracked ha w)
    (hstep : w.step .mysql ha (.check ok now 0) = some w') : Tracked ha w' := by
  obtain rfl := Option.some.inj hstep
  have hcheck := promotion ha w.pool ok now
  obtain ⟨hrecords, hfailures⟩ := checkPrimary_frame ha w.pool ok now
  change Tracked ha ⟨HealthChecker.checkPrimary ha w.pool ok now, _⟩
  generalize hpool : HealthChecker.checkPrimary ha w.pool ok now = pool' at *
  rw [Checker.checkPrimary, hpool]
  have hmark : Earned ha ((if ok then HaMark.passed else .failed) :: w.log) := by
    cases ok <;> exact h.earned
  rcases hcheck with hsame | ⟨rfl, hnone⟩ | ⟨rfl, hpromoted⟩
  · obtain ⟨hclear, hactive⟩ := marks_of_same hsame now
    rw [hclear, hactive]
    refine ⟨hmark, fun hidle => ?_, hsame ▸ h.valid, hrecords ▸ h.records⟩
    cases ok with
    | true => exact hfailures ▸ Nat.zero_le _
    | false => exact hfailures ▸ (u32Succ_le _).trans (Nat.succ_le_succ (h.counted (hsame ▸ hidle)))
  · have hidle : pool'.failoverIdx < 0 := hnone ▸ Int.negSucc_lt_zero 0
    refine ⟨?_, fun _ => hfailures ▸ Nat.zero_le _, .inl hnone, hrecords ▸ h.records⟩
    rw [activation_of_idle hidle, clearance]
    split <;> exact hmark
  · obtain ⟨idx, health, hidx, hlt, -⟩ := hpromoted.chosen
    have hactive : 0 ≤ pool'.failoverIdx := hidx ▸ Int.natCast_nonneg idx
    refine ⟨?_, fun hidle => absurd hidle (Int.not_lt.mpr hactive), .inr ⟨hactive, ?_⟩, hrecords ▸ h.records⟩
    · rw [clearance_of_active hactive, activation, if_pos ⟨hpromoted.idle, hactive⟩]
      exact ⟨hpromoted.failures.trans ((u32Succ_le _).trans (Nat.succ_le_succ (h.counted hpromoted.idle))),
        h.earned⟩
    · rw [hidx]
      exact Int.ofNat_lt.mpr hlt

/-- The monitor sets its own index only. -/
theorem pollOnce_eq (gr : GrChecker) (resps : List (Option StatusReply)) (pool : HaPool) :
    ∃ idx, gr.pollOnce resps pool = { pool with grPrimaryIdx := idx } := by
  rw [GrChecker.pollOnce]
  split
  · rw [GrChecker.applyMembers]
    split
    · exact ⟨-1, rfl⟩
    · split
      · exact ⟨_, rfl⟩
      · exact ⟨_, rfl⟩
  · exact ⟨_, rfl⟩

/-- So does every other check. -/
theorem Tracked.watch {e : HealthEvent} (h : Tracked cfg.ha w) (hstep : w.watch cfg e = some w') :
    Tracked cfg.ha w' := by
  cases e with
  | checkPrimary ok now => exact h.check hstep
  | checkReplica i server =>
    obtain ⟨-, hstep⟩ := Option.ite_none_right_eq_some.mp hstep
    obtain ⟨health, -, rfl⟩ := Option.map_eq_some_iff.mp hstep
    exact ⟨h.earned, h.counted, h.valid, List.length_set.trans h.records⟩
  | poll resps =>
    obtain rfl := Option.some.inj hstep
    obtain ⟨idx, hpool⟩ := pollOnce_eq cfg.gr resps w.pool
    rw [hpool]
    exact ⟨h.earned, h.counted, h.valid, h.records⟩

/-- At start-up. -/
theorem tracked_start (ha : HaConfig) (cbThreshold cbRecoveryMs : Nat) :
    Tracked ha (.start ha.replicaConfigs cbThreshold cbRecoveryMs) :=
  ⟨trivial, fun _ => Nat.zero_le _, .inl rfl, List.length_replicate⟩

/-- In every state that is reached. -/
theorem tracked_of_run {cbThreshold cbRecoveryMs : Nat} {events : List HealthEvent}
    (h : run (HaWorld.watch cfg) (.start cfg.ha.replicaConfigs cbThreshold cbRecoveryMs) events = some w) :
    Tracked cfg.ha w :=
  (steps_of_run h).induct (fun _ _ _ hw _ hstep => hw.watch hstep) (tracked_start cfg.ha cbThreshold cbRecoveryMs)

end Runs

/-! ## Who uses it -/

/-- The operations of a request are answered from this pool. -/
def HaPool.Answers (pool : HaPool) (answer : (o : Op) → Res o) : Prop :=
  ∀ gen, answer (.loadGr gen) = pool.grPrimaryIdx ∧ answer (.loadFailover gen) = pool.failoverIdx

/-- Nothing goes wrong, and the indices are those of this pool. -/
def HaPool.reading (pool : HaPool) : (o : Op) → Res o
  | .loadGr _ => pool.grPrimaryIdx
  | .loadFailover _ => pool.failoverIdx
  | o => atEase o

section Primary

variable {pref : PoolRef} {pool : HaPool} {answer : (o : Op) → Res o} {db : Option Str} {idx : Nat}

/-- Who is asked for a connection to the primary: the replica that group replication has elected, then the
one that the failover has chosen. -/
theorem asks_iff (hanswer : pool.Answers answer) {slot : Slot}
    (hslot : (pref.replicaAt pool.grPrimaryIdx).or (pref.replicaAt pool.failoverIdx) = some slot)
    (origin : Origin) (d : Option Str) :
    (pref.getPrimaryForDatabase db).Performs answer (· = .get origin d) ↔
      origin = pref.origin slot ∧ d = db := by
  obtain ⟨hgr, hfailover⟩ := hanswer pref.gen
  have hget : ∀ slot : Slot, (act (Op.get (pref.origin slot) db)).Performs answer
      (· = .get origin d) ↔ origin = pref.origin slot ∧ d = db := by
    intro slot
    change Op.get (pref.origin slot) db = Op.get origin d ∨ False ↔ _
    rw [or_false, Op.get.injEq]
    exact and_congr eq_comm eq_comm
  rcases hat : pref.replicaAt pool.grPrimaryIdx with _ | gr
  · rw [hat, Option.none_or] at hslot
    refine Iff.trans ?_ (hget slot)
    rw [PoolRef.getPrimaryForDatabase]
    simp only [act, Prog.perform, Prog.op_bind, Prog.done_bind, Prog.Performs, hgr, hat, hfailover, hslot,
      reduceCtorEq, false_or]
  · rw [hat, Option.some_or] at hslot
    obtain rfl := Option.some.inj hslot
    refine Iff.trans ?_ (hget gr)
    rw [PoolRef.getPrimaryForDatabase]
    simp only [act, Prog.perform, Prog.op_bind, Prog.done_bind, Prog.Performs, hgr, hat, reduceCtorEq,
      false_or]

end Primary

/-- The replica that acts as the primary: the one that group replication has elected, or else the one that
the failover has chosen. -/
def HaPool.actingPrimary (pool : HaPool) (replicas : Nat) : Nat :=
  if 0 ≤ pool.grPrimaryIdx ∧ pool.grPrimaryIdx.toNat < replicas then pool.grPrimaryIdx.toNat
  else pool.failoverIdx.toNat

/-- **Failover choice**: a check promotes after enough failures only, and then a healthy replica with the
smallest lag; the index is always -1 or that of a replica; and under a failover the connections to the
primary are asked of that replica, unless group replication has elected another one. -/
theorem failover_sound {cfg : HealthSetup} {cbThreshold cbRecoveryMs : Nat} {events : List HealthEvent}
    {w : HaWorld}
    (h : run (HaWorld.watch cfg) (.start cfg.ha.replicaConfigs cbThreshold cbRecoveryMs) events = some w) :
    (∀ (pool : HaPool) (ok : Bool) (now : Nat),
      (HealthChecker.checkPrimary cfg.ha pool ok now).failoverIdx = pool.failoverIdx ∨
        (ok = true ∧ (HealthChecker.checkPrimary cfg.ha pool ok now).failoverIdx = -1) ∨
        (ok = false ∧ Promotion cfg.ha pool (HealthChecker.checkPrimary cfg.ha pool ok now))) ∧
    Earned cfg.ha w.log ∧
    (w.pool.failoverIdx = -1 ∨ 0 ≤ w.pool.failoverIdx ∧ w.pool.failoverIdx < cfg.ha.replicaConfigs) ∧
    ∀ (pref : PoolRef) (answer : (o : Op) → Res o) (db : Option Str),
      pref.replicas.length = cfg.ha.replicaConfigs → w.pool.Answers answer → 0 ≤ w.pool.failoverIdx →
      ∀ origin d, (pref.getPrimaryForDatabase db).Performs answer (· = .get origin d) ↔
        origin = pref.origin (.replica (w.pool.actingPrimary cfg.ha.replicaConfigs)) ∧ d = db := by
  have htracked := tracked_of_run h
  refine ⟨fun pool ok now => promotion cfg.ha pool ok now, htracked.earned, htracked.valid, ?_⟩
  intro pref answer db hlength hanswer hactive
  refine asks_iff hanswer ?_
  rw [HaPool.actingPrimary]
  rw [← hlength]
  by_cases hgr : 0 ≤ w.pool.grPrimaryIdx ∧ w.pool.grPrimaryIdx.toNat < pref.replicas.length
  · rw [if_pos hgr, PoolRef.replicaAt, if_pos hgr, Option.some_or]
  · have hvalid : 0 ≤ w.pool.failoverIdx ∧ w.pool.failoverIdx.toNat < pref.replicas.length := by
      have hidx := htracked.valid
      omega
    rw [if_neg hgr, PoolRef.replicaAt, if_neg hgr, Option.none_or, PoolRef.replicaAt, if_pos hvalid]

/-! ## A cluster that elects one replica while the checks choose another -/

/-- Two replicas, one of which is elected. -/
def electedElsewhere : HealthSetup where
  ha := ⟨2, 1, 30, 3⟩
  galeraCheck := false
  maxLagMs := 1000
  gr := ⟨"db1:3307".toList, ["db2:3307".toList, "db3:3307".toList]⟩

/-- The rows that a backend reports. -/
def membersReply : Bytes :=
  wire 1 ([[5], [], [], [], [], [], [0xFE, 0, 0, 2, 0]] ++
    [["db3", "3307", "PRIMARY", "ONLINE", "8.0.36"].flatMap fun s =>
      UInt8.ofNat s.length :: asciiBytes s] ++ [[0xFE, 0, 0, 2, 0]])

/-- The third server is elected, and then the configured primary does not answer. -/
def electionAndFailure : List HealthEvent := [.poll [some ⟨membersReply, false⟩], .checkPrimary false 100]

/-- Where they end. -/
theorem run_electionAndFailure : ∃ w, run (HaWorld.watch electedElsewhere) (.start 2 5 30000)
    electionAndFailure = some w ∧ w.pool.failoverIdx = 0 ∧ w.pool.grPrimaryIdx = 1 := by
  have h : (run (HaWorld.watch electedElsewhere) (.start 2 5 30000) electionAndFailure).map
      (fun w => (w.pool.failoverIdx, w.pool.grPrimaryIdx)) = some (0, 1) := by decide +kernel
  obtain ⟨w, hw, heq⟩ := Option.map_eq_some_iff.mp h
  exact ⟨w, hw, (Prod.mk.inj heq).1, (Prod.mk.inj heq).2⟩

theorem failover_sound_elected : ∃ w, run (HaWorld.watch electedElsewhere) (.start 2 5 30000)
    electionAndFailure = some w ∧ w.pool.actingPrimary 2 = 1 ∧
    (PoolRef.getPrimaryForDatabase ⟨0, [(1, false), (1, false)]⟩ none).Performs w.pool.reading
      (· = .get ⟨0, .replica 1⟩ none) := by
  obtain ⟨w, hw, hfailover, hgr⟩ := run_electionAndFailure
  have hacting : w.pool.actingPrimary 2 = 1 := by
    rw [HaPool.actingPrimary, hgr]
    rfl
  have hsound := (failover_sound hw).2.2.2 ⟨0, [(1, false), (1, false)]⟩ w.pool.reading none rfl
    (fun _ => ⟨rfl, rfl⟩) (hfailover ▸ Int.le_refl 0) ⟨0, .replica 1⟩ none
  refine ⟨w, hw, hacting, hsound.mpr ⟨?_, rfl⟩⟩
  rw [show electedElsewhere.ha.replicaConfigs = 2 from rfl, hacting]
  rfl

/-- Under a failover it is not always the chosen replica that is asked for a connection. -/
theorem chosen_not_asked : ¬ ∀ (cfg : HealthSetup) (cbThreshold cbRecoveryMs : Nat)
    (events : List HealthEvent) (w : HaWorld),
    run (HaWorld.watch cfg) (.start cfg.ha.replicaConfigs cbThreshold cbRecoveryMs) events = some w →
    ∀ (pref : PoolRef) (answer : (o : Op) → Res o) (db : Option Str),
      pref.replicas.length = cfg.ha.replicaConfigs → w.pool.Answers answer → 0 ≤ w.pool.failoverIdx →
      ∀ origin d, (pref.getPrimaryForDatabase db).Performs answer (· = .get origin d) ↔
        origin = pref.origin (.replica w.pool.failoverIdx.toNat) ∧ d = db := by
  intro h
  obtain ⟨w, hw, hfailover, hgr⟩ := run_electionAndFailure
  have hanswer : w.pool.Answers w.pool.reading := fun _ => ⟨rfl, rfl⟩
  have hchosen := h electedElsewhere 5 30000 electionAndFailure w hw ⟨0, [(1, false), (1, false)]⟩
    w.pool.reading none rfl hanswer (hfailover ▸ Int.le_refl 0) ⟨0, .replica 1⟩ none
  have hasked : (PoolRef.getPrimaryForDatabase ⟨0, [(1, false), (1, false)]⟩ none).Performs w.pool.reading
      (· = .get ⟨0, .replica 1⟩ none) := by
    refine (asks_iff hanswer (?_ : _ = some (Slot.replica 1)) _ _).mpr ⟨rfl, rfl⟩
    rw [hgr]
    rfl
  have horigin := (hchosen.mp hasked).1
  rw [hfailover] at horigin
  cases horigin

end TurbineProxy

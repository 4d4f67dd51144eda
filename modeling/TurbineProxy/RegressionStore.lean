import Mathlib.Data.List.Forall2
import Mathlib.Order.Nat
import TurbineProxy.QueryStats

/-!
# The store of regression alerts

`proxy/regression.rs`. Ids are natural numbers: their counter does not reach `2 ^ 64`. The store is bounded: when it is
full, a new alert takes the place of the oldest one that is resolved, and is not recorded if there is none. What any
call does to the list comes down to two moves: alerts are updated where they stand (`AlertKept`), or one alert of a kind
that has no unresolved one is pushed. Either move keeps the invariant (`Inv.update`, `Inv.push`).
-/

namespace TurbineProxy

open Str

/-- `LATENCY_RATIO_THRESHOLD` -/
def latencyRatioThreshold : Float := 1.40

/-- `MIN_SAMPLES` -/
def minSamples : Nat := 10

/-- `MAX_ALERTS` -/
def maxAlerts : Nat := 200

/-- `AlertKind` -/
inductive AlertKind where
  | latencyRegression (baselineP95Us currentP95Us : Int64) (ratio : Float)
  | hotKey (exampleSql : Str) (hitCount : UInt64)
  | fullScanRisk (reason : Str) (callCount : Nat)

/-- The variants of `AlertKind`, as `matches!` tells them apart. -/
inductive AlertVariant where
  | latencyRegression | hotKey | fullScanRisk
  deriving DecidableEq

/-- The variant of an `AlertKind`. -/
def AlertKind.variant : AlertKind → AlertVariant
  | latencyRegression .. => .latencyRegression
  | hotKey .. => .hotKey
  | fullScanRisk .. => .fullScanRisk

/-- `RegressionAlert` -/
structure RegressionAlert where
  id : Nat
  fingerprint : Str
  details : AlertKind
  detectedAtMs : Int
  resolved : Bool

/-- An unresolved alert of one variant for one fingerprint. -/
def RegressionAlert.isActive (fingerprint : Str) (v : AlertVariant) (a : RegressionAlert) : Bool :=
  a.fingerprint == fingerprint && a.details.variant == v && !a.resolved

/-- `RegressionStore` -/
structure RegressionStore where
  alerts : List RegressionAlert
  baseline : UInt64 → Option UInt64
  nextId : Nat
  /-- what `alerts.remove` has returned, which the source drops -/
  evicted : List RegressionAlert

/-- `full_scan_reason` -/
def fullScanReason (fingerprint : Str) : Option Str :=
  let fp := (trimStart fingerprint).map asciiLower
  if startsWith fp "select" && contains fp " from " && !contains fp "where" && !contains fp "limit" &&
      !contains fp "dual" then
    some "SELECT without WHERE or LIMIT — potential full table scan".toList
  else if contains fp "order by rand()" || contains fp "order by random()" then
    some "ORDER BY RAND() — forces full scan for random ordering".toList
  else if contains fp " like " then
    some "LIKE pattern — verify no leading wildcard (e.g. LIKE '%value')".toList
  else none

namespace RegressionStore

/-- `RegressionStore::new` -/
def new : RegressionStore where
  alerts := []
  baseline _ := none
  nextId := 1
  evicted := []

variable (s : RegressionStore)

/-- The end of `push_alert_inner`. -/
def append (fingerprint : Str) (details : AlertKind) (nowMs : Int) : RegressionStore :=
  { s with
    alerts := s.alerts ++ [⟨s.nextId, fingerprint, details, nowMs, false⟩]
    nextId := s.nextId + 1 }

@[simp] theorem append_alerts (fingerprint : Str) (details : AlertKind) (nowMs : Int) :
    (s.append fingerprint details nowMs).alerts = s.alerts ++ [⟨s.nextId, fingerprint, details, nowMs, false⟩] := rfl

/-- `alerts.remove(pos)`, at the first alert that is resolved. -/
def evict (old : RegressionAlert) : RegressionStore :=
  { s with alerts := s.alerts.eraseP (·.resolved), evicted := s.evicted ++ [old] }

/-- `push_alert_inner` -/
def pushAlertInner (fingerprint : Str) (details : AlertKind) (nowMs : Int) : RegressionStore :=
  if maxAlerts ≤ s.alerts.length then
    match s.alerts.find? (·.resolved) with
    | some old => (s.evict old).append fingerprint details nowMs
    | none => s
  else s.append fingerprint details nowMs

/-- Replaces the first unresolved alert of one variant for one fingerprint. -/
def updateActive (fingerprint : Str) (v : AlertVariant) (f : RegressionAlert → RegressionAlert) : RegressionStore :=
  { s with alerts := s.alerts.replaceF fun a => if a.isActive fingerprint v then some (f a) else none }

/-- `report_hot_key` -/
def reportHotKey (nowMs : Int) (fingerprint exampleSql : Str) (hitCount : UInt64) : RegressionStore :=
  let details := AlertKind.hotKey (exampleSql.take 300) hitCount
  if s.alerts.any (·.isActive fingerprint .hotKey) then
    s.updateActive fingerprint .hotKey fun a => { a with details }
  else s.pushAlertInner fingerprint details nowMs

/-- The first pass of `check`: latency alerts whose fingerprint is gone. -/
def resolveAbsent (current : List QueryStats) : RegressionStore :=
  let activeFps := current.map (·.fingerprint)
  { s with alerts := s.alerts.map fun a =>
      if a.isActive a.fingerprint .latencyRegression && !activeFps.contains a.fingerprint then
        { a with resolved := true }
      else a }

/-- `*call_count = stat.count` -/
def refreshCallCount (fingerprint : Str) (count : Nat) (a : RegressionAlert) : RegressionAlert :=
  match a.details with
  | .fullScanRisk reason _ =>
    if a.fingerprint = fingerprint then { a with details := .fullScanRisk reason count } else a
  | _ => a

/-- The full scan heuristics of `check`. -/
def checkFullScan (nowMs : Int) (stat : QueryStats) : RegressionStore :=
  match fullScanReason stat.fingerprint with
  | none => s
  | some reason =>
    if s.alerts.any (·.isActive stat.fingerprint .fullScanRisk) then
      { s with alerts := s.alerts.map (refreshCallCount stat.fingerprint stat.count) }
    else s.pushAlertInner stat.fingerprint (.fullScanRisk reason stat.count) nowMs

/-- `baseline.insert` -/
def setBaseline (hash : UInt64) (p95Us : UInt64) : RegressionStore :=
  { s with baseline := fun h => if h = hash then some p95Us else s.baseline h }

/-- The comparison of `check` with a baseline. -/
def compareLatency (nowMs : Int) (stat : QueryStats) (baseP95Us currentP95Us : UInt64) : RegressionStore :=
  let ratio := currentP95Us.toFloat / baseP95Us.toFloat
  if latencyRatioThreshold ≤ ratio then
    let details := AlertKind.latencyRegression baseP95Us.toInt64 currentP95Us.toInt64 ratio
    if s.alerts.any (·.isActive stat.fingerprint .latencyRegression) then
      s.updateActive stat.fingerprint .latencyRegression fun a => { a with details, detectedAtMs := nowMs }
    else s.pushAlertInner stat.fingerprint details nowMs
  else
    { s with alerts := s.alerts.map fun a =>
        if a.isActive stat.fingerprint .latencyRegression then { a with resolved := true } else a }

/-- The latency regression of `check`. -/
def checkLatency (nowMs : Int) (stat : QueryStats) : RegressionStore :=
  if stat.count < minSamples then s.setBaseline stat.hash stat.p95Us
  else if stat.p95Us = 0 then s
  else
    let compared := match s.baseline stat.hash with
      | some base => if 0 < base then s.compareLatency nowMs stat base stat.p95Us else s
      | none => s
    compared.setBaseline stat.hash stat.p95Us

/-- `check` -/
def check (nowMs : Int) (current : List QueryStats) : RegressionStore :=
  current.foldl (fun s stat => (s.checkFullScan nowMs stat).checkLatency nowMs stat) (s.resolveAbsent current)

end RegressionStore

/-- A call of the store. -/
inductive RegressionCall where
  | check (nowMs : Int) (current : List QueryStats)
  | reportHotKey (nowMs : Int) (fingerprint exampleSql : Str) (hitCount : UInt64)

/-- What a call makes of the store. -/
def RegressionCall.apply (s : RegressionStore) : RegressionCall → RegressionStore
  | check nowMs current => s.check nowMs current
  | reportHotKey nowMs fingerprint exampleSql hitCount => s.reportHotKey nowMs fingerprint exampleSql hitCount

/-! ## Alerts that are updated where they stand -/

/-- An alert that was updated: only its details and its time differ, and it may have been resolved. -/
structure AlertKept (a b : RegressionAlert) : Prop where
  id_eq : b.id = a.id
  fingerprint_eq : b.fingerprint = a.fingerprint
  variant_eq : b.details.variant = a.details.variant
  resolved_of : a.resolved = true → b.resolved = true

theorem AlertKept.refl (a : RegressionAlert) : AlertKept a a := ⟨rfl, rfl, rfl, id⟩

/-- What is unresolved after an update was unresolved before. -/
theorem AlertKept.isActive {a b : RegressionAlert} (h : AlertKept a b) {fingerprint : Str} {v : AlertVariant}
    (hb : b.isActive fingerprint v = true) : a.isActive fingerprint v = true := by
  simp only [RegressionAlert.isActive, Bool.and_eq_true, beq_iff_eq, Bool.not_eq_true'] at hb ⊢
  refine ⟨⟨h.fingerprint_eq ▸ hb.1.1, h.variant_eq ▸ hb.1.2⟩, Bool.eq_false_iff.mpr fun ha => ?_⟩
  exact Bool.false_ne_true (hb.2.symm.trans (h.resolved_of ha))

section Updates

variable {l l' : List RegressionAlert}

theorem kept_map {f : RegressionAlert → RegressionAlert} (hf : ∀ a, AlertKept a (f a)) (l : List RegressionAlert) :
    List.Forall₂ AlertKept l (l.map f) :=
  List.forall₂_map_right_iff.mpr (List.forall₂_same.mpr fun a _ => hf a)

theorem kept_replaceF {f : RegressionAlert → Option RegressionAlert} (hf : ∀ a b, f a = some b → AlertKept a b) :
    ∀ l : List RegressionAlert, List.Forall₂ AlertKept l (l.replaceF f)
  | [] => .nil
  | a :: l => by
    rw [List.replaceF]
    cases hfa : f a with
    | none => exact .cons (.refl a) (kept_replaceF hf l)
    | some b => exact .cons (hf a b hfa) (List.forall₂_same.mpr fun a _ => .refl a)

theorem ids_of_kept (h : List.Forall₂ AlertKept l l') : l'.map (·.id) = l.map (·.id) := by
  induction h with
  | nil => rfl
  | cons hab _ ih => rw [List.map_cons, List.map_cons, hab.id_eq, ih]

theorem countP_of_kept (h : List.Forall₂ AlertKept l l') (fingerprint : Str) (v : AlertVariant) :
    l'.countP (·.isActive fingerprint v) ≤ l.countP (·.isActive fingerprint v) := by
  induction h with
  | nil => exact le_rfl
  | @cons a b _ _ hab _ ih =>
    rw [List.countP_cons, List.countP_cons]
    refine Nat.add_le_add ih ?_
    by_cases hb : b.isActive fingerprint v = true
    · rw [if_pos hb, if_pos (hab.isActive hb)]
    · rw [if_neg hb]
      exact Nat.zero_le _

end Updates

/-! ## The invariant -/

namespace RegressionStore

/-- What holds of the store between any two moves. -/
structure Inv (s : RegressionStore) : Prop where
  bounded : s.alerts.length ≤ maxAlerts
  increasing : (s.alerts.map (·.id)).Pairwise (· < ·)
  active_le : ∀ fingerprint v, s.alerts.countP (·.isActive fingerprint v) ≤ 1
  evicted_resolved : ∀ a ∈ s.evicted, a.resolved = true
  /-- every id that was given out is the id of an alert in the store or of one that was evicted -/
  ids : (s.alerts.map (·.id) ++ s.evicted.map (·.id)).Perm (List.range' 1 (s.nextId - 1))
  nextId_pos : 1 ≤ s.nextId

variable {s : RegressionStore}

theorem inv_new : Inv new :=
  ⟨Nat.zero_le _, .nil, fun _ _ => Nat.zero_le _, fun _ h => absurd h List.not_mem_nil, .nil, le_rfl⟩

/-- An id in the store was given out. -/
theorem Inv.id_lt (h : s.Inv) {a : RegressionAlert} (ha : a ∈ s.alerts) : a.id < s.nextId := by
  have hmem := h.ids.subset (List.mem_append_left _ (List.mem_map_of_mem ha))
  obtain ⟨-, hlt⟩ := List.mem_range'_1.mp hmem
  have hpos := h.nextId_pos
  omega

theorem Inv.update (h : s.Inv) {alerts : List RegressionAlert} (hkept : List.Forall₂ AlertKept s.alerts alerts) :
    Inv { s with alerts } where
  bounded := hkept.length_eq ▸ h.bounded
  increasing := ids_of_kept hkept ▸ h.increasing
  active_le fingerprint v := (countP_of_kept hkept fingerprint v).trans (h.active_le fingerprint v)
  evicted_resolved := h.evicted_resolved
  ids := ids_of_kept hkept ▸ h.ids
  nextId_pos := h.nextId_pos

theorem Inv.evict (h : s.Inv) {old : RegressionAlert} (hold : s.alerts.find? (·.resolved) = some old) :
    (s.evict old).Inv := by
  obtain ⟨hresolved, before, after, hsplit, hbefore⟩ := List.find?_eq_some_iff_append.mp hold
  have hsub : (s.alerts.eraseP (·.resolved)).Sublist s.alerts := List.eraseP_sublist
  have herase : s.alerts.eraseP (·.resolved) = before ++ after := by
    rw [hsplit, List.eraseP_append_right _ fun a ha => by simpa using hbefore a ha]
    exact congrArg _ (List.eraseP_cons_of_pos hresolved)
  refine ⟨hsub.length_le.trans h.bounded, h.increasing.sublist (hsub.map _), fun fingerprint v =>
    (hsub.countP_le ..).trans (h.active_le fingerprint v), fun a ha => ?_, ?_, h.nextId_pos⟩
  · rcases List.mem_append.mp ha with ha | ha
    · exact h.evicted_resolved a ha
    · exact List.mem_singleton.mp ha ▸ hresolved
  · refine List.Perm.trans ?_ h.ids
    have hperm : (before ++ after ++ (s.evicted ++ [old])).Perm (before ++ old :: after ++ s.evicted) := by
      rw [List.append_assoc before (old :: after), List.append_assoc before after, ← List.append_assoc after]
      exact (List.perm_append_left_iff before).mpr (List.perm_append_singleton ..)
    change ((s.alerts.eraseP (·.resolved)).map (·.id) ++ (s.evicted ++ [old]).map (·.id)).Perm _
    rw [herase, hsplit, ← List.map_append, ← List.map_append]
    exact hperm.map _

theorem Inv.append (h : s.Inv) {fingerprint : Str} {details : AlertKind} (nowMs : Int)
    (hroom : s.alerts.length < maxAlerts) (hnone : s.alerts.countP (·.isActive fingerprint details.variant) = 0) :
    (s.append fingerprint details nowMs).Inv where
  bounded := by
    rw [append_alerts, List.length_append]
    exact hroom
  increasing := by
    rw [append_alerts, List.map_append]
    refine List.pairwise_append.mpr ⟨h.increasing, List.pairwise_singleton .., fun id hid id' hid' => ?_⟩
    obtain ⟨a, ha, rfl⟩ := List.mem_map.mp hid
    rw [List.mem_singleton.mp hid']
    exact h.id_lt ha
  active_le fingerprint' v := by
    rw [append_alerts, List.countP_append, List.countP_singleton]
    split
    · rename_i hactive
      simp only [RegressionAlert.isActive, Bool.and_eq_true, beq_iff_eq] at hactive
      obtain ⟨⟨rfl, rfl⟩, -⟩ := hactive
      rw [hnone]
    · exact h.active_le fingerprint' v
  evicted_resolved := h.evicted_resolved
  ids := by
    have hpos := h.nextId_pos
    have hrange : List.range' 1 (s.nextId + 1 - 1) = List.range' 1 (s.nextId - 1) ++ [s.nextId] := by
      have hsucc : s.nextId + 1 - 1 = (s.nextId - 1) + 1 := by omega
      rw [hsucc, List.range'_concat]
      congr 2
      omega
    change ((s.append fingerprint details nowMs).alerts.map (·.id) ++ s.evicted.map (·.id)).Perm
      (List.range' 1 (s.nextId + 1 - 1))
    rw [hrange, append_alerts, List.map_append, List.append_assoc]
    refine List.Perm.trans ?_ (h.ids.append_right [s.nextId])
    rw [List.append_assoc]
    exact (List.perm_append_left_iff _).mpr (List.perm_append_singleton s.nextId _).symm
  nextId_pos := Nat.le_succ_of_le h.nextId_pos

/-- Pushing an alert of a variant that its fingerprint has no unresolved one of. -/
theorem Inv.push (h : s.Inv) {fingerprint : Str} {details : AlertKind} (nowMs : Int)
    (hnone : ¬s.alerts.any (·.isActive fingerprint details.variant) = true) :
    (s.pushAlertInner fingerprint details nowMs).Inv := by
  have hzero : s.alerts.countP (·.isActive fingerprint details.variant) = 0 :=
    List.countP_eq_zero.mpr fun a ha hactive => hnone (List.any_eq_true.mpr ⟨a, ha, hactive⟩)
  unfold pushAlertInner
  by_cases hfull : maxAlerts ≤ s.alerts.length
  · rw [if_pos hfull]
    cases hold : s.alerts.find? (·.resolved) with
    | none => exact h
    | some old =>
      have hlength : (s.alerts.eraseP (·.resolved)).length = s.alerts.length - 1 :=
        List.length_eraseP_of_mem (List.mem_of_find?_eq_some hold) (List.find?_some hold)
      have hmax : 0 < maxAlerts := by decide
      have hbounded := h.bounded
      refine (h.evict hold).append nowMs ?_ (Nat.le_zero.mp (hzero ▸ List.eraseP_sublist.countP_le ..))
      change (s.alerts.eraseP (·.resolved)).length < maxAlerts
      omega
  · rw [if_neg hfull]
    exact h.append nowMs (Nat.lt_of_not_le hfull) hzero

/-! ## The calls -/

theorem Inv.updateActive (h : s.Inv) (fingerprint : Str) (v : AlertVariant) {f : RegressionAlert → RegressionAlert}
    (hf : ∀ a, a.isActive fingerprint v = true → AlertKept a (f a)) : (s.updateActive fingerprint v f).Inv := by
  refine h.update (kept_replaceF (fun a b hab => ?_) s.alerts)
  by_cases hactive : a.isActive fingerprint v = true
  · rw [if_pos hactive] at hab
    exact Option.some.inj hab ▸ hf a hactive
  · rw [if_neg hactive] at hab
    cases hab

theorem variant_of_isActive {a : RegressionAlert} {fingerprint : Str} {v : AlertVariant}
    (h : a.isActive fingerprint v = true) : a.details.variant = v := by
  simp only [RegressionAlert.isActive, Bool.and_eq_true, beq_iff_eq] at h
  exact h.1.2

theorem Inv.reportHotKey (h : s.Inv) (nowMs : Int) (fingerprint exampleSql : Str) (hitCount : UInt64) :
    (s.reportHotKey nowMs fingerprint exampleSql hitCount).Inv := by
  unfold RegressionStore.reportHotKey
  dsimp only
  by_cases hany : s.alerts.any (·.isActive fingerprint .hotKey) = true
  · rw [if_pos hany]
    exact h.updateActive fingerprint .hotKey fun a ha => ⟨rfl, rfl, (variant_of_isActive ha).symm, id⟩
  · rw [if_neg hany]
    exact h.push nowMs hany

/-- Resolving some of the alerts. -/
theorem Inv.resolve (h : s.Inv) (p : RegressionAlert → Bool) :
    Inv { s with alerts := s.alerts.map fun a => if p a then { a with resolved := true } else a } := by
  refine h.update (kept_map (fun a => ?_) s.alerts)
  cases p a with
  | false => exact .refl a
  | true => exact ⟨rfl, rfl, rfl, fun _ => rfl⟩

theorem kept_refreshCallCount (fingerprint : Str) (count : Nat) (a : RegressionAlert) :
    AlertKept a (refreshCallCount fingerprint count a) := by
  unfold refreshCallCount
  split
  · rename_i reason _ hdetails
    split
    · exact ⟨rfl, rfl, by rw [hdetails]; rfl, id⟩
    · exact .refl a
  · exact .refl a

theorem Inv.checkFullScan (h : s.Inv) (nowMs : Int) (stat : QueryStats) : (s.checkFullScan nowMs stat).Inv := by
  unfold RegressionStore.checkFullScan
  cases fullScanReason stat.fingerprint with
  | none => exact h
  | some reason =>
    dsimp only
    by_cases hany : s.alerts.any (·.isActive stat.fingerprint .fullScanRisk) = true
    · rw [if_pos hany]
      exact h.update (kept_map (kept_refreshCallCount stat.fingerprint stat.count) s.alerts)
    · rw [if_neg hany]
      exact h.push nowMs hany

/-- The baseline plays no part in the invariant. -/
theorem Inv.setBaseline (h : s.Inv) (hash p95Us : UInt64) : (s.setBaseline hash p95Us).Inv :=
  ⟨h.bounded, h.increasing, h.active_le, h.evicted_resolved, h.ids, h.nextId_pos⟩

theorem Inv.compareLatency (h : s.Inv) (nowMs : Int) (stat : QueryStats) (baseP95Us currentP95Us : UInt64) :
    (s.compareLatency nowMs stat baseP95Us currentP95Us).Inv := by
  unfold RegressionStore.compareLatency
  dsimp only
  split
  · by_cases hany : s.alerts.any (·.isActive stat.fingerprint .latencyRegression) = true
    · rw [if_pos hany]
      exact h.updateActive _ .latencyRegression fun a ha => ⟨rfl, rfl, (variant_of_isActive ha).symm, id⟩
    · rw [if_neg hany]
      exact h.push nowMs hany
  · exact h.resolve _

theorem Inv.checkLatency (h : s.Inv) (nowMs : Int) (stat : QueryStats) : (s.checkLatency nowMs stat).Inv := by
  unfold RegressionStore.checkLatency
  split
  · exact h.setBaseline _ _
  · split
    · exact h
    · refine Inv.setBaseline ?_ _ _
      split
      · split
        · exact h.compareLatency ..
        · exact h
      · exact h

theorem Inv.check (h : s.Inv) (nowMs : Int) (current : List QueryStats) : (s.check nowMs current).Inv := by
  have hloop : ∀ (stats : List QueryStats) {s : RegressionStore}, s.Inv →
      (stats.foldl (fun s stat => (s.checkFullScan nowMs stat).checkLatency nowMs stat) s).Inv := by
    intro stats
    induction stats with
    | nil => exact id
    | cons stat stats ih => exact fun hs => ih ((hs.checkFullScan nowMs stat).checkLatency nowMs stat)
  exact hloop current (h.resolve _)

theorem Inv.apply (h : s.Inv) (call : RegressionCall) : (call.apply s).Inv := by
  cases call with
  | check nowMs current => exact h.check nowMs current
  | reportHotKey nowMs fingerprint exampleSql hitCount => exact h.reportHotKey nowMs fingerprint exampleSql hitCount

theorem Inv.run (h : s.Inv) (calls : List RegressionCall) : (calls.foldl RegressionCall.apply s).Inv := by
  induction calls generalizing s with
  | nil => exact h
  | cons call calls ih => exact ih (h.apply call)

/-- After any calls the store is bounded, its ids increase, a fingerprint has at most one unresolved alert of a kind,
and the alerts that are gone were resolved when they were evicted: the ids in the store and theirs are all the ids that
were given out. -/
theorem run_from_new (calls : List RegressionCall) :
    let s := calls.foldl RegressionCall.apply new
    s.alerts.length ≤ maxAlerts ∧ (s.alerts.map (·.id)).Pairwise (· < ·) ∧
      (∀ fingerprint v, s.alerts.countP (·.isActive fingerprint v) ≤ 1) ∧
      (∀ a ∈ s.evicted, a.resolved = true) ∧
      (s.alerts.map (·.id) ++ s.evicted.map (·.id)).Perm (List.range' 1 (s.nextId - 1)) :=
  have h := inv_new.run calls
  ⟨h.bounded, h.increasing, h.active_le, h.evicted_resolved, h.ids⟩

end RegressionStore

end TurbineProxy

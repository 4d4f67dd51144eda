import Mathlib.Algebra.Order.BigOperators.Group.List
import Mathlib.Algebra.Order.Ring.Nat
import TurbineProxy.Collector
import TurbineProxy.Spreads

/-!
# The pages of queries

`collect_query_rows` of `dashboard/routes.rs`: for `/api/queries` and `/api/slow-queries`, the rows of the storage are
read first, then the map of the collector, and what both have for a fingerprint is put together. The collector goes on
in the meantime, so the two are of different moments of a run. A time is a number of milliseconds, and the rows of a
result that are alike in what they are sorted by keep their order.
-/

namespace TurbineProxy

/-- `QueryAccum`, under its fingerprint. -/
structure QueryAccum where
  fingerprint : Str
  count : Nat
  totalUs : Nat
  minUs : Option Nat
  maxUs : Option Nat
  p95Us : Option Nat
  p99Us : Option Nat
  lastSeen : Option Int
  deriving DecidableEq

namespace QueryAccum

/-- `QueryAccum::default` -/
def default (fingerprint : Str) : QueryAccum := ⟨fingerprint, 0, 0, none, none, none, none, none⟩

/-- What `upsert_acc` adds to an entry, with `opt_min`, `opt_max` and `max_last_seen`. -/
def add (e x : QueryAccum) : QueryAccum where
  fingerprint := e.fingerprint
  count := e.count + x.count
  totalUs := e.totalUs + x.totalUs
  minUs := e.minUs.merge min x.minUs
  maxUs := e.maxUs.merge max x.maxUs
  p95Us := e.p95Us.merge max x.p95Us
  p99Us := e.p99Us.merge max x.p99Us
  lastSeen := e.lastSeen.merge max x.lastSeen

end QueryAccum

/-- `upsert_acc` -/
def upsertAcc (acc : List QueryAccum) (x : QueryAccum) : List QueryAccum :=
  Keyed.upsert (·.fingerprint) ((QueryAccum.default x.fingerprint).add x) (·.add x) acc

/-- What is added for a row of the storage. -/
def StoredQueryStats.accum (r : StoredQueryStats) : QueryAccum :=
  ⟨r.fingerprint, r.count, r.totalUs, some r.minUs, some r.maxUs, some r.p95Us, some r.p99Us, some r.lastSeen⟩

/-- What is added for an entry of the map. -/
def MeasuredStats.accum (s : MeasuredStats) : QueryAccum :=
  ⟨s.stats.fingerprint, s.stats.count, s.totalUs, some s.minUs, some s.maxUs, some (s.stats.p95 / 1000),
    some (s.stats.p99 / 1000), some s.stats.lastSeen⟩

/-- `QueryRow` -/
structure QueryRow where
  fingerprint : Str
  count : Nat
  avgUs : Nat
  minUs : Option Nat
  maxUs : Option Nat
  p95Us : Option Nat
  p99Us : Option Nat
  lastSeen : Option Int
  deriving DecidableEq

/-- The row that is shown for an entry. -/
def QueryAccum.row (a : QueryAccum) : QueryRow :=
  ⟨a.fingerprint, a.count, if 0 < a.count then a.totalUs / a.count else 0, a.minUs, a.maxUs, a.p95Us, a.p99Us,
    a.lastSeen⟩

/-- Sorted from the largest down, and no more than a limit: `get_top_measurecount`, `get_top_measurep95`, and the end of
`collect_query_rows`. -/
def top {α : Type} (key : α → Nat) (limit : Nat) (rows : List α) : List α :=
  (rows.mergeSort fun a b => decide (key b ≤ key a)).take limit

/-- `collect_query_rows`; without a storage, or if it cannot be read, there are no rows of it. -/
def collectQueryRows (byP95 : Bool) (stored : Option (List StoredQueryStats)) (live : List MeasuredStats) :
    List QueryRow :=
  let stored := top (if byP95 then (·.p95Us) else (·.count)) 200 (stored.getD [])
  let acc := (live.map MeasuredStats.accum).foldl upsertAcc ((stored.map StoredQueryStats.accum).foldl upsertAcc [])
  top (if byP95 then fun r => r.p95Us.getD 0 else (·.count)) 50 (acc.map QueryAccum.row)

/-! ## What is shown -/

section Top

variable {α : Type} {key : α → Nat} {limit : Nat} {rows : List α}

theorem top_subset : top key limit rows ⊆ rows :=
  fun _ h => List.mem_mergeSort.mp (List.mem_of_mem_take h)

/-- Within the limit, no row is left out. -/
theorem top_perm (h : rows.length ≤ limit) : (top key limit rows).Perm rows := by
  rw [top, List.take_of_length_le (by rwa [List.length_mergeSort])]
  exact List.mergeSort_perm ..

/-- What is left out is not made up for. -/
theorem sum_top_le (w : α → Nat) : ((top key limit rows).map w).sum ≤ (rows.map w).sum := by
  have hperm := (List.mergeSort_perm rows fun a b => decide (key b ≤ key a)).map w
  rw [← hperm.sum_eq]
  exact ((List.take_sublist ..).map w).sum_le_sum fun _ _ => Nat.zero_le _

end Top

namespace QueryAccum

/-- What is added first is all there is. -/
theorem default_add (x : QueryAccum) : (default x.fingerprint).add x = x := by
  obtain ⟨fingerprint, count, totalUs, minUs, maxUs, p95Us, p99Us, lastSeen⟩ := x
  simp [default, add]

theorem upsertAcc_eq (acc : List QueryAccum) (x : QueryAccum) :
    upsertAcc acc x = Keyed.upsert (·.fingerprint) x (·.add x) acc := by
  rw [upsertAcc, default_add]

end QueryAccum

/-- All that is put together. -/
def accums (byP95 : Bool) (stored : Option (List StoredQueryStats)) (live : List MeasuredStats) : List QueryAccum :=
  (top (if byP95 then (·.p95Us) else (·.count)) 200 (stored.getD [])).map StoredQueryStats.accum ++
    live.map MeasuredStats.accum

theorem collectQueryRows_eq (byP95 : Bool) (stored : Option (List StoredQueryStats)) (live : List MeasuredStats) :
    collectQueryRows byP95 stored live = top (if byP95 then fun r => r.p95Us.getD 0 else (·.count)) 50
      ((Keyed.upsertAll (·.fingerprint) (fun x a => a.add x) (accums byP95 stored live) []).map QueryAccum.row) := by
  rw [collectQueryRows, accums, Keyed.upsertAll, List.foldl_append]
  simp only [← QueryAccum.upsertAcc_eq]

/-- What a row shows was put together for its fingerprint. -/
theorem exists_accum {byP95 : Bool} {stored : Option (List StoredQueryStats)} {live : List MeasuredStats} {r : QueryRow}
    (hr : r ∈ collectQueryRows byP95 stored live) : ∃ a ∈
      Keyed.upsertAll (·.fingerprint) (fun x a => QueryAccum.add a x) (accums byP95 stored live) [], a.row = r := by
  rw [collectQueryRows_eq] at hr
  exact List.mem_map.mp (top_subset hr)

/-! ## Counts -/

namespace Collector

variable {hash : Str → UInt64} {s s₁ s₂ : Collector} {es es₁ es₂ : List CollectorStep} {byP95 : Bool}

/-- What is counted for a fingerprint. -/
def accumCount (fp : Str) (x : QueryAccum) : Nat := if x.fingerprint = fp then x.count else 0

theorem sum_accums_le (byP95 : Bool) (s₁ s₂ : Collector) (fp : Str) :
    ((accums byP95 (some s₁.rows) s₂.stats).map (accumCount fp)).sum ≤ s₁.stored fp + s₂.live fp := by
  rw [accums, List.map_append, List.sum_append, List.map_map, List.map_map, live, analytics, List.map_map]
  exact Nat.add_le_add_right (sum_top_le _) _

/-- Within the limit, all is counted. -/
theorem sum_accums (byP95 : Bool) (s₂ : Collector) (h : s₁.rows.length ≤ 200) (fp : Str) :
    ((accums byP95 (some s₁.rows) s₂.stats).map (accumCount fp)).sum = s₁.stored fp + s₂.live fp := by
  rw [accums, List.map_append, List.sum_append, List.map_map, List.map_map, live, analytics, List.map_map]
  exact congrArg (· + _) ((top_perm h).map _).sum_eq

/-- The counts that are put together, and the fingerprints. -/
theorem upsertAll_spec (xs : List QueryAccum) :
    (∀ a ∈ Keyed.upsertAll (·.fingerprint) (fun x a => QueryAccum.add a x) xs [],
      a.count = (xs.map (accumCount a.fingerprint)).sum) ∧
    ∀ fp, fp ∈ (Keyed.upsertAll (·.fingerprint) (fun x a => QueryAccum.add a x) xs []).map (·.fingerprint) ↔
      fp ∈ xs.map (·.fingerprint) := by
  have hkey : ∀ x a : QueryAccum, a.fingerprint = x.fingerprint → (a.add x).fingerprint = a.fingerprint :=
    fun _ _ _ => rfl
  have hcount : ∀ x a : QueryAccum, a.fingerprint = x.fingerprint → (a.add x).count = a.count + x.count :=
    fun _ _ _ => rfl
  exact Keyed.upsertAll_spec hkey hcount xs

/-- A row counts what was put together for its fingerprint. -/
theorem count_row {stored : Option (List StoredQueryStats)} {live : List MeasuredStats} {r : QueryRow}
    (hr : r ∈ collectQueryRows byP95 stored live) :
    r.count = ((accums byP95 stored live).map (accumCount r.fingerprint)).sum := by
  obtain ⟨a, ha, rfl⟩ := exists_accum hr
  exact (upsertAll_spec (accums byP95 stored live)).1 a ha

/-- What is not shown counts nothing, if all is shown. -/
theorem sum_of_unshown {fp : Str} (hfew : s₁.rows.length + s₂.stats.length ≤ 50)
    (hnone : ∀ r ∈ collectQueryRows byP95 (some s₁.rows) s₂.stats, r.fingerprint ≠ fp) :
    ((accums byP95 (some s₁.rows) s₂.stats).map (accumCount fp)).sum = 0 := by
  refine List.sum_eq_zero fun n hn => ?_
  obtain ⟨x, hx, rfl⟩ := List.mem_map.mp hn
  refine if_neg fun hfp => ?_
  have hkey := ((upsertAll_spec (accums byP95 (some s₁.rows) s₂.stats)).2 fp).mpr (List.mem_map.mpr ⟨x, hx, hfp⟩)
  obtain ⟨a, ha, hafp⟩ := List.mem_map.mp hkey
  have hlength : (accums byP95 (some s₁.rows) s₂.stats).length ≤ s₁.rows.length + s₂.stats.length := by
    rw [accums, List.length_append, List.length_map, List.length_map, top, List.length_take, List.length_mergeSort]
    exact Nat.add_le_add_right (Nat.min_le_right ..) _
  have hshown := Keyed.length_upsertAll_le (·.fingerprint) (fun x a => QueryAccum.add a x)
    (accums byP95 (some s₁.rows) s₂.stats) []
  rw [List.length_nil, Nat.zero_add] at hshown
  refine hnone a.row ?_ hafp
  rw [collectQueryRows_eq]
  exact (top_perm (by rw [List.length_map]; omega)).mem_iff.mpr (List.mem_map_of_mem ha)

/-- A page that is read in the course of a run, the storage in one state and the map in a later one: no row counts more
queries of its fingerprint than were recorded, less those that wait in the queue or were dropped. It counts just these
if no flush has failed, none was going on when the storage was read, the map was not drained before it was read too, and
the storage has no more rows than are read of it; then there is a row for every fingerprint that is counted, if there
are no more than are shown. -/
theorem queries_page {logLevel : Option LogLevel} {slowThreshold : Nat}
    (hrun₁ : run (step hash) (start logLevel slowThreshold) es₁ = some s₁)
    (hrun₂ : run (step hash) s₁ es₂ = some s₂)
    (htold : Analytics.ToldApart hash (recordedFingerprints (es₁ ++ es₂))) (fp : Str) :
    (∀ r ∈ collectQueryRows byP95 (some s₁.rows) s₂.stats, r.fingerprint = fp →
      r.count + s₂.queued fp + s₂.lost fp ≤ (es₁ ++ es₂).countP (isRecorded fp)) ∧
    ((∀ e ∈ es₁, Succeeds e) → s₁.inFlight = none → (∀ e ∈ es₂, e ≠ .drain) → s₁.rows.length ≤ 200 →
      (∀ r ∈ collectQueryRows byP95 (some s₁.rows) s₂.stats, r.fingerprint = fp →
        r.count + s₂.queued fp + s₂.lost fp = (es₁ ++ es₂).countP (isRecorded fp)) ∧
      (s₁.rows.length + s₂.stats.length ≤ 50 →
        (∀ r ∈ collectQueryRows byP95 (some s₁.rows) s₂.stats, r.fingerprint ≠ fp) →
        s₂.queued fp + s₂.lost fp = (es₁ ++ es₂).countP (isRecorded fp))) := by
  have hF : recordedFingerprints (es₁ ++ es₂) = recordedFingerprints es₁ ++ recordedFingerprints es₂ :=
    List.filterMap_append
  obtain ⟨h₁, hbalanced₁⟩ := (within_start htold logLevel slowThreshold).run (hF ▸ List.subset_append_left _ _) hrun₁
  obtain ⟨-, hbalanced₂⟩ := h₁.run (hF ▸ List.subset_append_right _ _) hrun₂
  have hnothing := nothing_start logLevel slowThreshold fp
  have hall := (hbalanced₁ fp).all_le
  have hahead := (hbalanced₂ fp).ahead_le
  rw [List.countP_append]
  refine ⟨fun r hr hfp => ?_, fun hok hflight hdrain hrows => ?_⟩
  · have hcount := count_row hr
    have hsum := sum_accums_le byP95 s₁ s₂ fp
    rw [hfp] at hcount
    omega
  · have hflushing : s₁.flushing fp = 0 := by
      rw [flushing, analytics, hflight]
      rfl
    have hall := (hbalanced₁ fp).all_eq hok
    have hahead := (hbalanced₂ fp).ahead_eq hdrain
    have hsum := sum_accums byP95 s₂ hrows fp
    refine ⟨fun r hr hfp => ?_, fun hfew hnone => ?_⟩
    · have hcount := count_row hr
      rw [hfp] at hcount
      omega
    · have hzero := sum_of_unshown hfew hnone
      omega

/-- A query is flushed, one more is in the map, and one waits. -/
def flushedOnce : List CollectorStep :=
  [.tryRecord ⟨"SELECT 1".toList, 5000⟩, .recv, .aggregate 0, .drain, .flush fun _ => false]

/-- What comes between the two reads. -/
def onceMore : List CollectorStep :=
  [.tryRecord ⟨"SELECT 2".toList, 7000⟩, .recv, .aggregate 1, .tryRecord ⟨"SELECT 3".toList, 9000⟩]

/-- Where the first run ends. -/
def flushed : Collector := (run (step fun _ => Analytics.hashSelect) (start none 0) flushedOnce).getD (start none 0)

theorem run_flushedOnce : run (step fun _ => Analytics.hashSelect) (start none 0) flushedOnce = some flushed := by
  decide +kernel

/-- Where the second one ends. -/
def waiting : Collector := (run (step fun _ => Analytics.hashSelect) flushed onceMore).getD flushed

theorem run_onceMore : run (step fun _ => Analytics.hashSelect) flushed onceMore = some waiting := by decide +kernel

theorem queries_page_sample :
    ∃ s₁ s₂, run (step fun _ => Analytics.hashSelect) (start none 0) flushedOnce = some s₁ ∧
      run (step fun _ => Analytics.hashSelect) s₁ onceMore = some s₂ ∧
      ∀ r ∈ collectQueryRows false (some s₁.rows) s₂.stats, r.fingerprint = "SELECT ?".toList → r.count = 2 := by
  refine ⟨_, _, run_flushedOnce, run_onceMore, fun r hr hfp => ?_⟩
  have hselect : ∀ f ∈ recordedFingerprints (flushedOnce ++ onceMore), f = "SELECT ?".toList := by decide +kernel
  have hexact := ((queries_page run_flushedOnce run_onceMore
    (fun f hf g hg _ => (hselect f hf).trans (hselect g hg).symm) "SELECT ?".toList).2
    (by simp [flushedOnce, Succeeds]) (by decide +kernel) (by simp [onceMore]) (by decide +kernel)).1 r hr hfp
  have hqueued : waiting.queued "SELECT ?".toList = 1 := by decide +kernel
  have hlost : waiting.lost "SELECT ?".toList = 0 := by decide +kernel
  have hall : (flushedOnce ++ onceMore).countP (isRecorded "SELECT ?".toList) = 3 := by decide +kernel
  omega

end Collector

/-! ## Durations -/

section Percentiles

variable {l : List Nat}

theorem percentile_mem (h : l ≠ []) (pct : Nat) : percentile l pct ∈ l := by
  have hpos := List.length_pos_of_ne_nil h
  rw [percentile, List.length_mergeSort]
  exact getD_mergeSort_mem (by omega)

theorem percentile_mono (h : l ≠ []) {pct pct' : Nat} (hle : pct ≤ pct') : percentile l pct ≤ percentile l pct' := by
  have hpos := List.length_pos_of_ne_nil h
  have hplace : l.length * pct / 100 ≤ l.length * pct' / 100 := Nat.div_le_div_right (Nat.mul_le_mul_left _ hle)
  rw [percentile, percentile, List.length_mergeSort]
  exact getD_mergeSort_le (by omega) (by omega)

end Percentiles

/-- What is kept of the executions of a query fits together. -/
structure MeasuredStats.Bounded (s : MeasuredStats) : Prop where
  spread : Spread s.stats.count s.stats.totalDuration s.stats.minDuration s.stats.maxDuration
  total_le : s.stats.totalDuration ≤ s.stats.count * s.stats.maxDuration
  spreadUs : Spread s.stats.count s.totalUs s.minUs s.maxUs
  sampled : s.stats.latencies ≠ []
  within : ∀ d ∈ s.stats.latencies, s.stats.minDuration ≤ d ∧ d ≤ s.stats.maxDuration
  withinUs : ∀ d ∈ s.stats.latencies, s.minUs ≤ d / 1000 ∧ d / 1000 ≤ s.maxUs

namespace MeasuredStats

/-- Of the first execution. -/
theorem bounded_new_record (now : Int) (hash : UInt64) (fingerprint : Str) (d : Nat) :
    ((new now hash fingerprint).record now d).Bounded where
  spread := ⟨Nat.one_pos, by simp [new, record, QueryStats.new, QueryStats.record],
    by simp [new, record, QueryStats.new, QueryStats.record]⟩
  total_le := by simp [new, record, QueryStats.new, QueryStats.record]
  spreadUs := ⟨Nat.one_pos, by simp [new, record, QueryStats.new, QueryStats.record],
    by simp [new, record, QueryStats.new, QueryStats.record]⟩
  sampled := by simp [new, record, QueryStats.new, QueryStats.record]
  within := by simp [new, record, QueryStats.new, QueryStats.record]
  withinUs := by simp [new, record, QueryStats.new, QueryStats.record]

/-- The samples after one more. -/
theorem mem_latencies_record {s : MeasuredStats} {now : Int} {d e : Nat} (h : e ∈ (s.record now d).stats.latencies) :
    e ∈ s.stats.latencies ∨ e = d := by
  rcases List.mem_append.mp h with h | h
  · split at h
    · exact .inl (List.mem_of_mem_tail h)
    · exact .inl h
  · exact .inr (List.mem_singleton.mp h)

/-- Statistics that fit together still do when one more execution is recorded. -/
theorem Bounded.record {s : MeasuredStats} (h : s.Bounded) (now : Int) (d : Nat) : (s.record now d).Bounded where
  spread := h.spread.combine (.one d)
  total_le := by
    have hold := h.total_le
    have hmax : s.stats.count * s.stats.maxDuration ≤ s.stats.count * max s.stats.maxDuration d :=
      Nat.mul_le_mul_left _ (Nat.le_max_left ..)
    have hd : d ≤ max s.stats.maxDuration d := Nat.le_max_right ..
    change s.stats.totalDuration + d ≤ (s.stats.count + 1) * max s.stats.maxDuration d
    rw [Nat.add_mul, Nat.one_mul]
    omega
  spreadUs := h.spreadUs.combine (.one (d / 1000))
  sampled := List.append_ne_nil_of_right_ne_nil _ (List.cons_ne_nil d [])
  within e he := by
    change min s.stats.minDuration d ≤ e ∧ e ≤ max s.stats.maxDuration d
    rcases mem_latencies_record he with he | rfl
    · have hold := h.within e he
      omega
    · omega
  withinUs e he := by
    change min s.minUs (d / 1000) ≤ e / 1000 ∧ e / 1000 ≤ max s.maxUs (d / 1000)
    rcases mem_latencies_record he with he | rfl
    · have hold := h.withinUs e he
      omega
    · omega

end MeasuredStats

/-- The columns of an entry fit together. -/
def QueryAccum.Sound (a : QueryAccum) : Prop :=
  ∃ m M p95 p99, a.minUs = some m ∧ a.maxUs = some M ∧ a.p95Us = some p95 ∧ a.p99Us = some p99 ∧
    Spread a.count a.totalUs m M ∧ m ≤ p95 ∧ p95 ≤ p99 ∧ p99 ≤ M

/-- What is added up fits together. -/
theorem QueryAccum.Sound.add {a x : QueryAccum} (h : a.Sound) (hx : x.Sound) : (a.add x).Sound := by
  obtain ⟨m, M, p95, p99, hm, hM, hp95, hp99, hspread, hle, hmid, hge⟩ := h
  obtain ⟨m', M', p95', p99', hm', hM', hp95', hp99', hspread', hle', hmid', hge'⟩ := hx
  refine ⟨min m m', max M M', max p95 p95', max p99 p99', ?_, ?_, ?_, ?_, hspread.combine hspread',
    by omega, by omega, by omega⟩
  · rw [QueryAccum.add, hm, hm']
    rfl
  · rw [QueryAccum.add, hM, hM']
    rfl
  · rw [QueryAccum.add, hp95, hp95']
    rfl
  · rw [QueryAccum.add, hp99, hp99']
    rfl

/-- A row that is merged with a new one fits together; it has the percentiles of the new one. -/
theorem StoredQueryStats.sound_merge {x r : StoredQueryStats} (hx : x.accum.Sound) (hr : r.accum.Sound) :
    (x.merge r).accum.Sound := by
  obtain ⟨m, M, p95, p99, hm, hM, hp95, hp99, hspread, hle, hmid, hge⟩ := hx
  obtain ⟨m', M', p95', p99', hm', hM', hp95', hp99', hspread', hle', hmid', hge'⟩ := hr
  cases hm
  cases hM
  cases hp95
  cases hp99
  cases hm'
  cases hM'
  exact ⟨_, _, _, _, rfl, rfl, rfl, rfl, hspread'.combine hspread,
    (Nat.min_le_right ..).trans hle, hmid, hge.trans (Nat.le_max_right ..)⟩

namespace MeasuredStats

variable {s : MeasuredStats}

/-- The entry that is shown. -/
theorem Bounded.accum (h : s.Bounded) : s.accum.Sound :=
  ⟨_, _, _, _, rfl, rfl, rfl, rfl, h.spreadUs, (h.withinUs _ (percentile_mem h.sampled 95)).1,
    Nat.div_le_div_right (percentile_mono h.sampled (by omega)), (h.withinUs _ (percentile_mem h.sampled 99)).2⟩

/-- The row that is flushed. -/
theorem Bounded.row (h : s.Bounded) : s.stats.row.accum.Sound :=
  ⟨_, _, _, _, rfl, rfl, rfl, rfl, h.spread.coarsen (by omega) h.total_le,
    Nat.div_le_div_right (h.within _ (percentile_mem h.sampled 95)).1,
    Nat.div_le_div_right (percentile_mono h.sampled (by omega)),
    Nat.div_le_div_right (h.within _ (percentile_mem h.sampled 99)).2⟩

end MeasuredStats

namespace Collector

variable {hash : Str → UInt64} {s s' s₁ s₂ : Collector} {e : CollectorStep} {es es₁ es₂ : List CollectorStep}

/-- All that is kept fits together. -/
structure Bounded (s : Collector) : Prop where
  stats : ∀ entry ∈ s.stats, entry.Bounded
  inFlight : ∀ stats ∈ s.inFlight, ∀ entry ∈ stats, entry.Bounded
  rows : ∀ r ∈ s.rows, r.accum.Sound

theorem bounded_start (logLevel : Option LogLevel) (slowThreshold : Nat) : (start logLevel slowThreshold).Bounded :=
  ⟨List.forall_mem_nil _, fun _ h => (by cases h), List.forall_mem_nil _⟩

/-- Whether it succeeds or not, a flush leaves rows that fit together. -/
theorem sound_flush {fails : Nat → Bool} {stats : List QueryStats} {rows : List StoredQueryStats}
    (hstats : ∀ q ∈ stats, q.row.accum.Sound) (hrows : ∀ r ∈ rows, r.accum.Sound) :
    ∀ r ∈ (AnalyticsStorage.flush fails stats rows).1, r.accum.Sound := by
  rcases flush_or fails stats rows with heq | heq
  · rw [heq]
    exact hrows
  · rw [heq, Analytics.flush_eq fun _ _ => rfl]
    have hmerge : ∀ x r : StoredQueryStats, x.accum.Sound → r.accum.Sound → r.fingerprintHash = x.fingerprintHash →
        0 = 0 + 0 ∧ (x.merge r).accum.Sound := fun _ _ hx hr _ => ⟨rfl, StoredQueryStats.sound_merge hx hr⟩
    exact (Keyed.sum_upsertAll (w := fun _ => 0) hmerge (List.forall_mem_map.mpr hstats) hrows).2

/-- Every step keeps what fits together. -/
theorem Bounded.step (h : s.Bounded) (hstep : s.step hash e = some s') : s'.Bounded := by
  cases Stepped.of_step hstep with
  | counted now event hevent =>
    exact ⟨Keyed.forall_upsert h.stats (MeasuredStats.bounded_new_record ..) fun entry hentry _ =>
      (h.stats entry hentry).record now event.duration, h.inFlight, h.rows⟩
  | drained hflight =>
    refine ⟨List.forall_mem_nil _, fun stats heq => ?_, h.rows⟩
    cases heq
    exact h.stats
  | flushed fails stats hflight =>
    have hsound : ∀ q ∈ stats.map (·.stats), q.row.accum.Sound :=
      List.forall_mem_map.mpr fun entry hentry => (h.inFlight stats hflight entry hentry).row
    exact ⟨h.stats, fun _ heq => (by cases heq), sound_flush hsound h.rows⟩
  | empty => exact h
  | queued event | dropped event | received event channel | panicked now event =>
    exact ⟨h.stats, h.inFlight, h.rows⟩

/-- A page that is read in the course of a run, whatever fails and whatever hashes are alike, and whether the storage
can be read or not: the columns of every row fit together. -/
theorem query_rows_consistent {logLevel : Option LogLevel} {slowThreshold : Nat}
    (hrun₁ : run (step hash) (start logLevel slowThreshold) es₁ = some s₁)
    (hrun₂ : run (step hash) s₁ es₂ = some s₂) (byP95 : Bool) (stored : Option (List StoredQueryStats))
    (hstored : ∀ rows ∈ stored, rows = s₁.rows) :
    ∀ r ∈ collectQueryRows byP95 stored s₂.stats, ∃ m M p95 p99, r.minUs = some m ∧ r.maxUs = some M ∧
      r.p95Us = some p95 ∧ r.p99Us = some p99 ∧ m ≤ p95 ∧ p95 ≤ p99 ∧ p99 ≤ M ∧ m ≤ r.avgUs ∧ r.avgUs ≤ M ∧
      0 < r.count := by
  have h₁ : s₁.Bounded := (steps_of_run hrun₁).induct (fun _ _ _ h _ hstep => h.step hstep) (bounded_start ..)
  have h₂ : s₂.Bounded := (steps_of_run hrun₂).induct (fun _ _ _ h _ hstep => h.step hstep) h₁
  have hrows : ∀ r ∈ stored.getD [], r.accum.Sound := by
    cases stored with
    | none => exact List.forall_mem_nil _
    | some rows => exact hstored rows rfl ▸ h₁.rows
  have haccums : ∀ x ∈ accums byP95 stored s₂.stats, x.Sound := by
    intro x hx
    rcases List.mem_append.mp hx with hx | hx
    · obtain ⟨r, hr, rfl⟩ := List.mem_map.mp hx
      exact hrows r (top_subset hr)
    · obtain ⟨entry, hentry, rfl⟩ := List.mem_map.mp hx
      exact (h₂.stats entry hentry).accum
  intro r hr
  obtain ⟨a, ha, rfl⟩ := exists_accum hr
  obtain ⟨m, M, p95, p99, hm, hM, hp95, hp99, hspread, hle, hmid, hge⟩ :=
    (Keyed.sum_upsertAll (w := fun _ => 0) (fun x b (hx : x.Sound) hb _ => ⟨rfl, hb.add hx⟩) haccums
      (List.forall_mem_nil _)).2 a ha
  have havg : a.row.avgUs = a.totalUs / a.count := if_pos hspread.pos
  exact ⟨m, M, p95, p99, hm, hM, hp95, hp99, hle, hmid, hge, havg ▸ hspread.le_avg, havg ▸ hspread.avg_le, hspread.pos⟩

/-- The row of the flushed query and of the one in the map. -/
theorem query_rows_consistent_sample :
    ∃ s₁ s₂, run (step fun _ => Analytics.hashSelect) (start none 0) flushedOnce = some s₁ ∧
      run (step fun _ => Analytics.hashSelect) s₁ onceMore = some s₂ ∧
      collectQueryRows false (some s₁.rows) s₂.stats =
        [⟨"SELECT ?".toList, 2, 6, some 5, some 7, some 7, some 7, some 1⟩] ∧
      ∀ r ∈ collectQueryRows false (some s₁.rows) s₂.stats, 0 < r.count := by
  refine ⟨_, _, run_flushedOnce, run_onceMore, by decide +kernel, fun r hr => ?_⟩
  obtain ⟨m, M, p95, p99, hall⟩ := query_rows_consistent run_flushedOnce run_onceMore false _
    (fun rows hrows => (Option.some.inj hrows).symm) r hr
  exact hall.2.2.2.2.2.2.2.2.2

end Collector

end TurbineProxy

import TurbineProxy.KeyedRows
import TurbineProxy.QueryStats
import TurbineProxy.Rules
import TurbineProxy.Sql
import TurbineProxy.Threads

/-!
# Query counts on their way to the storage

The collector counts queries in a map, `analytics_flush_loop` of `main.rs` drains it every thirty seconds and has
`AnalyticsStorage::flush` add the counts to the rows of a table. The map is empty before the outcome is known, and
nothing puts the counts back: they are conserved in the runs in which no flush fails (`counts_conserved`).

The hash of the standard library is a parameter. The map and the table are keyed by it, so two fingerprints with one
hash share a row.
-/

namespace TurbineProxy

/-- A row of `query_stats`. Durations are in microseconds; the columns that `flush` writes are never NULL. -/
structure StoredQueryStats where
  fingerprintHash : Int64
  fingerprint : Str
  count : Nat
  totalUs : Nat
  minUs : Nat
  maxUs : Nat
  p95Us : Nat
  p99Us : Nat
  lastSeen : Int
  deriving DecidableEq

/-- The parameters of the statement of `flush`. -/
def QueryStats.row (s : QueryStats) : StoredQueryStats where
  fingerprintHash := s.hash.toInt64
  fingerprint := s.fingerprint
  count := s.count
  totalUs := s.totalDuration / 1000
  minUs := s.minDuration / 1000
  maxUs := s.maxDuration / 1000
  p95Us := s.p95 / 1000
  p99Us := s.p99 / 1000
  lastSeen := s.lastSeen

/-- `ON CONFLICT(fingerprint_hash) DO UPDATE` -/
def StoredQueryStats.merge (excluded r : StoredQueryStats) : StoredQueryStats where
  fingerprintHash := r.fingerprintHash
  fingerprint := excluded.fingerprint
  count := r.count + excluded.count
  totalUs := r.totalUs + excluded.totalUs
  minUs := min r.minUs excluded.minUs
  maxUs := max r.maxUs excluded.maxUs
  p95Us := excluded.p95Us
  p99Us := excluded.p99Us
  lastSeen := excluded.lastSeen

/-- The statement of `flush`, for one entry. -/
def upsertRow (s : QueryStats) (rows : List StoredQueryStats) : List StoredQueryStats :=
  Keyed.upsert StoredQueryStats.fingerprintHash s.row s.row.merge rows

/-- `AnalyticsStorage::flush`: the rows afterwards, and whether it succeeded. `fails` are the numbers of the statements
that fail, from the one that begins the transaction to the one that commits it. -/
def AnalyticsStorage.flush (fails : Nat → Bool) (stats : List QueryStats) (rows : List StoredQueryStats) :
    List StoredQueryStats × Bool :=
  if fails 0 then (rows, false)
  else
    match Sql.exec fails 1 (stats.map fun s rows => some (upsertRow s rows)) rows with
    | (rows', true) => if fails (stats.length + 1) then (rows, false) else (rows', true)
    -- what the transaction has done is rolled back
    | (_, false) => (rows, false)

/-- The collector, the loop and the storage. -/
structure Analytics where
  /-- the map of the collector -/
  stats : List QueryStats
  /-- what the loop has drained and is flushing -/
  inFlight : Option (List QueryStats)
  /-- the table -/
  rows : List StoredQueryStats
  deriving DecidableEq

/-- What happens: the aggregation loop takes events, and the flush loop drains the map and flushes what was in it. -/
inductive AnalyticsOp where
  /-- the aggregation loop takes an event -/
  | event (now : Int) (sql : Str) (duration : Nat)
  /-- the flush loop drains the map -/
  | drain
  /-- the flush ends -/
  | flush (fails : Nat → Bool)

namespace Analytics

/-- Nothing was recorded yet. -/
def start : Analytics := ⟨[], none, []⟩

variable (hash : Str → UInt64)

/-- `map.entry(hash).or_insert_with(..).record(..)` -/
def aggregate (now : Int) (sql : Str) (duration : Nat) (map : List QueryStats) : List QueryStats :=
  let fp := fingerprint sql
  Keyed.upsert QueryStats.hash ((QueryStats.new now (hash fp) fp).record now duration) (·.record now duration) map

/-- One step. The loop waits for a flush before it drains again. -/
def step (s : Analytics) : AnalyticsOp → Option Analytics
  | .event now sql duration => some { s with stats := aggregate hash now sql duration s.stats }
  | .drain =>
    match s.inFlight with
    | some _ => none
    | none => if s.stats.isEmpty then some s else some { s with stats := [], inFlight := some s.stats }
  | .flush fails =>
    match s.inFlight with
    | none => none
    -- the error is logged, and the entries are dropped
    | some stats => some { s with inFlight := none, rows := (AnalyticsStorage.flush fails stats s.rows).1 }

/-! ## Counts -/

/-- What an entry counts for a fingerprint. -/
def entryCount (fp : Str) (s : QueryStats) : Nat := if s.fingerprint = fp then s.count else 0

/-- What a row counts for a fingerprint. -/
def rowCount (fp : Str) (r : StoredQueryStats) : Nat := if r.fingerprint = fp then r.count else 0

/-- The count of a fingerprint in the storage, in the map and in a flush in progress. -/
def total (s : Analytics) (fp : Str) : Nat :=
  (s.rows.map (rowCount fp)).sum + (s.stats.map (entryCount fp)).sum +
    ((s.inFlight.getD []).map (entryCount fp)).sum

/-- An event with a fingerprint. -/
def isEvent (fp : Str) : AnalyticsOp → Bool
  | .event _ sql _ => fingerprint sql == fp
  | _ => false

/-- The fingerprints that are counted somewhere. -/
def fingerprints (s : Analytics) : List Str :=
  s.rows.map (·.fingerprint) ++ s.stats.map (·.fingerprint) ++ (s.inFlight.getD []).map (·.fingerprint)

/-- No flush fails, and no event has the hash of another fingerprint that is counted. -/
def Undisturbed (s : Analytics) : AnalyticsOp → Prop
  | .event _ sql _ => ∀ g ∈ s.fingerprints, hash g = hash (fingerprint sql) → g = fingerprint sql
  | .drain => True
  | .flush fails => ∀ k ≤ (s.inFlight.getD []).length + 1, fails k = false

/-! ## What a step keeps -/

/-- The fingerprints are told apart by their hashes. -/
def ToldApart (F : List Str) : Prop := ∀ f ∈ F, ∀ g ∈ F, hash f = hash g → f = g

/-- An entry is kept under the hash of its fingerprint. -/
def EntryOf (F : List Str) (s : QueryStats) : Prop := s.hash = hash s.fingerprint ∧ s.fingerprint ∈ F

/-- A row has the hash of its fingerprint. -/
def RowOf (F : List Str) (r : StoredQueryStats) : Prop :=
  r.fingerprintHash = (hash r.fingerprint).toInt64 ∧ r.fingerprint ∈ F

variable {hash} {F F' : List Str}

theorem ToldApart.mono (h : ToldApart hash F) (hF : F' ⊆ F) : ToldApart hash F' :=
  fun f hf g hg => h f (hF hf) g (hF hg)

theorem EntryOf.mono {s : QueryStats} (h : EntryOf hash F s) (hF : F ⊆ F') : EntryOf hash F' s :=
  ⟨h.1, hF h.2⟩

theorem RowOf.mono {r : StoredQueryStats} (h : RowOf hash F r) (hF : F ⊆ F') : RowOf hash F' r :=
  ⟨h.1, hF h.2⟩

/-- The parameters for an entry are a row. -/
theorem EntryOf.row {s : QueryStats} (h : EntryOf hash F s) : RowOf hash F s.row :=
  ⟨congrArg UInt64.toInt64 h.1, h.2⟩

/-- Rows with one key have one fingerprint. -/
theorem RowOf.fingerprint_eq {r r' : StoredQueryStats} (hF : ToldApart hash F) (h : RowOf hash F r)
    (h' : RowOf hash F r') (hkey : r.fingerprintHash = r'.fingerprintHash) : r.fingerprint = r'.fingerprint := by
  refine hF _ h.2 _ h'.2 ?_
  have hsigned : (hash r.fingerprint).toInt64 = (hash r'.fingerprint).toInt64 := by rw [← h.1, ← h'.1, hkey]
  rw [← UInt64.toUInt64_toInt64 (hash r.fingerprint), hsigned, UInt64.toUInt64_toInt64]

/-- What is counted in a state. -/
structure Inv (hash : Str → UInt64) (F : List Str) (s : Analytics) : Prop where
  told : ToldApart hash F
  stats : ∀ e ∈ s.stats, EntryOf hash F e
  inFlight : ∀ e ∈ s.inFlight.getD [], EntryOf hash F e
  rows : ∀ r ∈ s.rows, RowOf hash F r

/-- The fingerprints that are counted are in the set. -/
theorem Inv.fingerprints_subset {s : Analytics} (hs : Inv hash F s) : s.fingerprints ⊆ F := by
  intro f hf
  rcases List.mem_append.mp hf with hf | hf
  · rcases List.mem_append.mp hf with hf | hf
    · obtain ⟨r, hr, rfl⟩ := List.mem_map.mp hf
      exact (hs.rows r hr).2
    · obtain ⟨e, he, rfl⟩ := List.mem_map.mp hf
      exact (hs.stats e he).2
  · obtain ⟨e, he, rfl⟩ := List.mem_map.mp hf
    exact (hs.inFlight e he).2

/-- The set can be taken to be the fingerprints that are counted. -/
theorem Inv.tight {s : Analytics} (hs : Inv hash F s) : Inv hash s.fingerprints s where
  told := hs.told.mono hs.fingerprints_subset
  stats e he := ⟨(hs.stats e he).1,
    List.mem_append_left _ (List.mem_append_right _ (List.mem_map_of_mem he))⟩
  inFlight e he := ⟨(hs.inFlight e he).1, List.mem_append_right _ (List.mem_map_of_mem he)⟩
  rows r hr := ⟨(hs.rows r hr).1,
    List.mem_append_left _ (List.mem_append_left _ (List.mem_map_of_mem hr))⟩

/-- One more fingerprint, whose hash is not the one of another. -/
theorem Inv.cons {s : Analytics} (hs : Inv hash F s) {fp : Str} (hfp : ∀ g ∈ F, hash g = hash fp → g = fp) :
    Inv hash (fp :: F) s where
  told f hf g hg heq := by
    rcases List.mem_cons.mp hf with hf' | hf'
    · rcases List.mem_cons.mp hg with hg' | hg'
      · rw [hf', hg']
      · rw [hf', hfp g hg' (by rw [← heq, hf'])]
    · rcases List.mem_cons.mp hg with hg' | hg'
      · rw [hg', hfp f hf' (by rw [heq, hg'])]
      · exact hs.told f hf' g hg' heq
  stats e he := (hs.stats e he).mono (List.subset_cons_self fp F)
  inFlight e he := (hs.inFlight e he).mono (List.subset_cons_self fp F)
  rows r hr := (hs.rows r hr).mono (List.subset_cons_self fp F)

/-- An aggregated event is counted once. -/
theorem aggregate_spec {now : Int} {sql : Str} {duration : Nat} {map : List QueryStats} (hF : ToldApart hash F)
    (hfp : fingerprint sql ∈ F) (hmap : ∀ e ∈ map, EntryOf hash F e) (fp : Str) :
    ((aggregate hash now sql duration map).map (entryCount fp)).sum =
        (map.map (entryCount fp)).sum + (if fingerprint sql = fp then 1 else 0) ∧
      ∀ e ∈ aggregate hash now sql duration map, EntryOf hash F e := by
  refine ⟨Keyed.sum_upsert fun e he hkey => ?_, Keyed.forall_upsert hmap ⟨rfl, hfp⟩ fun e he _ => hmap e he⟩
  have hsame : e.fingerprint = fingerprint sql :=
    hF _ (hmap e he).2 _ hfp ((hmap e he).1.symm.trans hkey)
  change (if e.fingerprint = fp then e.count + 1 else 0) =
    (if e.fingerprint = fp then e.count else 0) + (if fingerprint sql = fp then 0 + 1 else 0)
  rw [hsame]
  split <;> rfl

/-- A flush without a failing statement puts every entry into the table. -/
theorem flush_eq {fails : Nat → Bool} {stats : List QueryStats} {rows : List StoredQueryStats}
    (hok : ∀ k ≤ stats.length + 1, fails k = false) :
    AnalyticsStorage.flush fails stats rows =
      (Keyed.upsertAll StoredQueryStats.fingerprintHash StoredQueryStats.merge (stats.map QueryStats.row) rows,
        true) := by
  have hall : ∀ (l : List QueryStats) (rows : List StoredQueryStats),
      Sql.runAll (l.map fun s rows => some (upsertRow s rows)) rows =
        some (Keyed.upsertAll StoredQueryStats.fingerprintHash StoredQueryStats.merge (l.map QueryStats.row) rows) := by
    intro l
    induction l with
    | nil => exact fun _ => rfl
    | cons s l ih => exact fun rows => ih (upsertRow s rows)
  have hexec := (Sql.exec_eq_true_iff fails 1 (stats.map fun s rows => some (upsertRow s rows)) rows _).mpr
    ⟨fun k hk => hok (1 + k) (by rw [List.length_map] at hk; omega), hall stats rows⟩
  rw [AnalyticsStorage.flush, hok 0 (Nat.zero_le _), if_neg Bool.false_ne_true, hexec]
  exact if_neg (by rw [hok _ (Nat.le_refl _)]; exact Bool.false_ne_true)

/-- The table after such a flush has the counts of the entries. -/
theorem flush_spec {fails : Nat → Bool} {stats : List QueryStats} {rows : List StoredQueryStats}
    (hok : ∀ k ≤ stats.length + 1, fails k = false) (hF : ToldApart hash F)
    (hstats : ∀ e ∈ stats, EntryOf hash F e) (hrows : ∀ r ∈ rows, RowOf hash F r) (fp : Str) :
    ((AnalyticsStorage.flush fails stats rows).1.map (rowCount fp)).sum =
        (rows.map (rowCount fp)).sum + (stats.map (entryCount fp)).sum ∧
      ∀ r ∈ (AnalyticsStorage.flush fails stats rows).1, RowOf hash F r := by
  rw [flush_eq hok]
  have hnews : ∀ r ∈ stats.map QueryStats.row, RowOf hash F r :=
    List.forall_mem_map.mpr fun e he => (hstats e he).row
  have hmerge : ∀ new r, RowOf hash F new → RowOf hash F r → r.fingerprintHash = new.fingerprintHash →
      rowCount fp (StoredQueryStats.merge new r) = rowCount fp r + rowCount fp new ∧
        RowOf hash F (StoredQueryStats.merge new r) := by
    intro new r hnew hr hkey
    have hsame := RowOf.fingerprint_eq hF hr hnew hkey
    refine ⟨?_, hr.1.trans (by rw [hsame]; rfl), hnew.2⟩
    change (if new.fingerprint = fp then r.count + new.count else 0) =
      (if r.fingerprint = fp then r.count else 0) + (if new.fingerprint = fp then new.count else 0)
    rw [hsame]
    split <;> rfl
  obtain ⟨hsum, hall⟩ := Keyed.sum_upsertAll hmerge hnews hrows
  refine ⟨hsum.trans ?_, hall⟩
  rw [List.map_map]
  rfl

/-- What a step does to the counts, if nothing disturbs it. -/
theorem step_spec {s s' : Analytics} {op : AnalyticsOp} (hs : Inv hash s.fingerprints s)
    (hok : Undisturbed hash s op) (hstep : step hash s op = some s') :
    Inv hash s'.fingerprints s' ∧ ∀ fp, s'.total fp = s.total fp + (if isEvent fp op then 1 else 0) := by
  cases op with
  | event now sql duration =>
    obtain rfl := Option.some.inj hstep
    have hs := hs.cons hok
    have hadd (fp : Str) : ((aggregate hash now sql duration s.stats).map (entryCount fp)).sum =
          (s.stats.map (entryCount fp)).sum + (if fingerprint sql = fp then 1 else 0) ∧
        ∀ e ∈ aggregate hash now sql duration s.stats, EntryOf hash (fingerprint sql :: s.fingerprints) e :=
      aggregate_spec hs.told (.head s.fingerprints) hs.stats fp
    refine ⟨Inv.tight (F := fingerprint sql :: s.fingerprints) { hs with stats := (hadd []).2 }, fun fp => ?_⟩
    change _ + ((aggregate hash now sql duration s.stats).map (entryCount fp)).sum + _ =
      _ + (s.stats.map (entryCount fp)).sum + _ + (if (fingerprint sql == fp) = true then 1 else 0)
    rw [(hadd fp).1]
    simp only [beq_iff_eq]
    omega
  | drain =>
    cases hflight : s.inFlight with
    | some flying => simp [step, hflight] at hstep
    | none =>
      by_cases hempty : s.stats.isEmpty = true
      · obtain rfl : s = s' := by simpa [step, hflight, hempty] using hstep
        exact ⟨hs, fun fp => rfl⟩
      · obtain rfl : { s with stats := [], inFlight := some s.stats } = s' := by
          simpa [step, hflight, hempty] using hstep
        have hs' : Inv hash s.fingerprints { s with stats := [], inFlight := some s.stats } :=
          { hs with stats := List.forall_mem_nil _, inFlight := hs.stats }
        refine ⟨hs'.tight, fun fp => ?_⟩
        simp [total, hflight, isEvent]
  | flush fails =>
    cases hflight : s.inFlight with
    | none => simp [step, hflight] at hstep
    | some stats =>
      obtain rfl : { s with inFlight := none, rows := (AnalyticsStorage.flush fails stats s.rows).1 } = s' := by
        simpa [step, hflight] using hstep
      have hok : ∀ k ≤ stats.length + 1, fails k = false := by simpa [Undisturbed, hflight] using hok
      have hflying : ∀ e ∈ stats, EntryOf hash s.fingerprints e := by simpa [hflight] using hs.inFlight
      have hadd := flush_spec hok hs.told hflying hs.rows
      have hs' : Inv hash s.fingerprints
          { s with inFlight := none, rows := (AnalyticsStorage.flush fails stats s.rows).1 } :=
        { hs with inFlight := List.forall_mem_nil _, rows := (hadd []).2 }
      refine ⟨hs'.tight, fun fp => ?_⟩
      simp only [total, hflight, (hadd fp).1, Option.getD_some, Option.getD_none, List.map_nil, List.sum_nil, isEvent,
        Bool.false_eq_true, if_false]
      omega

/-- What an undisturbed run does to the counts. -/
theorem total_run {s s' : Analytics} {ops : List AnalyticsOp} (hs : Inv hash s.fingerprints s)
    (h : Steps (step hash) (Undisturbed hash) s ops s') (fp : Str) :
    s'.total fp = s.total fp + ops.countP (isEvent fp) := by
  induction h with
  | nil s => rfl
  | @cons s t u op ops hok hstep _ ih =>
    obtain ⟨ht, hcount⟩ := step_spec hs hok hstep
    rw [ih ht, hcount fp, List.countP_cons]
    omega

theorem inv_start : Inv hash start.fingerprints start where
  told := fun _ hf => absurd hf List.not_mem_nil
  stats := List.forall_mem_nil _
  inFlight := List.forall_mem_nil _
  rows := List.forall_mem_nil _

/-- The counts are conserved, in every state of a run in which no flush fails and every event has a hash of its
own. -/
theorem counts_conserved (hash : Str → UInt64) (ops : List AnalyticsOp) (s : Analytics)
    (h : Steps (step hash) (Undisturbed hash) start ops s) (fp : Str) :
    s.total fp = ops.countP (isEvent fp) := by
  rw [total_run inv_start h fp]
  exact Nat.zero_add _

/-- The standard library's hash of `SELECT ?`. -/
def hashSelect : UInt64 := 17126052984315004575

/-- A query is recorded, drained and flushed. -/
theorem counts_conserved_flushed :
    total (run (step fun _ => hashSelect) start
        [.event 0 "SELECT 1".toList 5000, .drain, .flush fun _ => false] |>.getD start) "SELECT ?".toList = 1 := by
  have hrun : Steps (step fun _ => hashSelect) (Undisturbed fun _ => hashSelect) start
      [.event 0 "SELECT 1".toList 5000, .drain, .flush fun _ => false]
      ((run (step fun _ => hashSelect) start
        [.event 0 "SELECT 1".toList 5000, .drain, .flush fun _ => false]).getD start) :=
    .cons (fun _ hg => absurd hg List.not_mem_nil) rfl (.cons trivial rfl (.cons (fun _ _ => rfl) rfl (.nil _)))
  exact (counts_conserved _ _ _ hrun _).trans (by decide)

/-- A failed flush loses the counts. -/
theorem flush_loses_counts :
    ¬ ∀ (hash : Str → UInt64) (ops : List AnalyticsOp) (s : Analytics), run (step hash) start ops = some s →
      ∀ fp, s.total fp = ops.countP (isEvent fp) := by
  intro h
  have hlost := h (fun _ => hashSelect) [.event 0 "SELECT 1".toList 5000, .drain, .flush fun k => k == 0] start
    (by decide) "SELECT ?".toList
  exact absurd hlost (by decide)

end Analytics

end TurbineProxy

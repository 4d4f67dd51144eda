import TurbineProxy.LogLines

/-!
# The collector behind its queue

Sessions hand their queries to `Collector::try_record`, which drops them when the queue is full; the aggregation loop of
`analytics/collector.rs` takes them out and puts them into the map that is drained and flushed. What the loop and the
flushes do is what `Analytics` does (`analytics_step`); the queue comes in front of it. The line that the loop writes
for a slow query may panic: then the loop is gone, the queue is closed, and no query is counted any more
(`collector_stops`). A sum of durations does not reach `2 ^ 64` microseconds.
-/

namespace TurbineProxy

/-- `QueryEvent` -/
structure QueryEvent where
  sql : Str
  /-- in nanoseconds -/
  duration : Nat
  deriving DecidableEq

/-- It has a fingerprint. -/
def QueryEvent.isOf (fp : Str) (event : QueryEvent) : Bool := fingerprint event.sql == fp

/-- `QueryStats` with the summaries in microseconds, which are shown but not flushed. -/
structure MeasuredStats where
  stats : QueryStats
  totalUs : Nat
  minUs : Nat
  maxUs : Nat
  deriving DecidableEq

namespace MeasuredStats

/-- `QueryStats::new` -/
def new (now : Int) (hash : UInt64) (fingerprint : Str) : MeasuredStats :=
  ⟨.new now hash fingerprint, 0, 2 ^ 64 - 1, 0⟩

/-- `QueryStats::record` -/
def record (s : MeasuredStats) (now : Int) (duration : Nat) : MeasuredStats where
  stats := s.stats.record now duration
  totalUs := s.totalUs + duration / 1000
  minUs := min s.minUs (duration / 1000)
  maxUs := max s.maxUs (duration / 1000)

end MeasuredStats

/-- `Collector`, its loop, and the storage. -/
structure Collector where
  /-- `log::max_level()` -/
  logLevel : Option LogLevel
  /-- in nanoseconds -/
  slowThreshold : Nat
  /-- the loop has not panicked -/
  running : Bool
  channel : List QueryEvent
  /-- what `try_send` has given back or a panic has taken along, which the source drops -/
  dropped : List QueryEvent
  /-- what the loop has received -/
  inHand : Option QueryEvent
  stats : List MeasuredStats
  /-- what was drained and is being flushed -/
  inFlight : Option (List MeasuredStats)
  rows : List StoredQueryStats
  deriving DecidableEq

/-- What happens, in whatever order: sessions record, the aggregation loop takes up what waits, and the flush loop
drains and flushes. -/
inductive CollectorStep where
  /-- a session calls `try_record` -/
  | tryRecord (event : QueryEvent)
  /-- the loop receives an event -/
  | recv
  /-- it writes its line, and has the lock of the map -/
  | aggregate (now : Int)
  /-- `drain` -/
  | drain
  /-- the flush ends -/
  | flush (fails : Nat → Bool)

namespace Collector

/-- `CHANNEL_CAP` -/
def channelCap : Nat := 10000

/-- `Collector::new` -/
def start (logLevel : Option LogLevel) (slowThreshold : Nat) : Collector :=
  ⟨logLevel, slowThreshold, true, [], [], none, [], none, []⟩

variable (hash : Str → UInt64)

/-- The loop can write its line for a query, if it writes one. -/
def survives (s : Collector) (event : QueryEvent) : Bool :=
  !decide (s.slowThreshold ≤ event.duration) || (logQuote s.logLevel .info 200 (fingerprint event.sql)).isSome

/-- `map.entry(hash).or_insert_with(..).record(..)` -/
def aggregate (now : Int) (event : QueryEvent) (map : List MeasuredStats) : List MeasuredStats :=
  let fp := fingerprint event.sql
  Keyed.upsert (·.stats.hash) ((MeasuredStats.new now (hash fp) fp).record now event.duration)
    (·.record now event.duration) map

/-- One step; `none` where it cannot be taken, as when the loop has stopped or nothing waits. -/
def step (s : Collector) : CollectorStep → Option Collector
  | .tryRecord event =>
    if s.running ∧ s.channel.length < channelCap then some { s with channel := s.channel ++ [event] }
    else some { s with dropped := s.dropped ++ [event] }
  | .recv =>
    match s.inHand, s.channel with
    | none, event :: channel => some { s with channel := channel, inHand := some event }
    | _, _ => none
  | .aggregate now =>
    s.inHand.map fun event =>
      if s.survives event then { s with inHand := none, stats := aggregate hash now event s.stats }
      else { s with running := false, channel := [], inHand := none, dropped := s.dropped ++ event :: s.channel }
  | .drain =>
    match s.inFlight with
    | some _ => none
    | none => if s.stats.isEmpty then some s else some { s with stats := [], inFlight := some s.stats }
  | .flush fails =>
    s.inFlight.map fun stats =>
      { s with inFlight := none, rows := (AnalyticsStorage.flush fails (stats.map (·.stats)) s.rows).1 }

/-- The collector without its queue. -/
def analytics (s : Collector) : Analytics where
  stats := s.stats.map (·.stats)
  inFlight := s.inFlight.map (·.map (·.stats))
  rows := s.rows

/-- What the loops do in a step. -/
def op (s : Collector) : CollectorStep → Option AnalyticsOp
  | .aggregate now => (s.inHand.filter s.survives).map fun event => .event now event.sql event.duration
  | .drain => some .drain
  | .flush fails => some (.flush fails)
  | .tryRecord _ | .recv => none

variable {hash} {s s' s₁ s₂ : Collector} {e : CollectorStep} {es es₁ es₂ : List CollectorStep}

theorem stats_aggregate (now : Int) (event : QueryEvent) (map : List MeasuredStats) :
    (aggregate hash now event map).map (·.stats) =
      Analytics.aggregate hash now event.sql event.duration (map.map (·.stats)) :=
  Keyed.map_upsert (fun _ => rfl) fun _ => rfl

/-- What a step can do. -/
inductive Stepped (hash : Str → UInt64) (s : Collector) : CollectorStep → Collector → Prop where
  | queued (event : QueryEvent) (hrunning : s.running = true) :
    Stepped hash s (.tryRecord event) { s with channel := s.channel ++ [event] }
  | dropped (event : QueryEvent) : Stepped hash s (.tryRecord event) { s with dropped := s.dropped ++ [event] }
  | received (event : QueryEvent) (channel : List QueryEvent) (hnone : s.inHand = none)
    (hchannel : s.channel = event :: channel) :
    Stepped hash s .recv { s with channel := channel, inHand := some event }
  | counted (now : Int) (event : QueryEvent) (hevent : s.inHand = some event) (hsurvives : s.survives event = true) :
    Stepped hash s (.aggregate now) { s with inHand := none, stats := aggregate hash now event s.stats }
  | panicked (now : Int) (event : QueryEvent) (hevent : s.inHand = some event) (hcut : s.survives event = false) :
    Stepped hash s (.aggregate now)
      { s with running := false, channel := [], inHand := none, dropped := s.dropped ++ event :: s.channel }
  | empty (hflight : s.inFlight = none) (hempty : s.stats = []) : Stepped hash s .drain s
  | drained (hflight : s.inFlight = none) (hne : s.stats ≠ []) :
    Stepped hash s .drain { s with stats := [], inFlight := some s.stats }
  | flushed (fails : Nat → Bool) (stats : List MeasuredStats) (hflight : s.inFlight = some stats) :
    Stepped hash s (.flush fails)
      { s with inFlight := none, rows := (AnalyticsStorage.flush fails (stats.map (·.stats)) s.rows).1 }

theorem Stepped.of_step (hstep : s.step hash e = some s') : Stepped hash s e s' := by
  cases e with
  | tryRecord event =>
    rw [step] at hstep
    split at hstep
    · rename_i hroom
      cases hstep
      exact .queued event hroom.1
    · cases hstep
      exact .dropped event
  | recv =>
    rw [step] at hstep
    split at hstep
    · rename_i event channel hnone hchannel
      cases hstep
      exact .received event channel hnone hchannel
    · cases hstep
  | aggregate now =>
    obtain ⟨event, hevent, rfl⟩ := Option.map_eq_some_iff.mp hstep
    split
    · rename_i hsurvives
      exact .counted now event hevent hsurvives
    · rename_i hcut
      exact .panicked now event hevent (Bool.eq_false_iff.mpr hcut)
  | drain =>
    rw [step] at hstep
    split at hstep
    · cases hstep
    · rename_i hflight
      split at hstep
      · rename_i hempty
        cases hstep
        exact .empty hflight (List.isEmpty_iff.mp hempty)
      · rename_i hne
        cases hstep
        exact .drained hflight fun hempty => hne (List.isEmpty_iff.mpr hempty)
  | flush fails =>
    obtain ⟨stats, hflight, rfl⟩ := Option.map_eq_some_iff.mp hstep
    exact .flushed fails stats hflight

/-- Behind its queue, the collector does what `Analytics` does. -/
theorem analytics_step (hstep : s.step hash e = some s') :
    (s.op e).elim (s'.analytics = s.analytics) fun op => Analytics.step hash s.analytics op = some s'.analytics := by
  cases Stepped.of_step hstep with
  | queued event | dropped event | received event channel => rfl
  | counted now event hevent hsurvives =>
    rw [op, hevent, Option.filter_some, if_pos hsurvives]
    exact congrArg some (congrArg (fun stats => { s.analytics with stats := stats })
      (stats_aggregate now event s.stats).symm)
  | panicked now event hevent hcut =>
    rw [op, hevent, Option.filter_some, if_neg (Bool.eq_false_iff.mp hcut)]
    rfl
  | empty hflight hempty =>
    change Analytics.step hash s.analytics .drain = some s.analytics
    rw [Analytics.step, analytics, hflight, hempty]
    rfl
  | drained hflight hne =>
    change Analytics.step hash s.analytics .drain = some _
    rw [Analytics.step, analytics, hflight]
    dsimp only [Option.map_none]
    rw [List.isEmpty_map, if_neg fun hempty => hne (List.isEmpty_iff.mp hempty)]
    rfl
  | flushed fails stats hflight =>
    change Analytics.step hash s.analytics (.flush fails) = some _
    rw [Analytics.step, analytics, hflight]
    rfl

/-! ## Where a recorded query is -/

/-- A query with a fingerprint is recorded. -/
def isRecorded (fp : Str) : CollectorStep → Bool
  | .tryRecord event => event.isOf fp
  | _ => false

/-- How many wait to be aggregated. -/
def queued (s : Collector) (fp : Str) : Nat := (s.channel ++ s.inHand.toList).countP (QueryEvent.isOf fp)

/-- How many were dropped. -/
def lost (s : Collector) (fp : Str) : Nat := s.dropped.countP (QueryEvent.isOf fp)

/-- How many are in the map. -/
def live (s : Collector) (fp : Str) : Nat := (s.analytics.stats.map (Analytics.entryCount fp)).sum

/-- How many are being flushed. -/
def flushing (s : Collector) (fp : Str) : Nat := ((s.analytics.inFlight.getD []).map (Analytics.entryCount fp)).sum

/-- How many are stored. -/
def stored (s : Collector) (fp : Str) : Nat := (s.rows.map (Analytics.rowCount fp)).sum

/-- No statement of a flush fails. -/
def Succeeds : CollectorStep → Prop
  | .flush fails => ∀ k, fails k = false
  | _ => True

/-- All queries have fingerprints of a set. -/
structure Within (hash : Str → UInt64) (F : List Str) (s : Collector) : Prop where
  inv : Analytics.Inv hash F s.analytics
  queue : ∀ event ∈ s.channel ++ s.inHand.toList, fingerprint event.sql ∈ F

theorem within_start {F : List Str} (h : Analytics.ToldApart hash F) (logLevel : Option LogLevel)
    (slowThreshold : Nat) : Within hash F (start logLevel slowThreshold) where
  inv := ⟨h, List.forall_mem_nil _, List.forall_mem_nil _, List.forall_mem_nil _⟩
  queue := List.forall_mem_nil _

/-- What a step does to where queries of a fingerprint are. -/
structure Moved (fp : Str) (e : CollectorStep) (s s' : Collector) : Prop where
  /-- a drain takes them out of the map -/
  ahead_le : s'.live fp + s'.queued fp + s'.lost fp ≤
    s.live fp + s.queued fp + s.lost fp + if isRecorded fp e then 1 else 0
  /-- nothing else does -/
  ahead_eq : e ≠ .drain → s'.live fp + s'.queued fp + s'.lost fp =
    s.live fp + s.queued fp + s.lost fp + if isRecorded fp e then 1 else 0
  /-- a failed flush loses them -/
  all_le : s'.stored fp + s'.flushing fp + s'.live fp + s'.queued fp + s'.lost fp ≤
    s.stored fp + s.flushing fp + s.live fp + s.queued fp + s.lost fp + if isRecorded fp e then 1 else 0
  /-- nothing else does -/
  all_eq : Succeeds e → s'.stored fp + s'.flushing fp + s'.live fp + s'.queued fp + s'.lost fp =
    s.stored fp + s.flushing fp + s.live fp + s.queued fp + s.lost fp + if isRecorded fp e then 1 else 0

/-- If nothing of them is lost, all is said. -/
theorem Moved.of_eq {fp : Str} (hbehind : s'.stored fp + s'.flushing fp = s.stored fp + s.flushing fp)
    (h : s'.live fp + s'.queued fp + s'.lost fp =
      s.live fp + s.queued fp + s.lost fp + if isRecorded fp e then 1 else 0) : Moved fp e s s' where
  ahead_le := Nat.le_of_eq h
  ahead_eq _ := h
  all_le := by omega
  all_eq _ := by omega

/-- A flush leaves the table as it is, or it is one in which nothing fails. -/
theorem flush_or (fails : Nat → Bool) (stats : List QueryStats) (rows : List StoredQueryStats) :
    (AnalyticsStorage.flush fails stats rows).1 = rows ∨
      (AnalyticsStorage.flush fails stats rows).1 = (AnalyticsStorage.flush (fun _ => false) stats rows).1 := by
  rw [AnalyticsStorage.flush]
  split
  · exact .inl rfl
  · split
    · rename_i rows' hexec
      split
      · exact .inl rfl
      · right
        have hall := ((Sql.exec_eq_true_iff ..).mp hexec).2
        have hexec' := (Sql.exec_eq_true_iff (fun _ => false) 1 (stats.map fun s rows => some (upsertRow s rows)) rows
          rows').mpr ⟨fun _ _ => rfl, hall⟩
        rw [AnalyticsStorage.flush, if_neg Bool.false_ne_true, hexec']
        rfl
    · exact .inl rfl

section Steps

variable {F : List Str}

/-- The loop puts the event it has received into the map. -/
theorem Within.aggregate (h : Within hash F s) {now : Int} {event : QueryEvent} (hevent : s.inHand = some event) :
    Within hash F { s with inHand := none, stats := Collector.aggregate hash now event s.stats } ∧
      ∀ fp, Moved fp (.aggregate now) s
        { s with inHand := none, stats := Collector.aggregate hash now event s.stats } := by
  have hfp : fingerprint event.sql ∈ F := h.queue event (by simp [hevent])
  have hadd (fp : Str) :
      ((Analytics.aggregate hash now event.sql event.duration s.analytics.stats).map (Analytics.entryCount fp)).sum =
          (s.analytics.stats.map (Analytics.entryCount fp)).sum + (if fingerprint event.sql = fp then 1 else 0) ∧
        ∀ e ∈ Analytics.aggregate hash now event.sql event.duration s.analytics.stats, Analytics.EntryOf hash F e :=
    Analytics.aggregate_spec h.inv.told hfp h.inv.stats fp
  have hstats : (Collector.aggregate hash now event s.stats).map (·.stats) =
      Analytics.aggregate hash now event.sql event.duration s.analytics.stats := stats_aggregate now event s.stats
  refine ⟨⟨{ h.inv with stats := ?_ }, fun other hother => h.queue other ?_⟩, fun fp => .of_eq rfl ?_⟩
  · change ∀ e ∈ (Collector.aggregate hash now event s.stats).map (·.stats), _
    rw [hstats]
    exact (hadd []).2
  · exact List.mem_append_left _ (by simpa using hother)
  · change (((Collector.aggregate hash now event s.stats).map (·.stats)).map (Analytics.entryCount fp)).sum +
      (s.channel ++ []).countP (QueryEvent.isOf fp) + s.lost fp = s.live fp + s.queued fp + s.lost fp + 0
    rw [hstats, queued, hevent, List.countP_append, List.countP_append, Option.toList_some, List.countP_singleton]
    refine (congrArg (· + _ + _) (hadd fp).1).trans ?_
    simp only [QueryEvent.isOf, beq_iff_eq, List.countP_nil, live]
    omega

/-- The loop panics over the event it has received. -/
theorem Within.stop (h : Within hash F s) {now : Int} {event : QueryEvent} (hevent : s.inHand = some event) :
    Within hash F
        { s with running := false, channel := [], inHand := none, dropped := s.dropped ++ event :: s.channel } ∧
      ∀ fp, Moved fp (.aggregate now) s
        { s with running := false, channel := [], inHand := none, dropped := s.dropped ++ event :: s.channel } := by
  refine ⟨⟨h.inv, List.forall_mem_nil _⟩, fun fp => .of_eq rfl ?_⟩
  change s.live fp + 0 + (s.dropped ++ event :: s.channel).countP (QueryEvent.isOf fp) =
    s.live fp + s.queued fp + s.lost fp + 0
  rw [queued, lost, hevent, List.countP_append, List.countP_append, Option.toList_some, List.countP_singleton,
    List.countP_cons]
  omega

/-- A drain moves the map into the flush, so that the sum stays what it was. -/
theorem Within.drain (h : Within hash F s) (hflight : s.inFlight = none) :
    Within hash F { s with stats := [], inFlight := some s.stats } ∧
      ∀ fp, Moved fp .drain s { s with stats := [], inFlight := some s.stats } := by
  refine ⟨⟨{ h.inv with stats := List.forall_mem_nil _, inFlight := h.inv.stats }, h.queue⟩, fun fp => ?_⟩
  have hnone : s.flushing fp = 0 := by
    rw [flushing, analytics, hflight]
    rfl
  have hall : s.stored fp + s.live fp + 0 + s.queued fp + s.lost fp =
      s.stored fp + s.flushing fp + s.live fp + s.queued fp + s.lost fp + 0 := by omega
  exact {
    ahead_le := by
      change 0 + s.queued fp + s.lost fp ≤ s.live fp + s.queued fp + s.lost fp + 0
      omega
    ahead_eq hne := absurd rfl hne
    all_le := Nat.le_of_eq hall
    all_eq _ := hall }

/-- The end of a flush, whichever of its statements fail, keeps what is stored within what was recorded. -/
theorem Within.flush (h : Within hash F s) {fails : Nat → Bool} {stats : List MeasuredStats}
    (hflight : s.inFlight = some stats) :
    Within hash F
        { s with inFlight := none, rows := (AnalyticsStorage.flush fails (stats.map (·.stats)) s.rows).1 } ∧
      ∀ fp, Moved fp (.flush fails) s
        { s with inFlight := none, rows := (AnalyticsStorage.flush fails (stats.map (·.stats)) s.rows).1 } := by
  have hflying : ∀ e ∈ stats.map (·.stats), Analytics.EntryOf hash F e := by
    have := h.inv.inFlight
    rwa [analytics, hflight] at this
  have hadd (fp : Str) :
      ((AnalyticsStorage.flush (fun _ => false) (stats.map (·.stats)) s.rows).1.map (Analytics.rowCount fp)).sum =
          (s.rows.map (Analytics.rowCount fp)).sum + ((stats.map (·.stats)).map (Analytics.entryCount fp)).sum ∧
        ∀ r ∈ (AnalyticsStorage.flush (fun _ => false) (stats.map (·.stats)) s.rows).1, Analytics.RowOf hash F r :=
    Analytics.flush_spec (fun _ _ => rfl) h.inv.told hflying h.inv.rows fp
  have hflush (fp : Str) : s.flushing fp = ((stats.map (·.stats)).map (Analytics.entryCount fp)).sum := by
    rw [flushing, analytics, hflight]
    rfl
  have hkept : Within hash F { s with inFlight := none } :=
    ⟨{ h.inv with inFlight := List.forall_mem_nil _ }, h.queue⟩
  refine ⟨?_, fun fp => { ahead_le := Nat.le_refl _, ahead_eq _ := rfl, all_le := ?_, all_eq hok := ?_ }⟩
  · rcases flush_or fails (stats.map (·.stats)) s.rows with heq | heq
    · rw [heq]
      exact hkept
    · rw [heq]
      exact ⟨{ hkept.inv with rows := (hadd []).2 }, h.queue⟩
  · change ((AnalyticsStorage.flush fails (stats.map (·.stats)) s.rows).1.map (Analytics.rowCount fp)).sum + 0 +
      s.live fp + s.queued fp + s.lost fp ≤ s.stored fp + s.flushing fp + s.live fp + s.queued fp + s.lost fp + 0
    have hnew := (hadd fp).1
    have hold := hflush fp
    rcases flush_or fails (stats.map (·.stats)) s.rows with heq | heq
    · rw [heq, ← stored]
      omega
    · rw [heq, hnew, ← hold]
      exact Nat.le_refl _
  · obtain rfl : fails = fun _ => false := funext hok
    change ((AnalyticsStorage.flush (fun _ => false) (stats.map (·.stats)) s.rows).1.map (Analytics.rowCount fp)).sum +
      0 + s.live fp + s.queued fp + s.lost fp = s.stored fp + s.flushing fp + s.live fp + s.queued fp + s.lost fp + 0
    rw [(hadd fp).1, ← hflush fp]
    rfl

/-- What is received waits as before. -/
theorem ahead_received {event : QueryEvent} {channel : List QueryEvent} (hnone : s.inHand = none)
    (hchannel : s.channel = event :: channel) : (channel ++ [event]).Perm (s.channel ++ s.inHand.toList) := by
  rw [hnone, hchannel, Option.toList_none, List.append_nil]
  exact List.perm_append_singleton event channel

/-- What any step does to the counts of every fingerprint. -/
theorem Within.step (h : Within hash F s) (hF : ∀ event, e = .tryRecord event → fingerprint event.sql ∈ F)
    (hstep : s.step hash e = some s') : Within hash F s' ∧ ∀ fp, Moved fp e s s' := by
  cases Stepped.of_step hstep with
  | queued event =>
    refine ⟨⟨h.inv, fun other hother => ?_⟩, fun fp => .of_eq rfl ?_⟩
    · rw [List.append_assoc, List.mem_append, List.singleton_append, List.mem_cons] at hother
      rcases hother with hother | rfl | hother
      · exact h.queue other (List.mem_append_left _ hother)
      · exact hF other rfl
      · exact h.queue other (List.mem_append_right _ hother)
    · change s.live fp + (s.channel ++ [event] ++ s.inHand.toList).countP (QueryEvent.isOf fp) + s.lost fp =
        s.live fp + s.queued fp + s.lost fp + if event.isOf fp = true then 1 else 0
      rw [queued, List.countP_append, List.countP_append, List.countP_append, List.countP_singleton]
      omega
  | dropped event =>
    refine ⟨⟨h.inv, h.queue⟩, fun fp => .of_eq rfl ?_⟩
    change s.live fp + s.queued fp + (s.dropped ++ [event]).countP (QueryEvent.isOf fp) =
      s.live fp + s.queued fp + s.lost fp + if event.isOf fp = true then 1 else 0
    rw [lost, List.countP_append, List.countP_singleton]
    omega
  | received event channel hnone hchannel =>
    have hsame := ahead_received hnone hchannel
    refine ⟨⟨h.inv, fun other hother => h.queue other (hsame.subset hother)⟩, fun fp => .of_eq rfl ?_⟩
    change s.live fp + (channel ++ [event]).countP (QueryEvent.isOf fp) + s.lost fp =
      s.live fp + s.queued fp + s.lost fp + 0
    rw [hsame.countP_eq]
    rfl
  | counted now event hevent => exact h.aggregate hevent
  | panicked now event hevent => exact h.stop hevent
  | empty => exact ⟨h, fun fp => .of_eq rfl rfl⟩
  | drained hflight => exact h.drain hflight
  | flushed fails stats hflight => exact h.flush hflight

end Steps

/-! ## Runs -/

/-- The fingerprints of the queries that are recorded. -/
def recordedFingerprints (es : List CollectorStep) : List Str :=
  es.filterMap fun
    | .tryRecord event => some (fingerprint event.sql)
    | _ => none

theorem mem_recordedFingerprints {event : QueryEvent} (h : .tryRecord event ∈ es) :
    fingerprint event.sql ∈ recordedFingerprints es :=
  List.mem_filterMap.mpr ⟨_, h, rfl⟩

/-- What a run does to where queries of a fingerprint are. -/
structure Balanced (fp : Str) (es : List CollectorStep) (s s' : Collector) : Prop where
  ahead_le : s'.live fp + s'.queued fp + s'.lost fp ≤
    s.live fp + s.queued fp + s.lost fp + es.countP (isRecorded fp)
  ahead_eq : (∀ e ∈ es, e ≠ .drain) → s'.live fp + s'.queued fp + s'.lost fp =
    s.live fp + s.queued fp + s.lost fp + es.countP (isRecorded fp)
  all_le : s'.stored fp + s'.flushing fp + s'.live fp + s'.queued fp + s'.lost fp ≤
    s.stored fp + s.flushing fp + s.live fp + s.queued fp + s.lost fp + es.countP (isRecorded fp)
  all_eq : (∀ e ∈ es, Succeeds e) → s'.stored fp + s'.flushing fp + s'.live fp + s'.queued fp + s'.lost fp =
    s.stored fp + s.flushing fp + s.live fp + s.queued fp + s.lost fp + es.countP (isRecorded fp)

theorem Balanced.nil (fp : Str) (s : Collector) : Balanced fp [] s s :=
  ⟨Nat.le_refl _, fun _ => rfl, Nat.le_refl _, fun _ => rfl⟩

/-- One step more, before the others. -/
theorem Balanced.cons {fp : Str} (h : Moved fp e s₁ s) (hs : Balanced fp es s s₂) :
    Balanced fp (e :: es) s₁ s₂ where
  ahead_le := by
    have hone := h.ahead_le
    have hrest := hs.ahead_le
    rw [List.countP_cons]
    omega
  ahead_eq hno := by
    have hone := h.ahead_eq (hno e (.head es))
    have hrest := hs.ahead_eq fun e he => hno e (.tail _ he)
    rw [List.countP_cons]
    omega
  all_le := by
    have hone := h.all_le
    have hrest := hs.all_le
    rw [List.countP_cons]
    omega
  all_eq hok := by
    have hone := h.all_eq (hok e (.head es))
    have hrest := hs.all_eq fun e he => hok e (.tail _ he)
    rw [List.countP_cons]
    omega

/-- A run keeps the set of fingerprints, and the balance. -/
theorem Within.run {F : List Str} (h : Within hash F s) (hF : recordedFingerprints es ⊆ F)
    (hrun : TurbineProxy.run (Collector.step hash) s es = some s') :
    Within hash F s' ∧ ∀ fp, Balanced fp es s s' := by
  induction es generalizing s with
  | nil =>
    cases hrun
    exact ⟨h, fun fp => .nil fp _⟩
  | cons e es ih =>
    obtain ⟨t, hstep, hrest⟩ := Option.bind_eq_some_iff.mp hrun
    obtain ⟨ht, hmoved⟩ := h.step
      (fun event he => hF (mem_recordedFingerprints (he ▸ List.mem_cons_self))) hstep
    have hsub : recordedFingerprints es ⊆ recordedFingerprints (e :: es) :=
      ((List.sublist_cons_self e es).filterMap _).subset
    obtain ⟨hs', hbalanced⟩ := ih ht (fun g hg => hF (hsub hg)) hrest
    exact ⟨hs', fun fp => (hbalanced fp).cons (hmoved fp)⟩

/-- Nothing was recorded at the start. -/
theorem nothing_start (logLevel : Option LogLevel) (slowThreshold : Nat) (fp : Str) :
    (start logLevel slowThreshold).stored fp + (start logLevel slowThreshold).flushing fp +
      (start logLevel slowThreshold).live fp + (start logLevel slowThreshold).queued fp +
        (start logLevel slowThreshold).lost fp = 0 := rfl

/-! ## The end of the loop -/

/-- The line that the loop writes for a query quotes no half of a character. -/
def Loggable (logLevel : Option LogLevel) (slowThreshold : Nat) (event : QueryEvent) : Prop :=
  slowThreshold ≤ event.duration → LogLevel.info.isLogged logLevel = true → Quotable 200 (fingerprint event.sql)

theorem survives_iff_loggable (event : QueryEvent) :
    s.survives event = true ↔ Loggable s.logLevel s.slowThreshold event := by
  rw [survives, Bool.or_eq_true, logQuote_isSome_iff, Bool.not_eq_true', decide_eq_false_iff_not, Loggable]
  tauto

/-- The loop runs, with queries ahead of it that it survives. -/
structure Running (logLevel : Option LogLevel) (slowThreshold : Nat) (s : Collector) : Prop where
  level : s.logLevel = logLevel
  threshold : s.slowThreshold = slowThreshold
  running : s.running = true
  ahead : ∀ event ∈ s.channel ++ s.inHand.toList, Loggable logLevel slowThreshold event

theorem Running.step {logLevel : Option LogLevel} {slowThreshold : Nat} (h : Running logLevel slowThreshold s)
    (he : ∀ event, e = .tryRecord event → Loggable logLevel slowThreshold event) (hstep : s.step hash e = some s') :
    Running logLevel slowThreshold s' := by
  cases Stepped.of_step hstep with
  | queued event =>
    refine { h with ahead := fun other hother => ?_ }
    rw [List.append_assoc, List.mem_append, List.singleton_append, List.mem_cons] at hother
    rcases hother with hother | rfl | hother
    · exact h.ahead other (List.mem_append_left _ hother)
    · exact he other rfl
    · exact h.ahead other (List.mem_append_right _ hother)
  | received event channel hnone hchannel =>
    exact { h with ahead := fun other hother => h.ahead other ((ahead_received hnone hchannel).subset hother) }
  | counted now event hevent =>
    refine { h with ahead := fun other hother => h.ahead other (List.mem_append_left _ ?_) }
    simpa using hother
  | panicked now event hevent hcut =>
    have hloggable : s.survives event = true := by
      rw [survives_iff_loggable, h.level, h.threshold]
      exact h.ahead event (by simp [hevent])
    rw [hloggable] at hcut
    cases hcut
  | empty => exact h
  | dropped event | drained hflight | flushed fails stats hflight => exact { h with }

theorem Running.run {logLevel : Option LogLevel} {slowThreshold : Nat} (h : Running logLevel slowThreshold s)
    (hes : ∀ event, .tryRecord event ∈ es → Loggable logLevel slowThreshold event)
    (hrun : TurbineProxy.run (Collector.step hash) s es = some s') : Running logLevel slowThreshold s' := by
  induction es generalizing s with
  | nil =>
    cases hrun
    exact h
  | cons e es ih =>
    obtain ⟨t, hstep, hrest⟩ := Option.bind_eq_some_iff.mp hrun
    exact ih (h.step (fun event he => hes event (he ▸ List.mem_cons_self)) hstep)
      (fun event hevent => hes event (.tail _ hevent)) hrest

/-- The loop is gone, and nothing waits for it. -/
structure Stopped (s : Collector) : Prop where
  running : s.running = false
  channel : s.channel = []
  inHand : s.inHand = none

/-- What is recorded after that is lost. -/
theorem Stopped.step (h : s.Stopped) (hstep : s.step hash e = some s') :
    s'.Stopped ∧ ∀ fp, s'.lost fp = s.lost fp + if isRecorded fp e then 1 else 0 := by
  cases Stepped.of_step hstep with
  | queued event hrunning =>
    rw [h.running] at hrunning
    cases hrunning
  | dropped event =>
    refine ⟨⟨h.running, h.channel, h.inHand⟩, fun fp => ?_⟩
    change (s.dropped ++ [event]).countP (QueryEvent.isOf fp) = s.lost fp + if event.isOf fp = true then 1 else 0
    rw [lost, List.countP_append, List.countP_singleton]
  | received event channel hnone hchannel =>
    rw [h.channel] at hchannel
    cases hchannel
  | counted now event hevent | panicked now event hevent =>
    rw [h.inHand] at hevent
    cases hevent
  | empty => exact ⟨h, fun fp => rfl⟩
  | drained hflight | flushed fails stats hflight => exact ⟨⟨h.running, h.channel, h.inHand⟩, fun fp => rfl⟩

theorem Stopped.run (h : s.Stopped) (hrun : TurbineProxy.run (Collector.step hash) s es = some s') :
    s'.Stopped ∧ ∀ fp, s'.lost fp = s.lost fp + es.countP (isRecorded fp) := by
  induction es generalizing s with
  | nil =>
    cases hrun
    exact ⟨h, fun fp => rfl⟩
  | cons e es ih =>
    obtain ⟨t, hstep, hrest⟩ := Option.bind_eq_some_iff.mp hrun
    obtain ⟨ht, hone⟩ := h.step hstep
    obtain ⟨hs', hall⟩ := ih ht hrest
    refine ⟨hs', fun fp => ?_⟩
    rw [hall, hone, List.countP_cons]
    omega

/-- As long as all recorded queries are such that the line for a slow one quotes no half of a character, the loop runs.
When it takes up one that is not, it stops for good: that query, all that wait behind it and all that are recorded
after it are lost. -/
theorem collector_stops {logLevel : Option LogLevel} {slowThreshold : Nat}
    (hrun₁ : run (step hash) (start logLevel slowThreshold) es₁ = some s₁) :
    ((∀ event, .tryRecord event ∈ es₁ → Loggable logLevel slowThreshold event) → s₁.running = true) ∧
    ∀ event now, s₁.inHand = some event → ¬Loggable s₁.logLevel s₁.slowThreshold event →
      run (step hash) s₁ (.aggregate now :: es₂) = some s₂ →
        s₂.running = false ∧ ∀ fp, s₂.queued fp = 0 ∧
          s₂.lost fp = s₁.lost fp + s₁.queued fp + es₂.countP (isRecorded fp) := by
  constructor
  · intro hes
    have hstart : Running logLevel slowThreshold (start logLevel slowThreshold) :=
      ⟨rfl, rfl, rfl, List.forall_mem_nil _⟩
    exact (hstart.run hes hrun₁).running
  · intro event now hevent hcut hrun₂
    obtain ⟨t, hstep, hrest⟩ := Option.bind_eq_some_iff.mp hrun₂
    rw [step, hevent, Option.map_some, if_neg ((survives_iff_loggable event).not.mpr hcut)] at hstep
    cases hstep
    obtain ⟨hs₂, hlost⟩ := Stopped.run ⟨rfl, rfl, rfl⟩ hrest
    refine ⟨hs₂.running, fun fp => ⟨?_, ?_⟩⟩
    · rw [queued, hs₂.channel, hs₂.inHand, Option.toList_none, List.append_nil, List.countP_nil]
    · rw [hlost]
      refine congrArg (· + _) ?_
      rw [lost, lost, queued, hevent, List.countP_append, List.countP_append, Option.toList_some, List.countP_singleton,
        List.countP_cons]

/-- A slow query of one word, which the line for it cuts in the middle of a character. -/
def cutQuery : QueryEvent := ⟨"SELECT ".toList ++ List.replicate 100 'é', 2000000000⟩

/-- It is received, and a harmless query waits behind it. -/
def aheadOfCut : List CollectorStep :=
  [.tryRecord ⟨"SELECT 1".toList, 5000⟩, .recv, .aggregate 0, .tryRecord cutQuery, .recv,
    .tryRecord ⟨"SELECT 2".toList, 7000⟩]

/-- Where this leads. -/
def cutAhead : Collector :=
  (run (step fun _ => Analytics.hashSelect) (start (some .info) 1000000000) aheadOfCut).getD (start none 0)

theorem run_aheadOfCut :
    run (step fun _ => Analytics.hashSelect) (start (some .info) 1000000000) aheadOfCut = some cutAhead := by
  decide +kernel

/-- The harmless query that waits is lost, and one that is recorded later. -/
theorem collector_stops_sample :
    ∃ s, run (step fun _ => Analytics.hashSelect) cutAhead
        [.aggregate 1, .tryRecord ⟨"SELECT 3".toList, 9000⟩] = some s ∧
      s.running = false ∧ s.lost "SELECT ?".toList = 2 := by
  have hrun₂ : (run (step fun _ => Analytics.hashSelect) cutAhead
      [.aggregate 1, .tryRecord ⟨"SELECT 3".toList, 9000⟩]).isSome = true := by decide +kernel
  obtain ⟨s, hs⟩ := Option.isSome_iff_exists.mp hrun₂
  have hevent : cutAhead.inHand = some cutQuery := by decide +kernel
  have hcut : ¬Loggable cutAhead.logLevel cutAhead.slowThreshold cutQuery := by
    rw [← survives_iff_loggable]
    decide +kernel
  obtain ⟨hrunning, hlost⟩ := (collector_stops run_aheadOfCut).2 cutQuery 1 hevent hcut hs
  have hbefore : cutAhead.lost "SELECT ?".toList + cutAhead.queued "SELECT ?".toList = 1 := by decide +kernel
  refine ⟨s, hs, hrunning, ?_⟩
  rw [(hlost "SELECT ?".toList).2, hbefore]
  decide +kernel

end Collector

end TurbineProxy

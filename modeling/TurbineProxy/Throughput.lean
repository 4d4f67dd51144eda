import TurbineProxy.Accumulators
import TurbineProxy.Timeseries

/-!
# Throughput on its way to the time series

`ThroughputCounters` of `analytics/timeseries.rs`, which sessions add to one counter at a time, and `timeseries_loop` of
`main.rs`, which swaps them out one at a time once a minute, records what it has got, and rolls it up. The four counters
are one `MinuteSnapshot`, and what a step adds to one of them is one too. They do not reach `2 ^ 64`. Whatever order the
steps take, a query is in the rows as far as it is not in the counters (`throughput_conserved`).
-/

namespace TurbineProxy

open Rollup

/-- The counters, one of which is loaded or changed at a time. -/
inductive ThroughputCounter : Type where
  | queries
  | slow
  | totalUs
  | maxUs
  deriving DecidableEq

namespace ThroughputCounter

/-- A snapshot with one counter only. -/
def only (m : MinuteSnapshot) : ThroughputCounter → MinuteSnapshot
  | queries => ⟨m.queries, 0, 0, 0⟩
  | slow => ⟨0, m.slow, 0, 0⟩
  | totalUs => ⟨0, 0, m.totalUs, 0⟩
  | maxUs => ⟨0, 0, 0, m.maxUs⟩

/-- A snapshot with one counter reset. -/
def reset (m : MinuteSnapshot) : ThroughputCounter → MinuteSnapshot
  | queries => { m with queries := 0 }
  | slow => { m with slow := 0 }
  | totalUs => { m with totalUs := 0 }
  | maxUs => { m with maxUs := 0 }

theorem only_add_reset (m : MinuteSnapshot) (c : ThroughputCounter) : c.only m + c.reset m = m := by
  cases c <;> simp [only, reset, MinuteSnapshot.add_def]

/-- The order in which `take_snapshot` swaps them. -/
def swapped : List ThroughputCounter := [queries, slow, totalUs, maxUs]

end ThroughputCounter

/-- What a query is in the counters. -/
def MinuteSnapshot.ofQuery (slowThresholdUs durationUs : Nat) : MinuteSnapshot :=
  ⟨1, if slowThresholdUs ≤ durationUs then 1 else 0, durationUs, durationUs⟩

/-- What `ThroughputCounters::record` adds, in its order. -/
def recordParts (slowThresholdUs durationUs : Nat) : List MinuteSnapshot :=
  [⟨1, 0, 0, 0⟩, ⟨0, 0, durationUs, 0⟩, ⟨0, 0, 0, durationUs⟩] ++
    if slowThresholdUs ≤ durationUs then [⟨0, 1, 0, 0⟩] else []

theorem sum_recordParts (slowThresholdUs durationUs : Nat) :
    (recordParts slowThresholdUs durationUs).sum = .ofQuery slowThresholdUs durationUs := by
  rw [recordParts, MinuteSnapshot.ofQuery]
  split <;> simp [MinuteSnapshot.add_def, MinuteSnapshot.zero_def]

/-- Where `timeseries_loop` is. -/
inductive TimeseriesPhase : Type where
  /-- it waits for the tick -/
  | waiting
  /-- `take_snapshot` has got this, and swaps out these yet -/
  | taking (snap : MinuteSnapshot) (left : List ThroughputCounter)
  /-- `record_minute` is called -/
  | recording (snap : MinuteSnapshot)
  /-- `rollup_hourly` is called -/
  | rollingHours
  /-- `rollup_daily` is called -/
  | rollingDays
  /-- it looks whether a day has passed -/
  | pruning
  deriving DecidableEq

/-- What the loop has taken out of the counters, and not recorded. -/
def TimeseriesPhase.inHand : TimeseriesPhase → MinuteSnapshot
  | taking snap _ | recording snap => snap
  | _ => 0

/-- The counters, the loop and the store. -/
structure Throughput where
  slowThresholdUs : Nat
  retentionDays : Nat
  counters : Accumulator MinuteSnapshot
  phase : TimeseriesPhase
  world : TimeseriesWorld
  /-- the snapshots whose recording has failed, which the source drops -/
  lost : MinuteSnapshot

/-- What happens, in whatever order: sessions count their queries one counter at a time, and the loop goes through its
minute. -/
inductive ThroughputEvent : Type where
  /-- a session records a query -/
  | record (durationUs : Nat)
  /-- it changes its next counter -/
  | add (session : Nat)
  /-- a minute has passed -/
  | tick
  /-- the loop swaps out the next counter -/
  | swap
  /-- its call ends, at a time; a call that fails changes nothing -/
  | called (now : Nat) (ok : Bool)
  /-- no pruning is due -/
  | notDue
  deriving DecidableEq

namespace Throughput

/-- `ThroughputCounters::new`, and an empty store. -/
def start (slowThresholdUs retentionDays : Nat) : Throughput :=
  ⟨slowThresholdUs, retentionDays, .empty, .waiting, .start, 0⟩

variable (s : Throughput)

/-- The call the loop makes. -/
def pendingCall (now : Nat) : Option TimeseriesCall :=
  match s.phase with
  | .recording snap => some (.recordMinute now snap)
  | .rollingHours => some .rollupHourly
  | .rollingDays => some .rollupDaily
  | .pruning => some (.prune now s.retentionDays)
  | _ => none

/-- Where the loop goes after a call. -/
def nextPhase : TimeseriesPhase :=
  match s.phase with
  | .recording _ => .rollingHours
  | .rollingHours => .rollingDays
  | .rollingDays => .pruning
  | _ => .waiting

/-- Perform an event; `none` where it is not the turn of whoever would do it. -/
def step : ThroughputEvent → Option Throughput
  | .record durationUs =>
    some { s with counters := s.counters.enter (recordParts s.slowThresholdUs durationUs) }
  | .add i => (s.counters.add i).map fun counters => { s with counters := counters }
  | .tick => if s.phase = .waiting then some { s with phase := .taking 0 ThroughputCounter.swapped } else none
  | .swap =>
    match s.phase with
    | .taking snap (c :: left) => some { s with
        counters := s.counters.take (c.only s.counters.held) (c.reset s.counters.held) (c.only_add_reset _)
        phase := .taking (snap + c.only s.counters.held) left }
    | .taking snap [] => some { s with phase := .recording snap }
    | _ => none
  | .called now ok =>
    (s.pendingCall now).bind fun call =>
      if ok then (s.world.step call).map fun world => { s with phase := s.nextPhase, world := world }
      else some { s with phase := s.nextPhase, lost := s.lost + s.phase.inHand }
  | .notDue => if s.phase = .pruning then some { s with phase := .waiting } else none

variable {s} {s' : Throughput} {e : ThroughputEvent} {events : List ThroughputEvent}

/-! ## Conservation -/

/-- What was recorded in the store. -/
def inRows (s : Throughput) : MinuteSnapshot := (s.world.recorded.map Prod.snd).sum

/-- What was taken out of the counters was recorded, lost, or is in the loop's hand. -/
def Kept (s : Throughput) : Prop := s.counters.taken = s.inRows + s.lost + s.phase.inHand

/-- What an event begins to add. -/
def begins (slowThresholdUs : Nat) : ThroughputEvent → MinuteSnapshot
  | .record durationUs => .ofQuery slowThresholdUs durationUs
  | _ => 0

/-- A call that succeeds records what is in the loop's hand. -/
theorem recorded_called {now : Nat} {call : TimeseriesCall} {world : TimeseriesWorld}
    (hcall : call ∈ s.pendingCall now) (hstep : s.world.step call = some world) :
    (world.recorded.map Prod.snd).sum = s.phase.inHand + s.inRows := by
  rw [pendingCall] at hcall
  split at hcall
  · rename_i snap hphase
    cases hcall
    obtain ⟨-, heq⟩ := Option.ite_none_right_eq_some.mp hstep
    cases heq
    rw [hphase]
    rfl
  · rename_i hphase
    cases hcall
    cases hstep
    rw [hphase]
    exact (zero_add _).symm
  · rename_i hphase
    cases hcall
    cases hstep
    rw [hphase]
    exact (zero_add _).symm
  · rename_i hphase
    cases hcall
    obtain ⟨-, heq⟩ := Option.ite_none_right_eq_some.mp hstep
    cases heq
    rw [hphase]
    exact (zero_add _).symm
  · cases hcall

/-- After a call, the loop has nothing in its hand. -/
theorem inHand_nextPhase {now : Nat} {call : TimeseriesCall} (hcall : call ∈ s.pendingCall now) :
    s.nextPhase.inHand = 0 := by
  rw [pendingCall] at hcall
  rw [nextPhase]
  split at hcall
  · rename_i hphase
    rw [hphase]
    rfl
  · rename_i hphase
    rw [hphase]
    rfl
  · rename_i hphase
    rw [hphase]
    rfl
  · rename_i hphase
    rw [hphase]
    rfl
  · cases hcall

/-- Every event keeps what was taken, and begins to add what it says. -/
theorem Kept.step (h : s.Kept) (hstep : s.step e = some s') :
    s'.Kept ∧ s'.counters.begun = s.counters.begun + begins s.slowThresholdUs e ∧
      s'.slowThresholdUs = s.slowThresholdUs := by
  cases e with
  | record durationUs =>
    cases hstep
    exact ⟨h, (s.counters.begun_enter _).trans (congrArg _ (sum_recordParts ..)), rfl⟩
  | add i =>
    obtain ⟨counters, hadd, rfl⟩ := Option.map_eq_some_iff.mp hstep
    obtain ⟨hbegun, htaken⟩ := Accumulator.begun_add hadd
    exact ⟨htaken.trans h, hbegun.trans (add_zero _).symm, rfl⟩
  | tick =>
    obtain ⟨hphase, heq⟩ := Option.ite_none_right_eq_some.mp hstep
    cases heq
    rw [Kept, hphase] at h
    exact ⟨h, (add_zero _).symm, rfl⟩
  | swap =>
    rw [Throughput.step] at hstep
    split at hstep
    · rename_i snap c left hphase
      cases hstep
      rw [Kept, hphase] at h
      refine ⟨?_, (add_zero _).symm, rfl⟩
      change s.counters.taken + c.only s.counters.held = s.inRows + s.lost + (snap + c.only s.counters.held)
      rw [h, add_assoc]
      rfl
    · rename_i snap hphase
      cases hstep
      rw [Kept, hphase] at h
      exact ⟨h, (add_zero _).symm, rfl⟩
    · cases hstep
  | called now ok =>
    obtain ⟨call, hcall, heq⟩ := Option.bind_eq_some_iff.mp hstep
    split at heq
    · obtain ⟨world, hworld, rfl⟩ := Option.map_eq_some_iff.mp heq
      refine ⟨?_, (add_zero _).symm, rfl⟩
      change s.counters.taken = (world.recorded.map Prod.snd).sum + s.lost + s.nextPhase.inHand
      rw [recorded_called hcall hworld, inHand_nextPhase hcall, add_zero, add_assoc, add_comm, h]
    · cases heq
      refine ⟨?_, (add_zero _).symm, rfl⟩
      change s.counters.taken = s.inRows + (s.lost + s.phase.inHand) + s.nextPhase.inHand
      rw [inHand_nextPhase hcall, add_zero, ← add_assoc, h]
  | notDue =>
    obtain ⟨hphase, heq⟩ := Option.ite_none_right_eq_some.mp hstep
    cases heq
    rw [Kept, hphase] at h
    exact ⟨h, (add_zero _).symm, rfl⟩

/-- A run keeps it, and begins to record what its events say. -/
theorem Kept.run (h : s.Kept) (hrun : TurbineProxy.run Throughput.step s events = some s') :
    s'.Kept ∧ s'.counters.begun = s.counters.begun + (events.map (begins s.slowThresholdUs)).sum := by
  induction events generalizing s with
  | nil =>
    cases hrun
    exact ⟨h, (add_zero _).symm⟩
  | cons e events ih =>
    obtain ⟨t, hstep, hrest⟩ := Option.bind_eq_some_iff.mp hrun
    obtain ⟨ht, hbegun, hsame⟩ := h.step hstep
    obtain ⟨hs', hbegun'⟩ := ih ht hrest
    refine ⟨hs', ?_⟩
    rw [hbegun', hbegun, hsame, List.map_cons, List.sum_cons, add_assoc]

theorem kept_start (slowThresholdUs retentionDays : Nat) : (start slowThresholdUs retentionDays).Kept := rfl

/-! ## Rows -/

/-- Every call succeeds, and a pruning does not cut through a day. -/
def Undisturbed (s : Throughput) (e : ThroughputEvent) : Prop :=
  ∀ now ok, e = .called now ok → ok = true ∧ ∀ call ∈ s.pendingCall now, s.world.Clean call

/-- What the rows of hours and days know of is all that was recorded, unless the loop is about to sum it up. -/
def Synced (s : Throughput) : Prop :=
  match s.phase with
  | .rollingHours => True
  | .rollingDays => s.world.inHours = s.world.recorded
  | _ => s.world.inHours = s.world.recorded ∧ s.world.inDays = s.world.recorded

/-- Such an event keeps the rows sound, and loses nothing. -/
theorem step_undisturbed (hok : s.Undisturbed e) (hstep : s.step e = some s')
    (h : s.world.Sound ∧ s.Synced ∧ s.lost = 0) : s'.world.Sound ∧ s'.Synced ∧ s'.lost = 0 := by
  obtain ⟨hsound, hsynced, hlost⟩ := h
  cases e with
  | record durationUs =>
    cases hstep
    exact ⟨hsound, hsynced, hlost⟩
  | add i =>
    obtain ⟨counters, hadd, rfl⟩ := Option.map_eq_some_iff.mp hstep
    exact ⟨hsound, hsynced, hlost⟩
  | tick =>
    obtain ⟨hphase, heq⟩ := Option.ite_none_right_eq_some.mp hstep
    cases heq
    rw [Synced, hphase] at hsynced
    exact ⟨hsound, hsynced, hlost⟩
  | swap =>
    rw [step] at hstep
    split at hstep
    · rename_i snap c left hphase
      cases hstep
      rw [Synced, hphase] at hsynced
      exact ⟨hsound, hsynced, hlost⟩
    · rename_i snap hphase
      cases hstep
      rw [Synced, hphase] at hsynced
      exact ⟨hsound, hsynced, hlost⟩
    · cases hstep
  | called now ok =>
    -- the call succeeds, and the loop goes on to the next one
    obtain ⟨rfl, hclean⟩ := hok now ok rfl
    obtain ⟨call, hcall, heq⟩ := Option.bind_eq_some_iff.mp hstep
    obtain ⟨world, hworld, rfl⟩ := Option.map_eq_some_iff.mp heq
    refine ⟨hsound.step (hclean call hcall) hworld, ?_, hlost⟩
    rw [pendingCall] at hcall
    rw [Synced] at hsynced ⊢
    dsimp only [nextPhase]
    split at hcall
    · rename_i snap hphase
      rw [hphase]
      trivial
    · rename_i hphase
      cases hcall
      cases hworld
      rw [hphase]
    · rename_i hphase
      cases hcall
      cases hworld
      rw [hphase] at hsynced ⊢
      exact ⟨hsynced, hsynced⟩
    · rename_i hphase
      cases hcall
      obtain ⟨-, heq⟩ := Option.ite_none_right_eq_some.mp hworld
      cases heq
      rw [hphase] at hsynced ⊢
      exact hsynced
    · cases hcall
  | notDue =>
    obtain ⟨hphase, heq⟩ := Option.ite_none_right_eq_some.mp hstep
    cases heq
    rw [Synced, hphase] at hsynced
    exact ⟨hsound, hsynced, hlost⟩

/-- The minutes of a day that is intact add up to what was recorded in it. -/
theorem total_minutes {w : TimeseriesWorld} {day : Nat} (h : w.Intact day) :
    total (groupOf 86400 · == day) w.store.minutes = total (groupOf 86400 · == day) w.recorded := by
  have hgroups : ∀ hour, (groupOf 86400 hour == day) = true →
      total (· == hour) (rollUp 3600 w.store.minutes []) = total (groupOf 3600 · == hour) w.store.minutes := by
    intro hour _
    have hnone : (keys ([] : Rows MinuteSnapshot)).Nodup := List.nodup_nil
    rw [total_rollUp hnone]
    split
    · rfl
    · rename_i hempty
      exact (total_eq_zero_of_not_mem_groups hempty).symm
  have hminutes := total_of_groups (q := fun b => groupOf 86400 b == day) hgroups
  have hrecorded := total_of_groups (q := fun b => groupOf 86400 b == day)
    fun hour hhour => (hgroups hour hhour).trans (h.minutes hour (beq_iff_eq.mp hhour))
  simp only [TimeseriesWorld.groupOf_hour] at hminutes hrecorded
  exact hminutes.symm.trans hrecorded

/-- What sessions, the loop and the clock do in whatever order, and whichever calls fail: a query that was begun to be
recorded is in the store, in a snapshot that could not be recorded, in the loop's hand, in the counters, or its session
has yet to count it; each part of it is in one of these. If no call has failed and no pruning has cut through a day,
then between two ticks the minutes and hours of every day, and its row, show what was recorded in it, or the day is over
and nothing is left of it. -/
theorem throughput_conserved {slowThresholdUs retentionDays : Nat} {events : List ThroughputEvent} {s : Throughput}
    (hrun : TurbineProxy.run step (start slowThresholdUs retentionDays) events = some s) :
    s.inRows + s.lost + s.phase.inHand + s.counters.held + s.counters.owed =
      (events.map (begins slowThresholdUs)).sum ∧
    (Steps step Undisturbed (start slowThresholdUs retentionDays) events s → s.phase = .waiting →
      s.lost = 0 ∧ ∀ day,
        (total (groupOf 86400 · == day) s.world.store.minutes = total (groupOf 86400 · == day) s.world.recorded ∧
          total (groupOf 86400 · == day) s.world.store.hours = total (groupOf 86400 · == day) s.world.recorded ∧
          ∀ snap, (day, snap) ∈ s.world.store.days → snap = total (groupOf 86400 · == day) s.world.recorded) ∨
        s.world.Gone day) := by
  constructor
  · obtain ⟨hkept, hbegun⟩ := (kept_start slowThresholdUs retentionDays).run hrun
    rw [← hkept, ← Accumulator.begun_eq, hbegun]
    exact zero_add _
  · intro h hwaiting
    obtain ⟨hsound, hsynced, hlost⟩ := h.induct (P := fun s => s.world.Sound ∧ s.Synced ∧ s.lost = 0)
      (fun _ _ _ hs hok hstep => step_undisturbed hok hstep hs) ⟨TimeseriesWorld.sound_start, ⟨rfl, rfl⟩, rfl⟩
    rw [Synced, hwaiting] at hsynced
    refine ⟨hlost, fun day => ?_⟩
    rcases hsound.rows day with hintact | hgone
    · refine .inl ⟨total_minutes hintact, ?_, fun snap hsnap => ?_⟩
      · rw [hintact.day_eq, hsynced.1]
      · rw [hintact.row snap hsnap, hsynced.2]
    · exact .inr hgone

/-- A query of five milliseconds is recorded and rolled up, another one is half counted. -/
def oneMinute : List ThroughputEvent :=
  [.record 5000, .add 0, .add 0, .tick, .swap, .add 0, .swap, .swap, .swap, .swap, .called 60 true, .called 60 true,
    .called 60 true, .notDue, .record 20000, .add 1]

/-- What is checked on the way: the call succeeds, and prunes nothing. -/
def checked (s : Throughput) : ThroughputEvent → Bool
  | .called _ ok => ok && s.phase != .pruning
  | _ => true

theorem undisturbed_of_checked (s : Throughput) (e : ThroughputEvent) (h : s.checked e = true) : s.Undisturbed e := by
  rintro now ok rfl
  obtain ⟨hok, hphase⟩ := Bool.and_eq_true_iff.mp h
  refine ⟨hok, fun call hcall => ?_⟩
  rw [pendingCall] at hcall
  split at hcall
  · cases hcall
    trivial
  · cases hcall
    trivial
  · cases hcall
    trivial
  · rename_i hpruning
    rw [hpruning] at hphase
    cases hphase
  · cases hcall

theorem throughput_conserved_oneMinute :
    ∃ s, TurbineProxy.run step (start 10000 30) oneMinute = some s ∧
      s.inRows + s.lost + s.phase.inHand + s.counters.held + s.counters.owed = ⟨2, 1, 25000, 20000⟩ ∧ s.lost = 0 := by
  have hsome : (TurbineProxy.run (fun s e => if s.checked e then step s e else none) (start 10000 30) oneMinute).map
      Throughput.phase = some .waiting := rfl
  obtain ⟨s, hchecked, hphase⟩ := Option.map_eq_some_iff.mp hsome
  have hsteps := steps_of_checked undisturbed_of_checked hchecked
  have hall := throughput_conserved hsteps.run
  exact ⟨s, hsteps.run, hall.1, (hall.2 hsteps hphase).1⟩

end Throughput

end TurbineProxy

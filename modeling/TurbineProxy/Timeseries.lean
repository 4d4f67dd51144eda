import TurbineProxy.Rollup
import TurbineProxy.Threads

/-!
# Roll-ups of the query load

The time-series store keeps a row for every minute, hour and day. Hours are summed up from the minutes that
are there, days from the hours, and pruning deletes what is old from all three. `rollups_exact` says in
which runs the rows of hours and days show everything that was ever recorded in them: those in which no
pruning cuts through a day.
-/

namespace TurbineProxy

open Rollup

/-- What a minute adds to the counters. -/
structure MinuteSnapshot where
  queries : Nat
  slow : Nat
  totalUs : Nat
  maxUs : Nat
  deriving DecidableEq, Repr

namespace MinuteSnapshot

/-- Counters are added up, of the maxima the larger one is kept. -/
instance : Add MinuteSnapshot where
  add a b := ⟨a.queries + b.queries, a.slow + b.slow, a.totalUs + b.totalUs, max a.maxUs b.maxUs⟩

instance : Zero MinuteSnapshot where
  zero := ⟨0, 0, 0, 0⟩

theorem add_def (a b : MinuteSnapshot) : a + b =
    ⟨a.queries + b.queries, a.slow + b.slow, a.totalUs + b.totalUs, max a.maxUs b.maxUs⟩ := rfl

theorem zero_def : (0 : MinuteSnapshot) = ⟨0, 0, 0, 0⟩ := rfl

instance : AddCommMonoid MinuteSnapshot where
  add_assoc a b c := by
    simp only [add_def, Nat.add_assoc, Nat.max_assoc]
  zero_add a := by
    simp only [add_def, zero_def, Nat.zero_add, Nat.zero_max]
  add_zero a := by
    simp only [add_def, zero_def, Nat.add_zero, Nat.max_zero]
  add_comm a b := by
    simp only [add_def, mk.injEq]
    omega
  nsmul := nsmulRec

/-- Counters do not cancel out. -/
instance : Subsingleton (AddUnits MinuteSnapshot) := by
  have hzero : ∀ u : AddUnits MinuteSnapshot, u = 0 := by
    intro u
    have hsum := u.val_neg
    ext1
    rcases hu : (u : MinuteSnapshot) with ⟨queries, slow, totalUs, maxUs⟩
    rw [hu] at hsum
    simp only [add_def, zero_def, mk.injEq] at hsum
    simp only [AddUnits.val_zero, zero_def, mk.injEq]
    omega
  exact ⟨fun u u' => (hzero u).trans (hzero u').symm⟩

end MinuteSnapshot

/-- The rows of the store, by resolution. -/
structure TimeseriesStore where
  minutes : Rows MinuteSnapshot
  hours : Rows MinuteSnapshot
  days : Rows MinuteSnapshot

namespace TimeseriesStore

/-- Add a snapshot to the row of its minute. -/
def recordMinute (store : TimeseriesStore) (bucketUnix : Nat) (snap : MinuteSnapshot) : TimeseriesStore :=
  { store with minutes := upsert bucketUnix snap store.minutes }

/-- Sum up minutes into hours. -/
def rollupHourly (store : TimeseriesStore) : TimeseriesStore :=
  { store with hours := rollUp 3600 store.minutes store.hours }

/-- Sum up hours into days. -/
def rollupDaily (store : TimeseriesStore) : TimeseriesStore :=
  { store with days := rollUp 86400 store.hours store.days }

/-- The instant before which rows are deleted. -/
def cutoff (now retentionDays : Nat) : Nat := now - retentionDays * 86400

/-- Delete old rows of every resolution. -/
def prune (store : TimeseriesStore) (now retentionDays : Nat) : TimeseriesStore :=
  let cutoff := cutoff now retentionDays
  ⟨Rollup.prune cutoff store.minutes, Rollup.prune cutoff store.hours, Rollup.prune cutoff store.days⟩

end TimeseriesStore

/-- The calls of the background task; `now` is the time they are made at. -/
inductive TimeseriesCall where
  /-- a snapshot is recorded -/
  | recordMinute (now : Nat) (snap : MinuteSnapshot)
  /-- minutes are summed up -/
  | rollupHourly
  /-- hours are summed up -/
  | rollupDaily
  /-- old rows are deleted -/
  | prune (now retentionDays : Nat)

/-- A tick of the background task. Old rows are deleted in the ticks in which a day has passed. -/
def tick (now : Nat) (snap : MinuteSnapshot) (retentionDays : Nat) (due : Bool) : List TimeseriesCall :=
  [.recordMinute now snap, .rollupHourly, .rollupDaily] ++ if due then [.prune now retentionDays] else []

/-- The store, the time of the latest call, and what was recorded: all of it, what the rows of hours can
know of, and what the rows of days can know of; the latest first. -/
structure TimeseriesWorld where
  store : TimeseriesStore
  clock : Nat
  recorded : Rows MinuteSnapshot
  inHours : Rows MinuteSnapshot
  inDays : Rows MinuteSnapshot

namespace TimeseriesWorld

/-- An empty store, in which nothing has been recorded. -/
def start : TimeseriesWorld := ⟨⟨[], [], []⟩, 0, [], [], []⟩

/-- Perform a call. Time does not go back. -/
def step (w : TimeseriesWorld) : TimeseriesCall → Option TimeseriesWorld
  | .recordMinute now snap =>
    if w.clock ≤ now then
      let bucket := now / 60 * 60
      some { w with
        store := w.store.recordMinute bucket snap
        clock := now
        recorded := (bucket, snap) :: w.recorded }
    else none
  | .rollupHourly => some { w with store := w.store.rollupHourly, inHours := w.recorded }
  | .rollupDaily => some { w with store := w.store.rollupDaily, inDays := w.inHours }
  | .prune now retentionDays =>
    if w.clock ≤ now then some { w with store := w.store.prune now retentionDays, clock := now } else none

/-- A pruning does not cut through a day: what it deletes of the day of its cutoff adds nothing, or it
deletes all of the day, and the day is over. -/
def Clean (w : TimeseriesWorld) : TimeseriesCall → Prop
  | .prune now retentionDays =>
    let cutoff := TimeseriesStore.cutoff now retentionDays
    let rows := (w.store.minutes ++ w.store.hours).filter fun r => groupOf 86400 r.1 == groupOf 86400 cutoff
    (∀ r ∈ rows, r.1 < cutoff → r.2 = 0) ∨
      groupOf 86400 cutoff + 86400 ≤ now ∧ ∀ r ∈ rows, r.1 < cutoff
  | _ => True

/-- The snapshots recorded in an interval. -/
def snapshots (width g : Nat) (log : Rows MinuteSnapshot) : Rows MinuteSnapshot :=
  log.filter fun r => groupOf width r.1 == g

/-- Nothing was recorded in an hour after the last time its row was summed up. -/
def HourComplete (w : TimeseriesWorld) (hour : Nat) : Prop :=
  snapshots 3600 hour w.inHours = snapshots 3600 hour w.recorded

/-- Nothing was recorded in a day after the last time its row was summed up. -/
def DayComplete (w : TimeseriesWorld) (day : Nat) : Prop :=
  snapshots 86400 day w.inDays = snapshots 86400 day w.recorded

/-- Rows of hours and days show everything recorded in them. -/
structure Exact (w : TimeseriesWorld) : Prop where
  /-- the hours -/
  hours : ∀ hour snap, (hour, snap) ∈ w.store.hours → w.HourComplete hour →
    snap = ((snapshots 3600 hour w.recorded).map Prod.snd).sum
  /-- the days -/
  days : ∀ day snap, (day, snap) ∈ w.store.days → w.DayComplete day →
    snap = ((snapshots 86400 day w.recorded).map Prod.snd).sum

/-- What happened between two states did not change the rows of hours and days to which nothing was added. -/
structure Unchanged (w w' : TimeseriesWorld) : Prop where
  /-- the hours -/
  hours : ∀ hour snap snap', snapshots 3600 hour w'.recorded = snapshots 3600 hour w.recorded →
    (hour, snap) ∈ w.store.hours → w.HourComplete hour →
    (hour, snap') ∈ w'.store.hours → w'.HourComplete hour → snap' = snap
  /-- the days -/
  days : ∀ day snap snap', snapshots 86400 day w'.recorded = snapshots 86400 day w.recorded →
    (day, snap) ∈ w.store.days → w.DayComplete day →
    (day, snap') ∈ w'.store.days → w'.DayComplete day → snap' = snap

/-- Nothing of a day is missing. -/
structure Intact (w : TimeseriesWorld) (day : Nat) : Prop where
  /-- its minutes -/
  minutes : ∀ hour, groupOf 86400 hour = day →
    total (groupOf 3600 · == hour) w.store.minutes = total (groupOf 3600 · == hour) w.recorded
  /-- its hours -/
  hours : ∀ hour, groupOf 86400 hour = day →
    total (· == hour) w.store.hours = total (groupOf 3600 · == hour) w.inHours
  /-- its row -/
  row : ∀ snap, (day, snap) ∈ w.store.days → snap = total (groupOf 86400 · == day) w.inDays

/-- A day is over, and nothing of it is left. -/
structure Gone (w : TimeseriesWorld) (day : Nat) : Prop where
  /-- it is over -/
  past : day + 86400 ≤ w.clock
  /-- its minutes -/
  minutes : ∀ r ∈ w.store.minutes, groupOf 86400 r.1 ≠ day
  /-- its hours -/
  hours : ∀ r ∈ w.store.hours, groupOf 86400 r.1 ≠ day
  /-- its row -/
  row : ∀ snap, (day, snap) ∉ w.store.days

/-- Nothing or everything of a day is missing. -/
structure Sound (w : TimeseriesWorld) : Prop where
  /-- the rows -/
  rows : ∀ day, w.Intact day ∨ w.Gone day
  /-- hours have one row -/
  nodup : (keys w.store.hours).Nodup
  /-- what days know of, hours know of -/
  inDays : w.inDays <:+ w.inHours
  /-- what hours know of was recorded -/
  inHours : w.inHours <:+ w.recorded

variable {w w' : TimeseriesWorld} {now day hour : Nat}

/-! ## Hours and days -/

theorem groupOf_hour (b : Nat) : groupOf 86400 (groupOf 3600 b) = groupOf 86400 b := by
  unfold groupOf
  omega

/-- The minute of an instant is in the day of the instant. -/
theorem groupOf_minute (now : Nat) : groupOf 86400 (now / 60 * 60) = groupOf 86400 now := by
  unfold groupOf
  omega

/-- An instant after a day is not in it. -/
theorem groupOf_ne (h : day + 86400 ≤ now) : groupOf 86400 now ≠ day := by
  intro heq
  have hlt : now < groupOf 86400 now + 86400 := lt_groupOf_add (by decide) now
  omega

/-- Days before another one are over when it begins. -/
theorem day_add_le {b cutoff : Nat} (h : groupOf 86400 b < groupOf 86400 cutoff) :
    groupOf 86400 b + 86400 ≤ groupOf 86400 cutoff := by
  unfold groupOf at h ⊢
  omega

/-- Hours add up to the day. -/
theorem Intact.day_eq (h : w.Intact day) : total (groupOf 86400 · == day) w.store.hours =
    total (groupOf 86400 · == day) w.inHours := by
  have hgroups := total_of_groups (q := fun b => groupOf 86400 b == day) (f := groupOf 3600)
    fun hour hhour => h.hours hour (beq_iff_eq.mp hhour)
  simpa only [groupOf_hour] using hgroups

/-! ## What the calls keep -/

theorem Sound.recordMinute (h : w.Sound) (hclock : w.clock ≤ now) (snap : MinuteSnapshot) :
    Sound { w with
      store := w.store.recordMinute (now / 60 * 60) snap
      clock := now
      recorded := (now / 60 * 60, snap) :: w.recorded } := by
  refine ⟨fun day => ?_, h.nodup, h.inDays, h.inHours.trans (List.suffix_cons _ _)⟩
  rcases h.rows day with hintact | hgone
  · refine .inl ⟨fun hour hhour => ?_, hintact.hours, hintact.row⟩
    rw [TimeseriesStore.recordMinute]
    rw [total_upsert, total_cons, hintact.minutes hour hhour]
  · have hover : day + 86400 ≤ now := Nat.le_trans hgone.past hclock
    refine .inr ⟨hover, fun r hr => ?_, hgone.hours, hgone.row⟩
    rcases mem_keys_upsert.mp (List.mem_map_of_mem (f := Prod.fst) hr) with hkey | hkey
    · rw [hkey, groupOf_minute]
      exact groupOf_ne hover
    · obtain ⟨r', hr', heq⟩ := List.mem_map.mp hkey
      rw [← heq]
      exact hgone.minutes r' hr'

theorem Sound.rollupHourly (h : w.Sound) :
    Sound { w with store := w.store.rollupHourly, inHours := w.recorded } := by
  refine ⟨fun day => ?_, nodup_keys_rollUp h.nodup, h.inDays.trans h.inHours, List.suffix_refl _⟩
  rcases h.rows day with hintact | hgone
  · refine .inl ⟨hintact.minutes, fun hour hhour => ?_, hintact.row⟩
    refine (total_rollUp h.nodup).trans ?_
    have hminutes := hintact.minutes hour hhour
    split
    · exact hminutes
    · -- no minute of the hour is there, so that what was recorded in it adds nothing
      rename_i hempty
      rw [total_eq_zero_of_not_mem_groups hempty] at hminutes
      rw [hintact.hours hour hhour, ← hminutes]
      exact total_suffix_eq_zero h.inHours hminutes.symm
  · refine .inr ⟨hgone.past, hgone.minutes, fun r hr => ?_, hgone.row⟩
    rcases mem_rollUp.mp hr with ⟨hr, -⟩ | ⟨hr, -⟩
    · exact hgone.hours r hr
    · obtain ⟨r', hr', heq⟩ := mem_groups.mp hr
      rw [← heq, groupOf_hour]
      exact hgone.minutes r' hr'

theorem Sound.rollupDaily (h : w.Sound) :
    Sound { w with store := w.store.rollupDaily, inDays := w.inHours } := by
  refine ⟨fun day => ?_, h.nodup, List.suffix_refl _, h.inHours⟩
  rcases h.rows day with hintact | hgone
  · refine .inl ⟨hintact.minutes, hintact.hours, fun snap hsnap => ?_⟩
    have hday := hintact.day_eq
    rcases mem_rollUp.mp hsnap with ⟨hsnap, hempty⟩ | ⟨-, rfl⟩
    · rw [total_eq_zero_of_not_mem_groups hempty] at hday
      rw [hintact.row snap hsnap, ← hday]
      exact total_suffix_eq_zero h.inDays hday.symm
    · exact hday
  · refine .inr ⟨hgone.past, hgone.minutes, hgone.hours, fun snap hsnap => ?_⟩
    rcases mem_rollUp.mp hsnap with ⟨hsnap, -⟩ | ⟨hsnap, -⟩
    · exact hgone.row snap hsnap
    · obtain ⟨r, hr, heq⟩ := mem_groups.mp hsnap
      exact hgone.hours r hr heq

/-- What is deleted of a day adds nothing. -/
theorem Intact.prune {retentionDays : Nat} (h : w.Intact day)
    (hrows : ∀ r ∈ w.store.minutes ++ w.store.hours, groupOf 86400 r.1 = day →
      r.1 < TimeseriesStore.cutoff now retentionDays → r.2 = 0) :
    Intact { w with store := w.store.prune now retentionDays, clock := now } day := by
  refine ⟨fun hour hhour => ?_, fun hour hhour => ?_, fun snap hsnap => ?_⟩
  · rw [← h.minutes hour hhour]
    refine total_prune fun r hr hkey => hrows r (List.mem_append_left _ hr) ?_
    rw [← groupOf_hour, beq_iff_eq.mp hkey, hhour]
  · rw [← h.hours hour hhour]
    refine total_prune fun r hr hkey => hrows r (List.mem_append_right _ hr) ?_
    rw [beq_iff_eq.mp hkey, hhour]
  · exact h.row snap (mem_prune.mp hsnap).1

/-- A day of which everything is deleted. -/
theorem Gone.prune {retentionDays : Nat} (hover : day + 86400 ≤ now)
    (hrow : day < TimeseriesStore.cutoff now retentionDays)
    (hrows : ∀ r ∈ w.store.minutes ++ w.store.hours, groupOf 86400 r.1 = day →
      r.1 < TimeseriesStore.cutoff now retentionDays) :
    Gone { w with store := w.store.prune now retentionDays, clock := now } day := by
  have hnone : ∀ r ∈ w.store.minutes ++ w.store.hours, TimeseriesStore.cutoff now retentionDays ≤ r.1 →
      groupOf 86400 r.1 ≠ day := fun r hr hkept hday => absurd (hrows r hr hday) (Nat.not_lt.mpr hkept)
  refine ⟨hover, fun r hr => ?_, fun r hr => ?_, fun snap hsnap => ?_⟩
  · obtain ⟨hr, hkept⟩ := mem_prune.mp hr
    exact hnone r (List.mem_append_left _ hr) hkept
  · obtain ⟨hr, hkept⟩ := mem_prune.mp hr
    exact hnone r (List.mem_append_right _ hr) hkept
  · exact absurd hrow (Nat.not_lt.mpr (mem_prune.mp hsnap).2)

theorem Intact.pruned {retentionDays : Nat} (h : w.Intact day) (hok : w.Clean (.prune now retentionDays)) :
    Intact { w with store := w.store.prune now retentionDays, clock := now } day ∨
      Gone { w with store := w.store.prune now retentionDays, clock := now } day := by
  let cutoff := TimeseriesStore.cutoff now retentionDays
  by_cases hbelow : ∃ r ∈ w.store.minutes ++ w.store.hours, groupOf 86400 r.1 = day ∧ r.1 < cutoff
  · obtain ⟨r, hr, rfl, hlow⟩ := hbelow
    have hrow : groupOf 86400 r.1 < cutoff := Nat.lt_of_le_of_lt (groupOf_le _ _) hlow
    have hle : groupOf 86400 r.1 ≤ groupOf 86400 cutoff := groupOf_mono (Nat.le_of_lt hlow)
    rcases Nat.lt_or_eq_of_le hle with hbefore | hsame
    · -- the day is over when the day of the cutoff begins
      have hover := day_add_le hbefore
      have hcutoff : groupOf 86400 cutoff ≤ cutoff := groupOf_le _ _
      have hnow : cutoff ≤ now := Nat.sub_le _ _
      refine .inr (Gone.prune (by omega) hrow fun r' _ hday => ?_)
      have hlt : r'.1 < groupOf 86400 r'.1 + 86400 := lt_groupOf_add (by decide) r'.1
      change r'.1 < cutoff
      omega
    · have hmem : ∀ r' ∈ w.store.minutes ++ w.store.hours, groupOf 86400 r'.1 = groupOf 86400 r.1 →
          r' ∈ (w.store.minutes ++ w.store.hours).filter
            fun r => groupOf 86400 r.1 == groupOf 86400 cutoff := by
        intro r' hr' hday
        exact List.mem_filter.mpr ⟨hr', beq_iff_eq.mpr (hday.trans hsame)⟩
      rcases hok with hzero | ⟨hover, hall⟩
      · exact .inl (h.prune fun r' hr' hday => hzero r' (hmem r' hr' hday))
      · have hover : groupOf 86400 r.1 + 86400 ≤ now := by
          rw [hsame]
          exact hover
        exact .inr (Gone.prune hover hrow fun r' hr' hday => hall r' (hmem r' hr' hday))
  · exact .inl (h.prune fun r hr hday hlow => absurd ⟨r, hr, hday, hlow⟩ hbelow)

theorem Sound.prune (h : w.Sound) (hclock : w.clock ≤ now) {retentionDays : Nat}
    (hok : w.Clean (.prune now retentionDays)) :
    Sound { w with store := w.store.prune now retentionDays, clock := now } := by
  refine ⟨fun day => ?_, nodup_keys_prune h.nodup, h.inDays, h.inHours⟩
  rcases h.rows day with hintact | hgone
  · exact hintact.pruned hok
  · exact .inr ⟨Nat.le_trans hgone.past hclock, fun r hr => hgone.minutes r (mem_prune.mp hr).1,
      fun r hr => hgone.hours r (mem_prune.mp hr).1, fun snap hsnap => hgone.row snap (mem_prune.mp hsnap).1⟩

/-- Every call keeps the rows sound. -/
theorem Sound.step (h : w.Sound) {call : TimeseriesCall} (hok : w.Clean call)
    (hstep : w.step call = some w') : w'.Sound := by
  cases call with
  | recordMinute now snap =>
    obtain ⟨hclock, hstep⟩ := Option.ite_none_right_eq_some.mp hstep
    obtain rfl := Option.some.inj hstep
    exact h.recordMinute hclock snap
  | rollupHourly =>
    obtain rfl := Option.some.inj hstep
    exact h.rollupHourly
  | rollupDaily =>
    obtain rfl := Option.some.inj hstep
    exact h.rollupDaily
  | prune now retentionDays =>
    obtain ⟨hclock, hstep⟩ := Option.ite_none_right_eq_some.mp hstep
    obtain rfl := Option.some.inj hstep
    exact h.prune hclock hok

/-- Every run keeps the rows sound. -/
theorem Sound.steps {calls : List TimeseriesCall} (h : Steps TimeseriesWorld.step Clean w calls w')
    (hw : w.Sound) : w'.Sound :=
  h.induct (fun _ _ _ hw hok hstep => hw.step hok hstep) hw

theorem sound_start : start.Sound := by
  refine ⟨fun day => .inl ⟨fun _ _ => rfl, fun _ _ => rfl, fun snap hsnap => ?_⟩, List.nodup_nil,
    List.suffix_refl _, List.suffix_refl _⟩
  exact absurd hsnap List.not_mem_nil

/-- Sound rows show what was recorded. -/
theorem Sound.exact (h : w.Sound) : w.Exact := by
  constructor
  · intro hour snap hsnap hcomplete
    rcases h.rows (groupOf 86400 hour) with hintact | hgone
    · calc snap = total (· == hour) w.store.hours := (total_of_mem h.nodup hsnap).symm
        _ = total (groupOf 3600 · == hour) w.inHours := hintact.hours hour rfl
        _ = ((snapshots 3600 hour w.recorded).map Prod.snd).sum := by rw [← hcomplete]; rfl
    · exact absurd rfl (hgone.hours (hour, snap) hsnap)
  · intro day snap hsnap hcomplete
    rcases h.rows day with hintact | hgone
    · rw [← hcomplete]
      exact hintact.row snap hsnap
    · exact absurd hsnap (hgone.row snap)

/-- Where rows show what was recorded before and after, they change with it only. -/
theorem Exact.unchanged (h : w.Exact) (h' : w'.Exact) : w.Unchanged w' := by
  constructor
  · intro hour snap snap' hsame hsnap hcomplete hsnap' hcomplete'
    rw [h'.hours hour snap' hsnap' hcomplete', hsame, ← h.hours hour snap hsnap hcomplete]
  · intro day snap snap' hsame hsnap hcomplete hsnap' hcomplete'
    rw [h'.days day snap' hsnap' hcomplete', hsame, ← h.days day snap hsnap hcomplete]

/-- **Roll-ups**: along every run in which no pruning cuts through a day, the rows of hours and days show
everything recorded in them, and later prunings do not change them. -/
theorem rollups_exact {calls : List TimeseriesCall} (h : Steps step Clean start calls w) :
    w.Exact ∧ ∀ calls' w', Steps step Clean w calls' w' → w'.Exact ∧ w.Unchanged w' := by
  have hsound := Sound.steps h sound_start
  refine ⟨hsound.exact, fun calls' w' hlater => ?_⟩
  have hexact' := (Sound.steps hlater hsound).exact
  exact ⟨hexact', hsound.exact.unchanged hexact'⟩

/-! ## Runs -/

/-- A minute with some queries of a millisecond. -/
def queries (n : Nat) : MinuteSnapshot := ⟨n, 0, n * 1000, 1000⟩

/-- What is checked on the way: at a pruning, nothing of the day of the cutoff is deleted. -/
def clean (w : TimeseriesWorld) : TimeseriesCall → Bool
  | .prune now retentionDays =>
    let cutoff := TimeseriesStore.cutoff now retentionDays
    (w.store.minutes ++ w.store.hours).all fun r =>
      groupOf 86400 r.1 != groupOf 86400 cutoff || !decide (r.1 < cutoff)
  | _ => true

theorem clean_of_checked (w : TimeseriesWorld) (call : TimeseriesCall) (h : w.clean call = true) :
    w.Clean call := by
  cases call with
  | prune now retentionDays =>
    refine .inl fun r hr hlow => ?_
    obtain ⟨hr, hday⟩ := List.mem_filter.mp hr
    have hkept := List.all_eq_true.mp h r hr
    simp [beq_iff_eq.mp hday, hlow] at hkept
  | _ => trivial

/-- At ten in the morning of the third day, twice on the fourth day, and at midnight: a day is kept. -/
def atMidnight : List TimeseriesCall :=
  tick (2 * 86400 + 36000) (queries 5) 1 false ++ tick (3 * 86400 + 36000) (queries 7) 1 false ++
    tick (3 * 86400 + 37800) (queries 2) 1 false ++ tick (4 * 86400) (queries 0) 1 true ++
    tick (4 * 86400 + 60) (queries 1) 1 false

theorem rollups_exact_atMidnight : ∃ w, run step start atMidnight = some w ∧
    w.store.hours.map Prod.fst = [3 * 86400 + 36000, 4 * 86400] ∧
    w.store.days.map Prod.fst = [3 * 86400, 4 * 86400] ∧ w.Exact := by
  have hrun : (run (fun w call => if w.clean call then step w call else none) start atMidnight).map
      (fun w => (w.store.hours.map Prod.fst, w.store.days.map Prod.fst)) =
        some ([3 * 86400 + 36000, 4 * 86400], [3 * 86400, 4 * 86400]) := by
    decide +kernel
  obtain ⟨w, hw, hrows⟩ := Option.map_eq_some_iff.mp hrun
  obtain ⟨hhours, hdays⟩ := Prod.mk.inj hrows
  have hsteps := steps_of_checked clean_of_checked hw
  exact ⟨w, hsteps.run, hhours, hdays, (rollups_exact hsteps).1⟩

/-- Five queries at ten, seven at half past ten; a quarter past ten of the next day, all but a day is
deleted. -/
def inTheMorning : List TimeseriesCall :=
  tick (2 * 86400 + 36000) (queries 5) 1 false ++ tick (2 * 86400 + 37800) (queries 7) 1 false ++
    tick (3 * 86400 + 36900) (queries 0) 1 true ++ tick (3 * 86400 + 36960) (queries 0) 1 false

/-- The hour is summed up again, without what was deleted of it. -/
theorem rolled_up_twice : ¬ ∀ (calls : List TimeseriesCall) (w : TimeseriesWorld),
    run step start calls = some w → w.Exact := by
  intro h
  have hrun : (run step start inTheMorning).map (fun w =>
      (decide ((2 * 86400 + 36000, queries 7) ∈ w.store.hours),
        decide (snapshots 3600 (2 * 86400 + 36000) w.inHours = snapshots 3600 (2 * 86400 + 36000) w.recorded),
        ((snapshots 3600 (2 * 86400 + 36000) w.recorded).map Prod.snd).sum)) =
      some (true, true, queries 12) := by decide +kernel
  obtain ⟨w, hw, hrows⟩ := Option.map_eq_some_iff.mp hrun
  simp only [Prod.mk.injEq, decide_eq_true_eq] at hrows
  obtain ⟨hrow, hcomplete, hsum⟩ := hrows
  have hexact := (h inTheMorning w hw).hours _ _ hrow hcomplete
  rw [hsum] at hexact
  exact absurd hexact (by decide)

end TimeseriesWorld

end TurbineProxy

import Mathlib

/-!
# The proleptic Gregorian calendar

Dates and times of day, and how far a date is from the first day of 1970: the days of the years between the two, of
the months before and of the days before. The distance orders the valid dates as their fields do
(`Stamp.seconds_lt_iff`), so that no two of them are equally far away (`Stamp.seconds_inj`).
-/

namespace Calendar

/-! ## Years and months -/

/-- The rule of 4, 100 and 400. -/
def IsLeap (y : ℤ) : Prop := 4 ∣ y ∧ ¬100 ∣ y ∨ 400 ∣ y

instance : DecidablePred IsLeap := fun y => inferInstanceAs (Decidable (4 ∣ y ∧ ¬100 ∣ y ∨ 400 ∣ y))

/-- The days of a month, from 1 to 12. -/
def monthLength (y : ℤ) (m : ℕ) : ℕ :=
  if m = 2 then if IsLeap y then 29 else 28
  else if m = 4 ∨ m = 6 ∨ m = 9 ∨ m = 11 then 30
  else 31

/-- The days before a month, in its year. -/
def monthStart (y : ℤ) (m : ℕ) : ℕ := ∑ i ∈ Finset.Ico 1 m, monthLength y i

/-- The days of a year. -/
def yearLength (y : ℤ) : ℕ := monthStart y 13

/-- The days from the first day of 1970 to the first day of a year; negative for the years before. -/
def yearStart (y : ℤ) : ℤ :=
  ∑ i ∈ Finset.range (y - 1970).toNat, (yearLength (1970 + i) : ℤ) -
    ∑ i ∈ Finset.range (1970 - y).toNat, (yearLength (y + i) : ℤ)

variable {y : ℤ} {m : ℕ}

theorem monthStart_one (y : ℤ) : monthStart y 1 = 0 := rfl

theorem monthStart_succ (h : 1 ≤ m) : monthStart y (m + 1) = monthStart y m + monthLength y m :=
  Finset.sum_Ico_succ_top h _

theorem monthStart_mono (y : ℤ) : Monotone (monthStart y) := fun _ _ h =>
  Finset.sum_le_sum_of_subset (Finset.Ico_subset_Ico_right h)

/-- A month lies within its year. -/
theorem monthStart_add_le (h₁ : 1 ≤ m) (h₂ : m ≤ 12) : monthStart y m + monthLength y m ≤ yearLength y :=
  (monthStart_succ h₁).symm.trans_le (monthStart_mono y (Nat.succ_le_succ h₂))

theorem yearLength_eq (y : ℤ) : yearLength y = if IsLeap y then 366 else 365 := by
  by_cases h : IsLeap y <;> simp [yearLength, monthStart, Finset.sum_Ico_eq_sum_range, Finset.sum_range_succ,
    monthLength, h]

theorem yearLength_pos (y : ℤ) : 0 < yearLength y := by
  rw [yearLength_eq]
  split <;> decide

theorem yearStart_epoch : yearStart 1970 = 0 := by simp [yearStart]

theorem yearStart_succ (y : ℤ) : yearStart (y + 1) = yearStart y + yearLength y := by
  unfold yearStart
  rcases le_or_gt 1970 y with h | h
  · obtain ⟨n, rfl⟩ := Int.le.dest h
    have hafter : (1970 - (1970 + (n : ℤ))).toNat = 0 := by omega
    have hafter' : (1970 - (1970 + (n : ℤ) + 1)).toNat = 0 := by omega
    have hlast : (1970 + (n : ℤ) + 1 - 1970).toNat = (1970 + (n : ℤ) - 1970).toNat + 1 := by omega
    have htop : (1970 + (n : ℤ) - 1970).toNat = n := by omega
    rw [hafter, hafter', hlast, Finset.sum_range_succ, htop]
    simp
  · have hbefore : (y - 1970).toNat = 0 := by omega
    have hbefore' : (y + 1 - 1970).toNat = 0 := by omega
    have hfirst : (1970 - y).toNat = (1970 - (y + 1)).toNat + 1 := by omega
    rw [hbefore, hbefore', hfirst, Finset.sum_range_succ']
    simp [add_right_comm, ← add_assoc]

theorem yearStart_strictMono : StrictMono yearStart :=
  strictMono_int_of_lt_succ fun y => by
    rw [yearStart_succ]
    have hpos := yearLength_pos y
    omega

/-! ## Dates with a time of day -/

/-- A day of the calendar and a time of that day. -/
structure Stamp where
  year : ℤ
  month : ℕ
  day : ℕ
  hour : ℕ
  minute : ℕ
  second : ℕ

namespace Stamp

/-- The calendar has the day, and the day has the time. -/
structure Valid (s : Stamp) : Prop where
  one_le_month : 1 ≤ s.month
  month_le : s.month ≤ 12
  one_le_day : 1 ≤ s.day
  day_le : s.day ≤ monthLength s.year s.month
  hour_lt : s.hour < 24
  minute_lt : s.minute < 60
  second_lt : s.second < 60

/-- The days of its year before the day of a stamp. -/
def dayOfYear (s : Stamp) : ℕ := monthStart s.year s.month + (s.day - 1)

/-- The days from the first day of 1970. -/
def days (s : Stamp) : ℤ := yearStart s.year + s.dayOfYear

/-- The seconds of its day. -/
def timeOfDay (s : Stamp) : ℕ := 3600 * s.hour + 60 * s.minute + s.second

/-- The seconds from 1970-01-01T00:00:00Z. -/
def seconds (s : Stamp) : ℤ := 86400 * s.days + s.timeOfDay

/-- The fields, for the lexicographic order. -/
def fields (s : Stamp) : ℤ ×ₗ ℕ ×ₗ ℕ ×ₗ ℕ ×ₗ ℕ ×ₗ ℕ :=
  toLex (s.year, toLex (s.month, toLex (s.day, toLex (s.hour, toLex (s.minute, s.second)))))

variable {s t : Stamp}

theorem fields_lt_iff : s.fields < t.fields ↔
    s.year < t.year ∨ s.year = t.year ∧ (s.month < t.month ∨ s.month = t.month ∧ (s.day < t.day ∨ s.day = t.day ∧
      (s.hour < t.hour ∨ s.hour = t.hour ∧ (s.minute < t.minute ∨ s.minute = t.minute ∧ s.second < t.second)))) := by
  simp [fields, Prod.Lex.toLex_lt_toLex]

theorem fields_inj (h : s.fields = t.fields) : s = t := by
  cases s
  cases t
  simpa [fields] using h

theorem dayOfYear_lt (hs : s.Valid) : s.dayOfYear < yearLength s.year := by
  have hwithin := monthStart_add_le (y := s.year) hs.one_le_month hs.month_le
  have hday := hs.day_le
  have hone := hs.one_le_day
  unfold dayOfYear
  omega

theorem timeOfDay_lt (hs : s.Valid) : s.timeOfDay < 86400 := by
  have hhour := hs.hour_lt
  have hminute := hs.minute_lt
  have hsecond := hs.second_lt
  unfold timeOfDay
  omega

/-- The earlier year has the earlier day. -/
theorem days_lt_of_year (hs : s.Valid) (h : s.year < t.year) : s.days < t.days := by
  have hnext : yearStart (s.year + 1) ≤ yearStart t.year := yearStart_strictMono.monotone h
  have hlt := dayOfYear_lt hs
  rw [yearStart_succ] at hnext
  unfold days
  omega

/-- In one year the earlier month has the earlier day. -/
theorem days_lt_of_month (hs : s.Valid) (hyear : s.year = t.year) (h : s.month < t.month) :
    s.days < t.days := by
  have hnext : monthStart s.year (s.month + 1) ≤ monthStart s.year t.month := monthStart_mono _ h
  have hday := hs.day_le
  have hone := hs.one_le_day
  rw [monthStart_succ hs.one_le_month] at hnext
  unfold days dayOfYear
  rw [← hyear]
  omega

theorem days_lt_of_day (hs : s.Valid) (hyear : s.year = t.year) (hmonth : s.month = t.month)
    (h : s.day < t.day) : s.days < t.days := by
  have hone := hs.one_le_day
  unfold days dayOfYear
  rw [← hyear, ← hmonth]
  omega

/-- The earlier day has the earlier second. -/
theorem seconds_lt_of_days (hs : s.Valid) (h : s.days < t.days) : s.seconds < t.seconds := by
  have hlt := timeOfDay_lt hs
  unfold seconds
  omega

theorem seconds_lt_of_fields (hs : s.Valid) (h : s.fields < t.fields) : s.seconds < t.seconds := by
  rcases fields_lt_iff.mp h with hyear | ⟨hyear, hmonth | ⟨hmonth, hday | ⟨hday, htime⟩⟩⟩
  · exact seconds_lt_of_days hs (days_lt_of_year hs hyear)
  · exact seconds_lt_of_days hs (days_lt_of_month hs hyear hmonth)
  · exact seconds_lt_of_days hs (days_lt_of_day hs hyear hmonth hday)
  · have hdays : s.days = t.days := by
      unfold days dayOfYear
      rw [hyear, hmonth, hday]
    have htime' : s.timeOfDay < t.timeOfDay := by
      have hminute := hs.minute_lt
      have hsecond := hs.second_lt
      unfold timeOfDay
      omega
    unfold seconds
    omega

/-- The distance orders the valid stamps as their fields do. -/
theorem seconds_lt_iff (hs : s.Valid) (ht : t.Valid) : s.seconds < t.seconds ↔ s.fields < t.fields := by
  refine ⟨fun h => ?_, seconds_lt_of_fields hs⟩
  rcases lt_trichotomy s.fields t.fields with hlt | heq | hgt
  · exact hlt
  · exact absurd h (fields_inj heq ▸ lt_irrefl _)
  · exact absurd h (seconds_lt_of_fields ht hgt).not_gt

/-- No two valid stamps are equally far away. -/
theorem seconds_inj (hs : s.Valid) (ht : t.Valid) (h : s.seconds = t.seconds) : s = t := by
  rcases lt_trichotomy s.fields t.fields with hlt | heq | hgt
  · exact absurd h (seconds_lt_of_fields hs hlt).ne
  · exact fields_inj heq
  · exact absurd h (seconds_lt_of_fields ht hgt).ne'

end Stamp

end Calendar

import TurbineProxy.Calendar
import TurbineProxy.GroupReplication

/-!
# The time a user was last seen

`fmt_epoch` of `proxy/user_registry.rs` writes a number of seconds as a date and a time, without a calendar library: it
takes the lengths of the years off the days, then the lengths of the months. Either loop keeps the days that it has
passed together with the days that remain (`yearLoop_spec`, `monthLoop_spec`).
-/

namespace TurbineProxy

open Calendar

/-- `is_leap` -/
def isLeap (y : Nat) : Bool := y % 4 == 0 && !(y % 100 == 0) || y % 400 == 0

/-- `in_year` of `days_to_ymd` -/
def inYear (y : Nat) : Nat := if isLeap y then 366 else 365

theorem inYear_pos (y : Nat) : 0 < inYear y := by
  unfold inYear
  split <;> decide

/-- The loop of `days_to_ymd` over the years: the year, and the days that remain in it. -/
def yearLoop (y days : Nat) : Nat × Nat :=
  if days < inYear y then (y, days) else yearLoop (y + 1) (days - inYear y)
termination_by days
decreasing_by
  have hpos := inYear_pos y
  omega

/-- The loop of `days_to_ymd` over the months: the month, and the days that remain in it. -/
def monthLoop : List Nat → Nat → Nat → Nat × Nat
  | [], mo, days => (mo, days)
  | mdays :: months, mo, days =>
    if days < mdays then (mo, days) else monthLoop months (mo + 1) (days - mdays)

/-- `months` of `days_to_ymd` -/
def months (leap : Bool) : List Nat := [31, if leap then 29 else 28, 31, 30, 31, 30, 31, 31, 30, 31, 30, 31]

/-- `days_to_ymd` -/
def daysToYmd (days : Nat) : Nat × Nat × Nat :=
  let (y, days) := yearLoop 1970 days
  let (mo, days) := monthLoop (months (isLeap y)) 1 days
  (y, mo, days + 1)

/-- What `fmt_epoch` formats. -/
structure EpochFields where
  y : Nat
  mo : Nat
  d : Nat
  h : Nat
  m : Nat
  s : Nat
  deriving DecidableEq

/-- The arithmetic of `fmt_epoch`. -/
def epochFields (secs : Nat) : EpochFields :=
  let days := secs / 86400
  let dayS := secs % 86400
  let (y, mo, d) := daysToYmd days
  { y := y, mo := mo, d := d, h := dayS / 3600, m := dayS % 3600 / 60, s := dayS % 60 }

/-- `{:0w$}` -/
def zeroPadded (w n : Nat) : Str := List.replicate (w - (decimal n).length) '0' ++ decimal n

/-- `{:04}-{:02}-{:02}T{:02}:{:02}:{:02}Z` -/
def EpochFields.display (f : EpochFields) : Str :=
  zeroPadded 4 f.y ++ '-' :: (zeroPadded 2 f.mo ++ '-' :: (zeroPadded 2 f.d ++ 'T' ::
    (zeroPadded 2 f.h ++ ':' :: (zeroPadded 2 f.m ++ ':' :: (zeroPadded 2 f.s ++ ['Z'])))))

/-- `fmt_epoch` -/
def fmtEpoch (secs : Nat) : Str := (epochFields secs).display

/-! ## The text -/

/-- The numbers that stand in a text. -/
def numbersIn (text : Str) : List Nat :=
  ((text.splitOnP (!·.isDigit)).filter (· ≠ [])).map (Nat.ofDigitChars 10 · 0)

theorem ofDigitChars_zeroPadded (w n : Nat) : Nat.ofDigitChars 10 (zeroPadded w n) 0 = n := by
  have hzeros : ∀ k, Nat.ofDigitChars 10 (List.replicate k '0') 0 = 0 := by
    intro k
    induction k with
    | zero => rfl
    | succ k ih => exact ih
  rw [zeroPadded, Nat.ofDigitChars_append, hzeros]
  exact Nat.ofDigitChars_ten_toDigits

theorem isDigit_of_mem_zeroPadded {w n : Nat} {c : Char} (h : c ∈ zeroPadded w n) : c.isDigit = true := by
  rcases List.mem_append.mp h with h | h
  · rw [List.eq_of_mem_replicate h]
    rfl
  · exact isDigit_of_mem_decimal h

theorem zeroPadded_ne_nil (w n : Nat) : zeroPadded w n ≠ [] :=
  List.append_ne_nil_of_right_ne_nil _ (decimal_ne_nil n)

/-- A number in front of a text, with something between them. -/
theorem numbersIn_zeroPadded {c : Char} (hc : c.isDigit = false) (w n : Nat) (text : Str) :
    numbersIn (zeroPadded w n ++ c :: text) = n :: numbersIn text := by
  have hdigits : ∀ x ∈ zeroPadded w n, (!x.isDigit) = false := by
    intro x hx
    simp [isDigit_of_mem_zeroPadded hx]
  unfold numbersIn
  rw [List.splitOnP_append_cons_of_forall_mem hdigits c (by simp [hc])]
  simp [zeroPadded_ne_nil, ofDigitChars_zeroPadded]

/-- The fields stand in the text. -/
theorem numbersIn_display (f : EpochFields) : numbersIn f.display = [f.y, f.mo, f.d, f.h, f.m, f.s] := by
  unfold EpochFields.display
  simp only [numbersIn_zeroPadded (show '-'.isDigit = false by decide),
    numbersIn_zeroPadded (show 'T'.isDigit = false by decide),
    numbersIn_zeroPadded (show ':'.isDigit = false by decide),
    numbersIn_zeroPadded (show 'Z'.isDigit = false by decide)]
  rfl

/-! ## The loops -/

theorem isLeap_iff (y : Nat) : isLeap y = true ↔ IsLeap y := by
  simp only [isLeap, IsLeap, Bool.or_eq_true, Bool.and_eq_true, Bool.not_eq_true', beq_iff_eq, beq_eq_false_iff_ne]
  omega

theorem yearLength_natCast (y : Nat) : yearLength y = inYear y := by
  rw [yearLength_eq]
  exact if_congr (isLeap_iff y).symm rfl rfl

/-- The year loop stops within a year, and what it has taken off are the years before. -/
theorem yearLoop_spec (y days : Nat) : (yearLoop y days).2 < yearLength (yearLoop y days).1 ∧
    yearStart (yearLoop y days).1 + (yearLoop y days).2 = yearStart y + days := by
  induction y, days using yearLoop.induct with
  | case1 y days hlt =>
    rw [yearLoop, if_pos hlt]
    exact ⟨(yearLength_natCast y).symm ▸ hlt, rfl⟩
  | case2 y days hge ih =>
    rw [yearLoop, if_neg hge]
    refine ⟨ih.1, ih.2.trans ?_⟩
    rw [Nat.cast_succ, yearStart_succ, yearLength_natCast]
    omega

/-- The month loop stops within a month, and what it has taken off are the months before. -/
theorem monthLoop_spec {y : ℤ} {k mo days : Nat} (h₁ : 1 ≤ mo)
    (hdays : monthStart y mo + days < monthStart y (mo + k)) :
    mo ≤ (monthLoop ((List.range' mo k).map (monthLength y)) mo days).1 ∧
      (monthLoop ((List.range' mo k).map (monthLength y)) mo days).1 < mo + k ∧
      (monthLoop ((List.range' mo k).map (monthLength y)) mo days).2 <
        monthLength y (monthLoop ((List.range' mo k).map (monthLength y)) mo days).1 ∧
      monthStart y (monthLoop ((List.range' mo k).map (monthLength y)) mo days).1 +
        (monthLoop ((List.range' mo k).map (monthLength y)) mo days).2 = monthStart y mo + days := by
  induction k generalizing mo days with
  | zero =>
    rw [Nat.add_zero] at hdays
    omega
  | succ k ih =>
    rw [List.range'_succ, List.map_cons, monthLoop]
    by_cases hlt : days < monthLength y mo
    · rw [if_pos hlt]
      exact ⟨le_rfl, by omega, hlt, rfl⟩
    · rw [if_neg hlt]
      have hnext := monthStart_succ (y := y) h₁
      have hk : mo + 1 + k = mo + (k + 1) := by omega
      have hrest : monthStart y (mo + 1) + (days - monthLength y mo) < monthStart y (mo + 1 + k) := by
        rw [hk]
        omega
      obtain ⟨hle, hstop, hwithin, hsum⟩ := ih (by omega) hrest
      exact ⟨by omega, by omega, hwithin, by rw [hsum]; omega⟩

theorem months_eq (y : Nat) : months (isLeap y) = (List.range' 1 12).map (monthLength y) := by
  have hfebruary : (if isLeap y then 29 else 28) = if IsLeap y then 29 else 28 := if_congr (isLeap_iff y) rfl rfl
  rw [months, hfebruary]
  rfl

/-! ## The calendar -/

/-- The fields as a day of the calendar with its time. -/
def EpochFields.stamp (f : EpochFields) : Stamp :=
  { year := f.y, month := f.mo, day := f.d, hour := f.h, minute := f.m, second := f.s }

theorem daysToYmd_spec (days : Nat) :
    1 ≤ (daysToYmd days).2.1 ∧ (daysToYmd days).2.1 ≤ 12 ∧ 1 ≤ (daysToYmd days).2.2 ∧
      (daysToYmd days).2.2 ≤ monthLength (daysToYmd days).1 (daysToYmd days).2.1 ∧
      yearStart (daysToYmd days).1 +
        (monthStart (daysToYmd days).1 (daysToYmd days).2.1 + ((daysToYmd days).2.2 - 1) : Nat) = days := by
  obtain ⟨hyear, hyears⟩ := yearLoop_spec 1970 days
  obtain ⟨hle, hstop, hwithin, hmonths⟩ := monthLoop_spec (y := (yearLoop 1970 days).1) (k := 12) le_rfl
    (by rw [monthStart_one, Nat.zero_add]; exact hyear)
  rw [← months_eq] at hle hstop hwithin hmonths
  rw [Nat.cast_ofNat, yearStart_epoch, zero_add] at hyears
  rw [monthStart_one, Nat.zero_add] at hmonths
  refine ⟨hle, Nat.le_of_lt_succ hstop, Nat.le_add_left .., hwithin, ?_⟩
  exact (congrArg (fun n : Nat => yearStart (yearLoop 1970 days).1 + (n : ℤ)) hmonths).trans hyears

theorem epochFields_valid (secs : Nat) : (epochFields secs).stamp.Valid := by
  obtain ⟨h₁, h₂, h₃, h₄, -⟩ := daysToYmd_spec (secs / 86400)
  have hday : secs % 86400 < 86400 := Nat.mod_lt _ (by decide)
  exact ⟨h₁, h₂, h₃, h₄, Nat.div_lt_of_lt_mul hday,
    Nat.div_lt_of_lt_mul (Nat.mod_lt _ (by decide)), Nat.mod_lt _ (by decide)⟩

theorem epochFields_seconds (secs : Nat) : (epochFields secs).stamp.seconds = secs := by
  obtain ⟨-, -, -, -, hdays⟩ := daysToYmd_spec (secs / 86400)
  have htime : (epochFields secs).stamp.timeOfDay = secs % 86400 := by
    change 3600 * (secs % 86400 / 3600) + 60 * (secs % 86400 % 3600 / 60) + secs % 86400 % 60 = _
    omega
  have hday : (epochFields secs).stamp.days = (secs / 86400 : Nat) := hdays
  rw [Stamp.seconds, htime, hday]
  omega

/-- The text of `fmt_epoch` is the one date and time of the calendar that is so far from the epoch. Of two times the later
one has the later fields, year first and second last, in their order as a list of numbers. -/
theorem fmtEpoch_calendar :
    (∀ secs, numbersIn (fmtEpoch secs) = [(epochFields secs).y, (epochFields secs).mo, (epochFields secs).d,
        (epochFields secs).h, (epochFields secs).m, (epochFields secs).s] ∧
      ∀ t : Stamp, t = (epochFields secs).stamp ↔ t.Valid ∧ t.seconds = secs) ∧
    StrictMono fun secs => (epochFields secs).stamp.fields := by
  refine ⟨fun secs => ⟨numbersIn_display _, fun t => ⟨?_, ?_⟩⟩, fun a b hlt => ?_⟩
  · rintro rfl
    exact ⟨epochFields_valid secs, epochFields_seconds secs⟩
  · rintro ⟨hvalid, hseconds⟩
    exact Stamp.seconds_inj hvalid (epochFields_valid secs) (hseconds.trans (epochFields_seconds secs).symm)
  · refine (Stamp.seconds_lt_iff (epochFields_valid a) (epochFields_valid b)).mp ?_
    rw [epochFields_seconds, epochFields_seconds]
    exact Int.ofNat_lt.mpr hlt

end TurbineProxy

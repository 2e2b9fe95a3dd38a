import Mathlib

/-! # Dates and times of chrono's proleptic Gregorian calendar

`NaiveDate` carries its own validity: a year of chrono's range (`NaiveDate::MIN` is January 1,
262144 BCE and `NaiveDate::MAX` December 31, 262142 CE), a month, and a day of that month.
`NaiveTime` is seconds from midnight and nanoseconds, the nanoseconds passing `10^9` only within
a leap second. A `DateTime<Utc>` is a date and a time in UTC.

`DateTime + Months` and `DateTime + Days` panic when the result leaves the range; the model
returns the panic's message. `DateTime - DateTime` is the difference of the two timestamps.

The day count `daysSinceEpoch` is built from the days before the year and before the month, so
that the lemmas at the end (a day later is one more day; a month later is at least 28 more, a
year later at least 365) are linear arithmetic on a table.
-/

namespace InfluxCore.Chrono

/-- `MIN_YEAR`. -/
def minYear : Int := -262143

/-- `MAX_YEAR`. -/
def maxYear : Int := 262142

/-- A leap year of the proleptic Gregorian calendar. -/
def isLeapYear (year : Int) : Bool :=
  year % 4 == 0 && (year % 100 != 0 || year % 400 == 0)

/-- The days of `month` in `year`. -/
def daysInMonth (year : Int) (month : Nat) : Nat :=
  match month with
  | 2 => if isLeapYear year then 29 else 28
  | 4 | 6 | 9 | 11 => 30
  | _ => 31

/-- A day of the calendar within chrono's range. -/
def IsValidDate (year : Int) (month day : Nat) : Prop :=
  minYear ≤ year ∧ year ≤ maxYear ∧ 1 ≤ month ∧ month ≤ 12 ∧ 1 ≤ day ∧
    day ≤ daysInMonth year month

instance (year : Int) (month day : Nat) : Decidable (IsValidDate year month day) :=
  inferInstanceAs (Decidable (_ ∧ _))

/-- `NaiveDate`. -/
@[ext] structure NaiveDate where
  year : Int
  month : Nat
  day : Nat
  valid : IsValidDate year month day
  deriving DecidableEq

/-- `NaiveDate::from_ymd_opt`. -/
def NaiveDate.fromYmdOpt (year : Int) (month day : Nat) : Option NaiveDate :=
  if valid : IsValidDate year month day then some ⟨year, month, day, valid⟩ else none

/-- `NaiveTime`: seconds from midnight, and nanoseconds past `10^9` only in a leap second. -/
structure NaiveTime where
  secs : Nat
  frac : Nat
  valid : secs < 86400 ∧ frac < 2000000000
  deriving DecidableEq

/-- `NaiveTime::from_hms_nano_opt`. -/
def NaiveTime.fromHmsNanoOpt (hour minute second nano : Nat) : Option NaiveTime :=
  if fits : hour < 24 ∧ minute < 60 ∧ second < 60 ∧ (1000000000 ≤ nano → second = 59) ∧
      nano < 2000000000 then
    some ⟨hour * 3600 + minute * 60 + second, nano, by omega⟩
  else none

/-- `NaiveTime::MIN`, midnight. -/
def NaiveTime.midnight : NaiveTime := ⟨0, 0, by decide⟩

/-- `DateTime<Utc>`. -/
@[ext] structure DateTime where
  date : NaiveDate
  time : NaiveTime
  deriving DecidableEq

/-! ## Arithmetic -/

/-- `NaiveDate::checked_add_months` (`diff_months` with a non-negative count): the same day
`months` later, clamped to the length of the month reached. -/
def NaiveDate.checkedAddMonths (date : NaiveDate) (months : Nat) : Option NaiveDate :=
  let years : Int := months / 12
  let month := date.month + months % 12
  if maxYear - date.year < years then none
  else if 12 < month then
    if date.year + years = maxYear then none
    else NaiveDate.fromYmdOpt (date.year + years + 1) (month - 12)
      (min date.day (daysInMonth (date.year + years + 1) (month - 12)))
  else NaiveDate.fromYmdOpt (date.year + years) month
    (min date.day (daysInMonth (date.year + years) month))

/-- `NaiveDate::succ_opt`: the next day, if in range. -/
def NaiveDate.succOpt (date : NaiveDate) : Option NaiveDate :=
  if date.day < daysInMonth date.year date.month then
    NaiveDate.fromYmdOpt date.year date.month (date.day + 1)
  else if date.month < 12 then NaiveDate.fromYmdOpt date.year (date.month + 1) 1
  else NaiveDate.fromYmdOpt (date.year + 1) 1 1

/-- `NaiveDate::checked_add_days`. -/
def NaiveDate.checkedAddDays (date : NaiveDate) : Nat → Option NaiveDate
  | 0 => some date
  | days + 1 => date.succOpt.bind (·.checkedAddDays days)

/-- `DateTime + Months`, which panics out of range. -/
def DateTime.addMonths (dateTime : DateTime) (months : Nat) : Except String DateTime :=
  match dateTime.date.checkedAddMonths months with
  | some date => .ok ⟨date, dateTime.time⟩
  | none => .error "`DateTime + Months` out of range"

/-- `DateTime + Days`, which panics out of range. -/
def DateTime.addDays (dateTime : DateTime) (days : Nat) : Except String DateTime :=
  match dateTime.date.checkedAddDays days with
  | some date => .ok ⟨date, dateTime.time⟩
  | none => .error "`DateTime + Days` out of range"

/-- The days of `year` before the first of `month`. -/
def daysBeforeMonth (year : Int) (month : Nat) : Nat :=
  let leap := if isLeapYear year then 1 else 0
  match month with
  | 1 => 0
  | 2 => 31
  | 3 => 59 + leap
  | 4 => 90 + leap
  | 5 => 120 + leap
  | 6 => 151 + leap
  | 7 => 181 + leap
  | 8 => 212 + leap
  | 9 => 243 + leap
  | 10 => 273 + leap
  | 11 => 304 + leap
  | _ => 334 + leap

/-- The days from 1970-01-01 to January 1 of `year`: 365 a year, and one for each leap year
between. -/
def daysBeforeYear (year : Int) : Int :=
  365 * (year - 1970) + ((year - 1) / 4 - 492) - ((year - 1) / 100 - 19) + ((year - 1) / 400 - 4)

/-- The days from 1970-01-01 to the date. -/
def NaiveDate.daysSinceEpoch (date : NaiveDate) : Int :=
  daysBeforeYear date.year + daysBeforeMonth date.year date.month + date.day - 1

/-- The nanoseconds from 1970-01-01T00:00:00Z. -/
def DateTime.timestamp (dateTime : DateTime) : Int :=
  dateTime.date.daysSinceEpoch * 86400000000000 + dateTime.time.secs * 1000000000 +
    dateTime.time.frac

/-- `DateTime - DateTime` (`signed_duration_since`), in nanoseconds. -/
def DateTime.sub (later earlier : DateTime) : Int :=
  later.timestamp - earlier.timestamp

example : (⟨⟨1970, 1, 1, by decide⟩, .midnight⟩ : DateTime).timestamp = 0 := by decide

example : (⟨⟨2000, 3, 1, by decide⟩, .midnight⟩ : DateTime).timestamp = 951868800000000000 := by
  decide

/-! ## Day counts -/

theorem isLeapYear_iff (year : Int) :
    isLeapYear year = true ↔ year % 4 = 0 ∧ (year % 100 ≠ 0 ∨ year % 400 = 0) := by
  simp [isLeapYear]

theorem daysInMonth_bounds (year : Int) (month : Nat) :
    28 ≤ daysInMonth year month ∧ daysInMonth year month ≤ 31 := by
  unfold daysInMonth; split <;> (try split_ifs) <;> omega

theorem daysBeforeYear_succ (year : Int) :
    daysBeforeYear (year + 1) = daysBeforeYear year + if isLeapYear year then 366 else 365 := by
  unfold daysBeforeYear
  split_ifs with leap <;> rw [isLeapYear_iff] at * <;> omega

@[simp] theorem daysBeforeMonth_one (year : Int) : daysBeforeMonth year 1 = 0 := rfl

theorem daysBeforeMonth_succ (year : Int) {month : Nat} (first : 1 ≤ month) (last : month < 12) :
    daysBeforeMonth year (month + 1) = daysBeforeMonth year month + daysInMonth year month := by
  interval_cases month <;> simp [daysBeforeMonth, daysInMonth] <;> split_ifs <;> rfl

theorem daysBeforeMonth_twelve (year : Int) :
    daysBeforeMonth year 12 + daysInMonth year 12 + daysBeforeYear year =
      daysBeforeYear (year + 1) := by
  rw [daysBeforeYear_succ]; simp only [daysBeforeMonth, daysInMonth]; split_ifs <;> omega

/-- The first of a month is a day of every year of the range. -/
theorem isValidDate_first {year : Int} {month : Nat} (inRange : minYear ≤ year ∧ year ≤ maxYear)
    (first : 1 ≤ month) (last : month ≤ 12) : IsValidDate year month 1 :=
  ⟨inRange.1, inRange.2, first, last, le_refl 1, by have := daysInMonth_bounds year month; omega⟩

namespace NaiveDate

theorem fromYmdOpt_eq_some {year : Int} {month day : Nat} {date : NaiveDate} :
    fromYmdOpt year month day = some date ↔
      IsValidDate year month day ∧ date.year = year ∧ date.month = month ∧ date.day = day := by
  unfold fromYmdOpt
  split_ifs with valid
  · constructor
    · rintro ⟨⟩; exact ⟨valid, rfl, rfl, rfl⟩
    · rcases date with ⟨_, _, _, _⟩; rintro ⟨-, rfl, rfl, rfl⟩; rfl
  · simp only [reduceCtorEq, false_iff]; exact fun ⟨isValid, _⟩ => valid isValid

@[simp] theorem fromYmdOpt_isSome_iff {year : Int} {month day : Nat} :
    (fromYmdOpt year month day).isSome ↔ IsValidDate year month day := by
  unfold fromYmdOpt; split_ifs with valid <;> simp [valid]

theorem fromYmdOpt_isSome {year : Int} {month day : Nat} (valid : IsValidDate year month day) :
    ∃ date, fromYmdOpt year month day = some date ∧
      date.year = year ∧ date.month = month ∧ date.day = day :=
  ⟨⟨year, month, day, valid⟩, dif_pos valid, rfl, rfl, rfl⟩

/-- The next day is one day later. -/
theorem daysSinceEpoch_succOpt {date next : NaiveDate} (succ : date.succOpt = some next) :
    next.daysSinceEpoch = date.daysSinceEpoch + 1 := by
  obtain ⟨_, _, _, _, first, day⟩ := date.valid
  unfold succOpt at succ
  split_ifs at succ with sameMonth sameYear <;>
    obtain ⟨-, year, month, nextDay⟩ := fromYmdOpt_eq_some.mp succ <;>
    simp only [daysSinceEpoch, year, month, nextDay]
  · omega
  · rw [daysBeforeMonth_succ _ (by omega) sameYear]; omega
  · have december : date.month = 12 := by omega
    have last : date.day = daysInMonth date.year 12 := by rw [december] at day sameMonth; omega
    have := daysBeforeMonth_twelve date.year
    rw [december, last, daysBeforeMonth_one]
    omega

/-- A month later is the rest of this month, then the day reached: this day, clamped to the
length of the month reached. -/
theorem checkedAddMonths_one_eq {date next : NaiveDate}
    (added : date.checkedAddMonths 1 = some next) :
    next.daysSinceEpoch + date.day = date.daysSinceEpoch + daysInMonth date.year date.month + next.day ∧
      next.day = min date.day (daysInMonth next.year next.month) := by
  obtain ⟨_, _, first, _, _, day⟩ := date.valid
  unfold checkedAddMonths at added
  simp only [Nat.cast_one, Int.reduceDiv, Nat.reduceMod, add_zero] at added
  split_ifs at added with outOfRange december lastYear
  · obtain ⟨-, year, month, nextDay⟩ := fromYmdOpt_eq_some.mp added
    have december : date.month = 12 := by omega
    have := daysBeforeMonth_twelve date.year
    rw [december] at month nextDay day
    simp only [Nat.reduceAdd, Nat.reduceSub] at month nextDay
    refine ⟨?_, by rw [nextDay, year, month]⟩
    simp only [daysSinceEpoch, year, month, nextDay, december, daysBeforeMonth_one]
    simp only [daysInMonth] at day this ⊢
    omega
  · obtain ⟨-, year, month, nextDay⟩ := fromYmdOpt_eq_some.mp added
    refine ⟨?_, by rw [nextDay, year, month]⟩
    simp only [daysSinceEpoch, year, month, nextDay, daysBeforeMonth_succ _ first (by omega),
      Nat.min_def]
    split_ifs <;> omega

/-- A month later is 28 to 31 days later. -/
theorem daysSinceEpoch_checkedAddMonths_one {date next : NaiveDate}
    (added : date.checkedAddMonths 1 = some next) :
    date.daysSinceEpoch + 28 ≤ next.daysSinceEpoch ∧
      next.daysSinceEpoch ≤ date.daysSinceEpoch + 31 := by
  obtain ⟨diff, nextDay⟩ := checkedAddMonths_one_eq added
  have := date.valid.2.2.2.2
  have := daysInMonth_bounds date.year date.month
  have := daysInMonth_bounds next.year next.month
  omega

/-- A year later is the same month of the next year, on this day clamped to its length. -/
theorem checkedAddMonths_twelve_eq {date next : NaiveDate}
    (added : date.checkedAddMonths 12 = some next) :
    next.year = date.year + 1 ∧ next.month = date.month ∧
      next.day = min date.day (daysInMonth (date.year + 1) date.month) := by
  unfold checkedAddMonths at added
  simp only [Nat.cast_ofNat, Int.reduceDiv, Nat.reduceMod, add_zero] at added
  split_ifs at added with outOfRange december
  · obtain ⟨_, _, _, last, _⟩ := date.valid; omega
  · obtain ⟨-, year, month, nextDay⟩ := fromYmdOpt_eq_some.mp added
    exact ⟨year, month, nextDay⟩

/-- The same day of the next year, clamped to the length of its month, is at least 365 days
later: a day lost to February 29 is a day gained by the leap year. -/
theorem daysBeforeMonth_nextYear (year : Int) {month day : Nat} (first : 1 ≤ month)
    (last : month ≤ 12) (inMonth : day ≤ daysInMonth year month) :
    daysBeforeMonth year month + day + 365 ≤
      (if isLeapYear year then 366 else 365) + daysBeforeMonth (year + 1) month +
        min day (daysInMonth (year + 1) month) := by
  interval_cases month <;> simp only [daysBeforeMonth, daysInMonth] at * <;> split_ifs at * <;>
    omega

/-- A year later is at least 365 days later. -/
theorem daysSinceEpoch_checkedAddMonths_twelve {date next : NaiveDate}
    (added : date.checkedAddMonths 12 = some next) :
    date.daysSinceEpoch + 365 ≤ next.daysSinceEpoch := by
  obtain ⟨year, month, nextDay⟩ := checkedAddMonths_twelve_eq added
  obtain ⟨_, _, first, last, _, day⟩ := date.valid
  have := daysBeforeMonth_nextYear date.year first last day
  simp only [daysSinceEpoch, year, month, nextDay, daysBeforeYear_succ]
  split_ifs at this ⊢ <;> omega

/-- Before the last year of the range, the same day up to a year later is in range. -/
theorem checkedAddMonths_isSome {date : NaiveDate} (early : date.year < maxYear) {months : Nat}
    (few : months ≤ 12) : (date.checkedAddMonths months).isSome := by
  obtain ⟨low, _, first, last, dayPos, _⟩ := date.valid
  unfold checkedAddMonths
  dsimp only
  split_ifs with outOfRange over lastYear
  · omega
  · omega
  all_goals
    rw [fromYmdOpt_isSome_iff]
    exact ⟨by omega, by omega, by omega, by omega,
      le_min dayPos (le_trans (by norm_num) (daysInMonth_bounds _ _).1), min_le_right _ _⟩

/-- Before the last year of the range, the next day is in range. -/
theorem succOpt_isSome {date : NaiveDate} (early : date.year < maxYear) : date.succOpt.isSome := by
  obtain ⟨low, _, first, last, dayPos, _⟩ := date.valid
  unfold succOpt
  split_ifs with sameMonth sameYear <;> rw [fromYmdOpt_isSome_iff]
  · exact ⟨low, by omega, first, last, by omega, sameMonth⟩
  · exact isValidDate_first ⟨low, by omega⟩ (by omega) sameYear
  · exact isValidDate_first ⟨by unfold minYear at *; omega, by omega⟩ le_rfl (by omega)

/-- The days of a month end within its year. -/
theorem daysBeforeMonth_add_daysInMonth_le (year : Int) {month : Nat} (first : 1 ≤ month)
    (last : month ≤ 12) :
    daysBeforeMonth year month + daysInMonth year month ≤
      daysBeforeMonth year 12 + daysInMonth year 12 := by
  interval_cases month <;> simp only [daysBeforeMonth, daysInMonth] <;> split_ifs <;> omega

/-- A date lies within its year's days. -/
theorem daysSinceEpoch_mem_year (date : NaiveDate) :
    daysBeforeYear date.year ≤ date.daysSinceEpoch ∧
      date.daysSinceEpoch < daysBeforeYear (date.year + 1) := by
  obtain ⟨_, _, first, last, _, day⟩ := date.valid
  have := daysBeforeMonth_add_daysInMonth_le date.year first last
  have := daysBeforeMonth_twelve date.year
  unfold daysSinceEpoch
  omega

end NaiveDate

/-- `DateTime + Months` keeps the time and adds the months to the date. -/
theorem DateTime.addMonths_eq_ok {dateTime later : DateTime} {months : Nat} :
    dateTime.addMonths months = .ok later ↔
      dateTime.date.checkedAddMonths months = some later.date ∧ later.time = dateTime.time := by
  unfold addMonths
  split <;> rename_i added <;> rw [added]
  · constructor
    · rintro ⟨⟩; exact ⟨rfl, rfl⟩
    · rcases later with ⟨_, _⟩; rintro ⟨⟨⟩, rfl⟩; rfl
  · simp only [reduceCtorEq, false_and, iff_false]

/-- `DateTime + Days` keeps the time; one day more is the next date. -/
theorem DateTime.addDays_one_eq_ok {dateTime later : DateTime} :
    dateTime.addDays 1 = .ok later ↔
      dateTime.date.succOpt = some later.date ∧ later.time = dateTime.time := by
  have succ : dateTime.date.checkedAddDays 1 = dateTime.date.succOpt := by
    simp only [NaiveDate.checkedAddDays, Option.bind_eq_bind, Option.bind_some]
  unfold addDays
  rw [succ]
  split <;> rename_i added <;> rw [added]
  · constructor
    · rintro ⟨⟩; exact ⟨rfl, rfl⟩
    · rcases later with ⟨_, _⟩; rintro ⟨⟨⟩, rfl⟩; rfl
  · simp only [reduceCtorEq, false_and, iff_false]

/-- A timestamp in the range of an `i64` of nanoseconds lies in the years 1677 to 2262. -/
theorem DateTime.year_of_timestamp {dateTime : DateTime}
    (representable : -2 ^ 63 ≤ dateTime.timestamp ∧ dateTime.timestamp < 2 ^ 63) :
    1677 ≤ dateTime.date.year ∧ dateTime.date.year ≤ 2262 := by
  have := dateTime.date.daysSinceEpoch_mem_year
  have := dateTime.time.valid
  unfold timestamp daysBeforeYear at *
  omega

end InfluxCore.Chrono

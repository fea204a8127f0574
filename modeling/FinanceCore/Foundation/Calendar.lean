import FinanceCore.Foundation.Text

namespace FinanceCore.Calendar

open Text Option

/-- A year of the proleptic Gregorian calendar has a leap day. -/
def isLeap (year : ℕ) : Bool := year % 4 == 0 && (year % 100 != 0 || year % 400 == 0)

def daysInMonth (year month : ℕ) : ℕ :=
  match month with
  | 2 => if isLeap year then 29 else 28
  | 4 | 6 | 9 | 11 => 30
  | _ => 31

/-- The first and the last year that a date can have. -/
def minYear : ℕ := 1

def maxYear : ℕ := 9999

/-- A calendar date exists. -/
structure CalendarDate where
  (year month day : ℕ)
  yearInside : minYear ≤ year ∧ year ≤ maxYear
  monthInside : 1 ≤ month ∧ month ≤ 12
  dayInside : 1 ≤ day ∧ day ≤ daysInMonth year month
deriving DecidableEq

variable {first second date : CalendarDate} {places : ℕ}

theorem CalendarDate.ext_fields (year : first.year = second.year)
    (month : first.month = second.month) (day : first.day = second.day) : first = second := by
  cases first
  simp_all

def daysBeforeYear (year : ℕ) : ℤ :=
  365 * ((year : ℤ) - 1) + ((year : ℤ) - 1) / 4 - ((year : ℤ) - 1) / 100 + ((year : ℤ) - 1) / 400

/-- The days of a year before one of its months. -/
def daysBeforeMonth (year month : ℕ) : ℕ :=
  match month with
  | 0 | 1 => 0
  | month + 1 => daysBeforeMonth year month + daysInMonth year month

/-- Days are counted from the first day of year one. -/
def ordinal (date : CalendarDate) : ℤ :=
  daysBeforeYear date.year + daysBeforeMonth date.year date.month + date.day

theorem daysBeforeYear_succ (year : ℕ) :
    daysBeforeYear (year + 1) = daysBeforeYear year + daysBeforeMonth year 12 + daysInMonth year 12 := by
  have months : daysBeforeMonth year 12 + daysInMonth year 12 = if isLeap year then 366 else 365 := by
    by_cases leap : isLeap year <;> simp [daysBeforeMonth, daysInMonth, leap]
  have length : ((daysBeforeMonth year 12 : ℤ) + daysInMonth year 12) = if isLeap year then 366 else 365 := by
    rw [← Nat.cast_add, months]
    split_ifs <;> rfl
  rw [add_assoc, length]
  unfold daysBeforeYear isLeap
  by_cases fours : year % 4 = 0 <;> by_cases hundreds : year % 100 = 0 <;>
    by_cases fourHundreds : year % 400 = 0 <;> simp [fours, hundreds, fourHundreds] <;> omega

/-- The day after a date, unless the calendar ends. -/
def nextDay (date : CalendarDate) : Option CalendarDate :=
  if inside : date.day + 1 ≤ daysInMonth date.year date.month then
    some ⟨date.year, date.month, date.day + 1, date.yearInside, date.monthInside, by omega, inside⟩
  else if early : date.month + 1 ≤ 12 then
    some ⟨date.year, date.month + 1, 1, date.yearInside, ⟨by omega, early⟩, le_rfl, by
      unfold daysInMonth
      split
      · split_ifs <;> omega
      all_goals omega⟩
  else if final : date.year + 1 ≤ maxYear then
    some ⟨date.year + 1, 1, 1, ⟨by have := date.yearInside; omega, final⟩, by omega, le_rfl, by
      show 1 ≤ 31
      omega⟩
  else none

theorem ordinal_nextDay {next : CalendarDate} (done : nextDay date = some next) :
    ordinal next = ordinal date + 1 := by
  unfold nextDay at done
  have month := date.monthInside
  have day := date.dayInside
  split_ifs at done with inside early final
  · obtain rfl := some.inj done
    simp only [ordinal]
    push_cast
    ring
  · obtain rfl := some.inj done
    have last : date.day = daysInMonth date.year date.month := by omega
    have step : daysBeforeMonth date.year (date.month + 1) =
        daysBeforeMonth date.year date.month + daysInMonth date.year date.month := by
      obtain ⟨before, same⟩ : ∃ before, date.month = before + 1 := ⟨date.month - 1, by omega⟩
      rw [same]
      rfl
    simp only [ordinal, step, last]
    push_cast
    ring
  · obtain rfl := some.inj done
    have december : date.month = 12 := by omega
    have last : date.day = daysInMonth date.year 12 := by
      rw [december] at inside day
      omega
    simp only [ordinal, december, last, daysBeforeYear_succ date.year]
    simp only [daysBeforeMonth]
    ring

/-- The day before a date, unless the calendar begins. -/
def previousDay (date : CalendarDate) : Option CalendarDate :=
  if inside : 1 ≤ date.day - 1 then
    some ⟨date.year, date.month, date.day - 1, date.yearInside, date.monthInside, inside, by
      have := date.dayInside
      omega⟩
  else if late : 1 ≤ date.month - 1 then
    some ⟨date.year, date.month - 1, daysInMonth date.year (date.month - 1), date.yearInside,
      ⟨late, by have := date.monthInside; omega⟩, by
        unfold daysInMonth
        split
        · split_ifs <;> omega
        all_goals omega, le_rfl⟩
  else if first : minYear ≤ date.year - 1 then
    some ⟨date.year - 1, 12, 31, ⟨first, by have := date.yearInside; omega⟩, by omega, by omega, by
      show 31 ≤ 31
      omega⟩
  else none

theorem ordinal_previousDay {previous : CalendarDate} (done : previousDay date = some previous) :
    ordinal previous = ordinal date - 1 := by
  have next : nextDay previous = some date := by
    unfold previousDay at done
    have month := date.monthInside
    have day := date.dayInside
    have year := date.yearInside
    split_ifs at done with inside late first
    · obtain rfl := some.inj done
      unfold nextDay
      have fits : date.day - 1 + 1 ≤ daysInMonth date.year date.month := by omega
      rw [dif_pos fits]
      exact congrArg some (CalendarDate.ext_fields rfl rfl (by dsimp only; omega))
    · obtain rfl := some.inj done
      unfold nextDay
      have full : ¬ daysInMonth date.year (date.month - 1) + 1 ≤ daysInMonth date.year (date.month - 1) := by omega
      have fits : date.month - 1 + 1 ≤ 12 := by omega
      rw [dif_neg full, dif_pos fits]
      exact congrArg some (CalendarDate.ext_fields rfl (by dsimp only; omega) (by dsimp only; omega))
    · obtain rfl := some.inj done
      unfold nextDay
      have full : ¬ 31 + 1 ≤ daysInMonth (date.year - 1) 12 := by
        show ¬ 31 + 1 ≤ 31
        omega
      have fits : date.year - 1 + 1 ≤ maxYear := by unfold minYear at *; omega
      rw [dif_pos fits]
      exact congrArg some (CalendarDate.ext_fields (by dsimp only; unfold minYear at *; omega)
        (by dsimp only; omega) (by dsimp only; omega))
  have step := ordinal_nextDay next
  omega

/-- The microseconds of a day. -/
def dayLength : ℤ := 86400000000

/-- A time of day down to the microsecond. -/
structure ClockTime where
  (hour minute second microsecond : ℕ)
  inside : hour < 24 ∧ minute < 60 ∧ second < 60 ∧ microsecond < 1000000

def ClockTime.microseconds (time : ClockTime) : ℤ :=
  ((time.hour * 60 + time.minute) * 60 + time.second) * 1000000 + time.microsecond

theorem ClockTime.microseconds_inside (time : ClockTime) : 0 ≤ time.microseconds ∧ time.microseconds < dayLength := by
  have inside := time.inside
  unfold microseconds dayLength
  omega

/-- The clock shows the microseconds since midnight. -/
def clockOf (elapsed : ℤ) : ClockTime where
  hour := (elapsed.toNat / 3600000000) % 24
  minute := (elapsed.toNat / 60000000) % 60
  second := (elapsed.toNat / 1000000) % 60
  microsecond := elapsed.toNat % 1000000
  inside := by omega

theorem microseconds_clockOf {elapsed : ℤ} (nonneg : 0 ≤ elapsed) (inside : elapsed < dayLength) :
    (clockOf elapsed).microseconds = elapsed := by
  unfold dayLength at inside
  unfold ClockTime.microseconds clockOf
  dsimp only
  omega

/-- An offset from Coordinated Universal Time is shorter than a day. -/
structure UtcOffset where
  microseconds : ℤ
  bounded : -dayLength < microseconds ∧ microseconds < dayLength

/-- A wall-clock reading; without an offset it is naive. -/
structure DateTime where
  date : CalendarDate
  time : ClockTime
  offset : Option UtcOffset

/-- A moment counts the microseconds since the day before year one in Coordinated Universal Time. -/
def momentOf (date : CalendarDate) (time : ClockTime) (offset : ℤ) : ℤ :=
  ordinal date * dayLength + time.microseconds - offset

/-- A reading moved to Coordinated Universal Time stays in the calendar or fails. -/
def toUtc (date : CalendarDate) (time : ClockTime) (offset : UtcOffset) : Option (CalendarDate × ClockTime) :=
  let elapsed := time.microseconds - offset.microseconds
  if elapsed < 0 then (previousDay date).map fun day => (day, clockOf (elapsed + dayLength))
  else if dayLength ≤ elapsed then (nextDay date).map fun day => (day, clockOf (elapsed - dayLength))
  else some (date, clockOf elapsed)

/-- Moving to Coordinated Universal Time keeps the moment. -/
theorem momentOf_toUtc {time : ClockTime} {offset : UtcOffset} {utc : CalendarDate × ClockTime}
    (done : toUtc date time offset = some utc) : momentOf utc.1 utc.2 0 = momentOf date time offset.microseconds := by
  have clock := time.microseconds_inside
  have bounded := offset.bounded
  unfold toUtc at done
  dsimp only at done
  split_ifs at done with before after
  · obtain ⟨day, moved, rfl⟩ := map_eq_some_iff.mp done
    have shown : (clockOf (time.microseconds - offset.microseconds + dayLength)).microseconds = _ :=
      microseconds_clockOf (by omega) (by omega)
    simp only [momentOf, ordinal_previousDay moved, shown]
    ring
  · obtain ⟨day, moved, rfl⟩ := map_eq_some_iff.mp done
    have shown : (clockOf (time.microseconds - offset.microseconds - dayLength)).microseconds = _ :=
      microseconds_clockOf (by omega) (by omega)
    simp only [momentOf, ordinal_nextDay moved, shown]
    ring
  · obtain rfl := some.inj done
    have shown : (clockOf (time.microseconds - offset.microseconds)).microseconds = _ :=
      microseconds_clockOf (by omega) (by omega)
    simp only [momentOf, shown]
    ring

/-- The date as year, month and day. -/
def isoDate (date : CalendarDate) : List Char :=
  fixedDigits 4 date.year ++ '-' :: (fixedDigits 2 date.month ++ '-' :: fixedDigits 2 date.day)

/-- The time with all of its microseconds. -/
def isoTime (time : ClockTime) : List Char :=
  fixedDigits 2 time.hour ++ ':' :: (fixedDigits 2 time.minute ++ ':' :: (fixedDigits 2 time.second ++
    '.' :: fixedDigits 6 time.microsecond))

def isoDateTime (utc : CalendarDate × ClockTime) : List Char := isoDate utc.1 ++ 'T' :: (isoTime utc.2 ++ ['Z'])

theorem fixedDigits_inj {first second : ℕ} (firstFits : first < 10 ^ places)
    (secondFits : second < 10 ^ places)
    (same : fixedDigits places first = fixedDigits places second) : first = second := by
  have values := congrArg digitsValue same
  rwa [digitsValue_fixedDigits, digitsValue_fixedDigits, Nat.mod_eq_of_lt firstFits,
    Nat.mod_eq_of_lt secondFits] at values

/-- Equal texts of one width in front leave equal texts behind. -/
theorem field_inj {first second : ℕ} {mark : Char} {rest others : List Char}
    (firstFits : first < 10 ^ places) (secondFits : second < 10 ^ places)
    (same : fixedDigits places first ++ mark :: rest = fixedDigits places second ++ mark :: others) :
    first = second ∧ rest = others := by
  obtain ⟨digits, tails⟩ := List.append_inj same (by rw [length_fixedDigits, length_fixedDigits])
  exact ⟨fixedDigits_inj firstFits secondFits digits, (List.cons.inj tails).2⟩

theorem daysInMonth_le (year month : ℕ) : daysInMonth year month ≤ 31 := by
  unfold daysInMonth
  split
  · split_ifs <;> omega
  all_goals omega

theorem isoDate_inj (same : isoDate first = isoDate second) : first = second := by
  have firstYear := first.yearInside
  have secondYear := second.yearInside
  have firstMonth := first.monthInside
  have secondMonth := second.monthInside
  have firstDay := first.dayInside.2.trans (daysInMonth_le _ _)
  have secondDay := second.dayInside.2.trans (daysInMonth_le _ _)
  unfold maxYear at firstYear secondYear
  obtain ⟨year, rest⟩ := field_inj (by omega) (by omega) same
  obtain ⟨month, rest⟩ := field_inj (by omega) (by omega) rest
  exact CalendarDate.ext_fields year month (fixedDigits_inj (by omega) (by omega) rest)

theorem isoTime_inj {first second : ClockTime} (same : isoTime first = isoTime second) : first = second := by
  have firstInside := first.inside
  have secondInside := second.inside
  obtain ⟨hour, rest⟩ := field_inj (by omega) (by omega) same
  obtain ⟨minute, rest⟩ := field_inj (by omega) (by omega) rest
  obtain ⟨seconds, rest⟩ := field_inj (by omega) (by omega) rest
  have micros := fixedDigits_inj (by omega) (by omega) rest
  cases first
  simp_all

theorem length_isoDate (date : CalendarDate) : (isoDate date).length = 10 := by
  simp [isoDate]

theorem isoDateTime_inj {first second : CalendarDate × ClockTime}
    (same : isoDateTime first = isoDateTime second) :
    first = second := by
  obtain ⟨dates, rest⟩ := List.append_inj same (by rw [length_isoDate, length_isoDate])
  have times := List.append_cancel_right (List.cons.inj rest).2
  exact Prod.ext (isoDate_inj dates) (isoTime_inj times)

end FinanceCore.Calendar

import EventSourcing.Time.Calendar

/-!
Day numbers and dates. A cycle of 400 years has three centuries of 36524 days and one of 36525; a
century has runs of four years with 1461 days each, of which the last may lack its leap day; and
such a run has three years of 365 days and one more.
-/

namespace EventSourcing.CalendarDate

/-- A day of a cycle by its century, the run of four years, the year and the day of the year, each
counted from 0. Only the last year of a run can have a leap day, and the last run of a century has
one in the last century only. -/
theorem exists_parts {day : Int} (least : 0 ≤ day) (most : day < 146097) :
    ∃ century run year rest : Int, day = 36524 * century + 1461 * run + 365 * year + rest ∧
      (0 ≤ century ∧ century ≤ 3) ∧ (0 ≤ run ∧ run ≤ 24) ∧ (0 ≤ year ∧ year ≤ 3) ∧
      (0 ≤ rest ∧ rest ≤ 365) ∧ (rest = 365 → year = 3 ∧ (run < 24 ∨ century = 3)) := by
  let century := day / 36524 - day / 146096
  let inside := day - 36524 * century
  let run := inside / 1461
  let left := inside - 1461 * run
  let year := left / 365 - left / 1460
  refine ⟨century, run, year, left - 365 * year, ?_, ?_, ?_, ?_, ?_, ?_⟩ <;> omega

/-- The parts of a day of a cycle tell the year that it lies in. -/
theorem yearOfCycle_parts {century run year rest : Int} (centuries : 0 ≤ century ∧ century ≤ 3)
    (runs : 0 ≤ run ∧ run ≤ 24) (years : 0 ≤ year ∧ year ≤ 3) (days : 0 ≤ rest ∧ rest ≤ 365)
    (leap : rest = 365 → year = 3 ∧ (run < 24 ∨ century = 3)) :
    yearOfCycle (36524 * century + 1461 * run + 365 * year + rest) =
      100 * century + 4 * run + year := by
  let day := 36524 * century + 1461 * run + 365 * year + rest
  -- A day in 1460 is passed over so that leap days do not count; it comes at the end of a run.
  obtain ⟨extra, passed, bounds, last⟩ : ∃ extra, day / 1460 = 25 * century + run + extra ∧
      (0 ≤ extra ∧ extra ≤ 1) ∧ (0 ≤ rest - extra ∧ rest - extra ≤ 364) := by
    by_cases late : 1460 ≤ 24 * century + run + 365 * year + rest
    · exact ⟨1, by omega, by omega, by omega⟩
    · exact ⟨0, by omega, by omega, by omega⟩
  have centuryOf : day / 36524 - day / 146096 = century := by
    have inside : day - 36524 * century ≤ 36524 := by omega
    have full : day - 36524 * century = 36524 → century = 3 := by omega
    by_cases final : day = 146096 <;> omega
  change (day - day / 1460 + day / 36524 - day / 146096) / 365 = _
  omega

theorem daysBeforeYear_parts {century run year : Int} (runs : 0 ≤ run ∧ run ≤ 24)
    (years : 0 ≤ year ∧ year ≤ 3) :
    daysBeforeYear (100 * century + 4 * run + year) =
      36524 * century + 1461 * run + 365 * year := by
  unfold daysBeforeYear
  omega

theorem isLeapYear_iff (year : Int) :
    isLeapYear year = true ↔ year % 4 = 0 ∧ (year % 100 ≠ 0 ∨ year % 400 = 0) := by
  simp [isLeapYear]

/-- The date of a year, month and day that are counted from March on. -/
def fromMarch (year : Int) (month day : Nat) : CalendarDate :=
  let civilMonth := if month < 10 then month + 3 else month - 9
  ⟨if civilMonth ≤ 2 then year + 1 else year, civilMonth, day⟩

theorem dayNumber_fromMarch (year : Int) {month : Nat} (inside : month ≤ 11) (day : Nat) :
    (fromMarch year month day).dayNumber = year / 400 * 146097 + daysBeforeYear (year % 400) +
      (daysBeforeMonth month + day - 1) - epochOffset := by
  by_cases early : month < 10
  · have counted : monthFromMarch (month + 3) = month := by
      unfold monthFromMarch
      omega
    have late : ¬month + 3 ≤ 2 := by omega
    simp only [fromMarch, dayNumber, if_pos early, if_neg late, counted]
  · have counted : monthFromMarch (month - 9) = month := by
      unfold monthFromMarch
      omega
    have late : month - 9 ≤ 2 := by omega
    simp only [fromMarch, dayNumber, if_neg early, if_pos late, counted, Int.add_sub_cancel]

/-- A month that is counted from March on ends where the next one begins; February is the last. -/
theorem valid_fromMarch {year : Int} {month : Nat} (inside : month ≤ 11) {day : Nat}
    (first : 1 ≤ day)
    (last : month < 11 → daysBeforeMonth month + day ≤ daysBeforeMonth (month + 1))
    (february : month = 11 → day ≤ 29 ∧ (day = 29 → isLeapYear (year + 1) = true)) :
    (fromMarch year month day).Valid := by
  have cases : month = 0 ∨ month = 1 ∨ month = 2 ∨ month = 3 ∨ month = 4 ∨ month = 5 ∨ month = 6 ∨
      month = 7 ∨ month = 8 ∨ month = 9 ∨ month = 10 ∨ month = 11 := by omega
  simp only [daysBeforeMonth] at last
  rcases cases with rfl | rfl | rfl | rfl | rfl | rfl | rfl | rfl | rfl | rfl | rfl | rfl
  case inr.inr.inr.inr.inr.inr.inr.inr.inr.inr.inr =>
    obtain ⟨few, leap⟩ := february rfl
    by_cases extra : day = 29
    · simp [Valid, fromMarch, monthLength, leap extra, extra]
    · simp [Valid, fromMarch, monthLength, first]
      split <;> omega
  all_goals
    have few := last (by omega)
    simp [Valid, fromMarch, monthLength, first]
    omega

/-- Whatever the day, the date tells it, and the calendar has that date. -/
theorem dayNumber_ofDayNumber (number : Int) :
    dayNumber (ofDayNumber number) = number ∧ (ofDayNumber number).Valid := by
  let shifted := number + epochOffset
  let day := shifted % 146097
  have least : 0 ≤ day := by omega
  have greatest : day < 146097 := by omega
  obtain ⟨century, run, year, rest, split, centuries, runs, years, days, leap⟩ :=
    exists_parts least greatest
  have yearOf := yearOfCycle_parts centuries runs years days leap
  have before : daysBeforeYear (100 * century + 4 * run + year) =
      36524 * century + 1461 * run + 365 * year := daysBeforeYear_parts runs years
  rw [← split] at yearOf
  let month := (5 * rest.toNat + 2) / 153
  let whole := 100 * century + 4 * run + year + shifted / 146097 * 400
  have same : ofDayNumber number =
      fromMarch whole month (rest.toNat - daysBeforeMonth month + 1) := by
    have dayOf : (day - daysBeforeYear (yearOfCycle day)).toNat = rest.toNat := by
      rw [yearOf, before]
      omega
    simp only [ofDayNumber, fromMarch, ← yearOf, ← dayOf, whole, month, day, shifted]
  have few : month ≤ 11 := by omega
  have start : daysBeforeMonth month ≤ rest.toNat := by
    unfold daysBeforeMonth
    omega
  rw [same]
  constructor
  · have cycle : whole / 400 = shifted / 146097 := by omega
    have within : whole % 400 = 100 * century + 4 * run + year := by omega
    rw [dayNumber_fromMarch _ few, cycle, within, before]
    omega
  · refine valid_fromMarch few (by omega) ?_ ?_
    · unfold daysBeforeMonth at *
      omega
    · intro february
      have counted : daysBeforeMonth month = 337 := by rw [february]; rfl
      refine ⟨by omega, fun extra => (isLeapYear_iff _).mpr ?_⟩
      have ends := leap (by omega)
      omega

end EventSourcing.CalendarDate

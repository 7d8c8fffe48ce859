/-!
The proleptic Gregorian calendar. Days count from 1970-01-01. Years start in March for counting, so
that the leap day is the last day of its year; 400 such years have 146097 days.
-/

namespace EventSourcing

structure CalendarDate where
  year : Int
  month : Nat
  day : Nat
  deriving DecidableEq, Repr

namespace CalendarDate

def isLeapYear (year : Int) : Bool :=
  year % 4 = 0 && (year % 100 ≠ 0 || year % 400 = 0)

def monthLength (year : Int) (month : Nat) : Nat :=
  if month = 2 then (if isLeapYear year then 29 else 28)
  else if month = 4 ∨ month = 6 ∨ month = 9 ∨ month = 11 then 30
  else 31

/-- Whether the calendar has this day. -/
def Valid (date : CalendarDate) : Prop :=
  1 ≤ date.month ∧ date.month ≤ 12 ∧ 1 ≤ date.day ∧ date.day ≤ monthLength date.year date.month

instance (date : CalendarDate) : Decidable date.Valid :=
  inferInstanceAs (Decidable (_ ∧ _))

/-- Months counted from March. -/
def monthFromMarch (month : Nat) : Nat := (month + 9) % 12

/-- Days of the counting year before its month number `month`. -/
def daysBeforeMonth (month : Nat) : Nat := (153 * month + 2) / 5

/-- Days of the 400-year cycle before its year number `year`. -/
def daysBeforeYear (year : Int) : Int := 365 * year + year / 4 - year / 100

/-- Days from 0000-03-01 to 1970-01-01. -/
def epochOffset : Int := 719468

/-- The day number of a date. -/
def dayNumber (date : CalendarDate) : Int :=
  let year := if date.month ≤ 2 then date.year - 1 else date.year
  let dayOfYear : Int := daysBeforeMonth (monthFromMarch date.month) + date.day - 1
  year / 400 * 146097 + daysBeforeYear (year % 400) + dayOfYear - epochOffset

/-- The year of a cycle that holds the cycle's day number `day`. -/
def yearOfCycle (day : Int) : Int :=
  (day - day / 1460 + day / 36524 - day / 146096) / 365

/-- The date with a given day number. -/
def ofDayNumber (number : Int) : CalendarDate :=
  let shifted := number + epochOffset
  let day := shifted % 146097
  let year := yearOfCycle day
  let dayOfYear := (day - daysBeforeYear year).toNat
  let month := (5 * dayOfYear + 2) / 153
  let civilMonth := if month < 10 then month + 3 else month - 9
  let civilYear := year + shifted / 146097 * 400
  ⟨if civilMonth ≤ 2 then civilYear + 1 else civilYear, civilMonth,
    dayOfYear - daysBeforeMonth month + 1⟩

end CalendarDate

end EventSourcing

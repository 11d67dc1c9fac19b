import RecordFilter.Text.CharClass

/-!
# Dates

Days of the Gregorian calendar from year 1 to year 9999, their numbering from 1 January of year 1,
and the days named by a week of the year, where week 1 is the week with the year's first Thursday.
-/

namespace RecordFilter

/-- A day of the calendar. -/
structure Date where
  year : Nat
  month : Nat
  day : Nat
deriving DecidableEq, Repr, Inhabited

namespace Date

/-- Years with a 29 February. -/
def isLeap (year : Nat) : Bool :=
  year % 4 = 0 && (year % 100 ≠ 0 || year % 400 = 0)

/-- The number of days of a month. -/
def daysIn (year month : Nat) : Nat :=
  if month = 2 then (if isLeap year then 29 else 28)
  else if month = 4 || month = 6 || month = 9 || month = 11 then 30
  else 31

/-- The day exists. -/
def isValid (d : Date) : Bool :=
  1 ≤ d.year && d.year ≤ 9999 && 1 ≤ d.month && d.month ≤ 12 && 1 ≤ d.day &&
    d.day ≤ daysIn d.year d.month

/-- The date with this year, month and day, if there is one. -/
def ofParts? (year month day : Nat) : Option Date :=
  let d : Date := ⟨year, month, day⟩
  if d.isValid then some d else none

/-- The number of days before 1 January of a year. -/
def daysBeforeYear (year : Nat) : Nat :=
  let y := year - 1
  365 * y + y / 4 - y / 100 + y / 400

/-- The number of days of a year before the first of a month. -/
def daysBeforeMonth (year month : Nat) : Nat :=
  (List.range (month - 1)).foldl (fun n m => n + daysIn year (m + 1)) 0

/-- The number of a day; 1 January of year 1 is day 1. -/
def ordinal (d : Date) : Nat :=
  daysBeforeYear d.year + daysBeforeMonth d.year d.month + d.day

/-- The day of the week of a numbered day, Monday being 0. -/
def weekdayOf (ordinal : Nat) : Nat :=
  (ordinal + 6) % 7

/-- The day `day` (counted from 0) of a year, as month and day, found from month `month` on. -/
def monthAndDay (year month day : Nat) : Nat → Nat × Nat
  | 0 => (month, day + 1)
  | fuel + 1 =>
    if day < daysIn year month then (month, day + 1)
    else monthAndDay year (month + 1) (day - daysIn year month) fuel

/-- The date of a numbered day that lies in the year `year` or in one of its neighbours. -/
def ofOrdinalNear (year ordinal : Nat) : Date :=
  let year :=
    if ordinal ≤ daysBeforeYear year then year - 1
    else if daysBeforeYear (year + 1) < ordinal then year + 1
    else year
  let (month, day) := monthAndDay year 1 (ordinal - daysBeforeYear year - 1) 12
  ⟨year, month, day⟩

/-- The number of the Monday of week 1 of a year. -/
def firstMonday (year : Nat) : Nat :=
  let first := daysBeforeYear year + 1
  let weekday := weekdayOf first
  let monday := first - weekday
  if 3 < weekday then monday + 7 else monday

/-- Years with a week 53. -/
def hasLongYear (year : Nat) : Bool :=
  let weekday := weekdayOf (daysBeforeYear year + 1)
  weekday = 3 || (weekday = 2 && isLeap year)

/-- The day named by year, week and day of the week, Monday being 1. -/
def ofWeek? (year week weekday : Nat) : Option Date :=
  if 1 ≤ year && year ≤ 9999 && 1 ≤ week && (week ≤ 52 || (week = 53 && hasLongYear year)) &&
      1 ≤ weekday && weekday ≤ 7 then
    let d := ofOrdinalNear year (firstMonday year + (week - 1) * 7 + weekday - 1)
    if d.isValid then some d else none
  else none

/-- Dates in the order of the calendar. -/
def order (a b : Date) : Ordering :=
  (compare a.year b.year).then ((compare a.month b.month).then (compare a.day b.day))

/-- Year, month and day with hyphens between them. -/
def text (d : Date) : String :=
  Text.padded 4 d.year ++ "-" ++ Text.padded 2 d.month ++ "-" ++ Text.padded 2 d.day

/-- How a date is shown inside lists and messages. -/
def display (d : Date) : String :=
  "datetime.date(" ++ Text.ofNat d.year ++ ", " ++ Text.ofNat d.month ++ ", " ++
    Text.ofNat d.day ++ ")"

end Date

end RecordFilter

/-! Dates of the Gregorian calendar, extended to all years.

    A date is counted as a day number, day 0 being 1970-01-01. Month arithmetic keeps the day of
    the month and clamps it to the last day of a shorter month. -/

namespace GridCatalog

/-- A year, a month from 1 and a day of the month from 1. -/
structure Date where
  year : Int
  month : Nat
  day : Nat
deriving DecidableEq, Repr

namespace Date

/-- Whether February of a year has 29 days. -/
def isLeapYear (year : Int) : Bool :=
  year % 4 = 0 && (year % 100 ≠ 0 || year % 400 = 0)

def daysInMonth (year : Int) (month : Nat) : Nat :=
  match month with
  | 2 => if isLeapYear year then 29 else 28
  | 4 | 6 | 9 | 11 => 30
  | _ => 31

def isValid (d : Date) : Bool :=
  1 ≤ d.month && d.month ≤ 12 && 1 ≤ d.day && d.day ≤ daysInMonth d.year d.month

/-- The number of days from the first day of year 1 to the first day of `year`. -/
def daysBeforeYear (year : Int) : Int :=
  365 * (year - 1) + (year - 1) / 4 - (year - 1) / 100 + (year - 1) / 400

/-- The number of days of a year before the first day of `month`. -/
def daysBeforeMonth (year : Int) (month : Nat) : Nat :=
  (List.range' 1 (month - 1)).foldl (fun days m => days + daysInMonth year m) 0

/-- The days from the first day of year 1 to day 0. -/
def epoch : Int := 719162

def toDay (d : Date) : Int :=
  daysBeforeYear d.year + daysBeforeMonth d.year d.month + (d.day - 1 : Nat) - epoch

/-- The year that holds a day counted from the first day of year 1. -/
def yearOf (n : Int) : Int :=
  let guess := 400 * n / 146097 + 1
  if n < daysBeforeYear guess then guess - 1
  else if daysBeforeYear (guess + 1) ≤ n then guess + 1
  else guess

/-- The month and day of the month of the `k`-th day, from 0, of the given months. -/
def monthAndDay (year : Int) : List Nat → Nat → Nat × Nat
  | [], k => (12, k + 1)
  | month :: rest, k =>
    if k < daysInMonth year month then (month, k + 1)
    else monthAndDay year rest (k - daysInMonth year month)

def ofDay (day : Int) : Date :=
  let n := day + epoch
  let year := yearOf n
  let (month, dayOfMonth) := monthAndDay year (List.range' 1 12) (n - daysBeforeYear year).toNat
  ⟨year, month, dayOfMonth⟩

/-- The months from the start of year 0 to a date. -/
def monthNumber (d : Date) : Int := 12 * d.year + (d.month - 1 : Nat)

/-- The date `n` months earlier, its day clamped to the end of the month. -/
def minusMonths (d : Date) (n : Nat) : Date :=
  let total := d.monthNumber - n
  let year := total / 12
  let month := (total % 12).toNat + 1
  ⟨year, month, min d.day (daysInMonth year month)⟩

end Date

end GridCatalog

import GridCatalog.Calendar.Date

/-! Instants: a day, a second of the day and nanoseconds.

    A second may be followed by a leap second, written as nanoseconds from 10^9 on; it lies before
    the next second. Days reach from the start of year -262143 to the end of year 262142, and
    arithmetic that leaves that span has no result. -/

namespace GridCatalog

/-- A point in time, in universal time. -/
structure Instant where
  /-- Days since 1970-01-01. -/
  day : Int
  second : Nat
  nano : Nat
  first_le : -96465292 ≤ day
  le_last : day ≤ 95026236
  second_lt : second < 86400
  nano_lt : nano < 2000000000
deriving DecidableEq, Repr

namespace Instant

def firstDay : Int := -96465292

def lastDay : Int := 95026236

def nanosPerSecond : Nat := 1000000000

/-- The instant with the given parts, if they are in range. -/
def ofParts? (day : Int) (second nano : Nat) : Option Instant :=
  if h : (firstDay ≤ day ∧ day ≤ lastDay) ∧ second < 86400 ∧ nano < 2000000000 then
    some ⟨day, second, nano, h.1.1, h.1.2, h.2.1, h.2.2⟩
  else none

def epoch : Instant := ⟨0, 0, 0, by decide, by decide, by decide, by decide⟩

instance : Inhabited Instant := ⟨epoch⟩

/-- A number that orders instants: a leap second comes after its second and before the next. -/
def key (i : Instant) : Int := (i.day * 86400 + i.second) * 2000000000 + i.nano

instance : LE Instant := ⟨fun a b => a.key ≤ b.key⟩

instance : LT Instant := ⟨fun a b => a.key < b.key⟩

instance (a b : Instant) : Decidable (a ≤ b) := inferInstanceAs (Decidable (a.key ≤ b.key))

instance (a b : Instant) : Decidable (a < b) := inferInstanceAs (Decidable (a.key < b.key))

/-- Whether the instant lies in a leap second. -/
def inLeapSecond (i : Instant) : Bool := nanosPerSecond ≤ i.nano

/-- The instant `n` seconds later. Moving out of a leap second counts its end as the start of the
    next second going back, and its start as the second before it going forward. -/
def plusSeconds? (i : Instant) (n : Int) : Option Instant :=
  if n = 0 then some i
  else
    let nano := if i.inLeapSecond then i.nano - nanosPerSecond else i.nano
    let start : Int := if i.inLeapSecond && n < 0 then i.second + 1 else i.second
    ofParts? (i.day + (start + n) / 86400) ((start + n) % 86400).toNat nano

/-- The instant `n` minutes earlier. -/
def minusMinutes? (i : Instant) (n : Int) : Option Instant := i.plusSeconds? (-(60 * n))

/-- The instant `n` calendar months earlier, at the same time of day. -/
def minusMonths? (i : Instant) (n : Nat) : Option Instant :=
  if n = 0 then some i
  else ofParts? ((Date.ofDay i.day).minusMonths n).toDay i.second i.nano

def year (i : Instant) : Int := (Date.ofDay i.day).year

end Instant

end GridCatalog

/-! Instants and the calendar. -/
namespace Itinerary

/-- Seconds since 1970-01-01T00:00:00Z, and nanoseconds, of which a leap second has more than
`10 ^ 9`: it is counted to the second before it. -/
structure Instant where
  seconds : Int
  nanos : Nat
deriving DecidableEq, Repr

/-- A day of the Gregorian calendar, extended to all years. -/
structure Day where
  year : Int
  month : Nat
  day : Nat
deriving DecidableEq, Repr

namespace Day

def isLeap (year : Int) : Bool := year % 4 == 0 && (year % 100 != 0 || year % 400 == 0)

def monthLength (year : Int) (month : Nat) : Nat :=
  if month = 2 then (if isLeap year then 29 else 28)
  else if month = 4 ∨ month = 6 ∨ month = 9 ∨ month = 11 then 30
  else 31

def firstYear : Int := -262143

def lastYear : Int := 262142

def isValid (d : Day) : Bool :=
  1 ≤ d.month && d.month ≤ 12 && 1 ≤ d.day && d.day ≤ monthLength d.year d.month &&
    firstYear ≤ d.year && d.year ≤ lastYear

/-- Days since 1970-01-01, counted in years that start in March and in cycles of 400 of them. -/
def number (d : Day) : Int :=
  let year := if d.month ≤ 2 then d.year - 1 else d.year
  let ofCycle := year % 400
  let ofYear : Int := (153 * ((d.month + 9) % 12 : Nat) + 2) / 5 + d.day - 1
  year / 400 * 146097 + (ofCycle * 365 + ofCycle / 4 - ofCycle / 100 + ofYear) - 719468

/-- The day with this number. -/
def ofNumber (n : Int) : Day :=
  let z := n + 719468
  let inCycle := z % 146097
  let ofCycle := (inCycle - inCycle / 1460 + inCycle / 36524 - inCycle / 146096) / 365
  let ofYear := inCycle - (365 * ofCycle + ofCycle / 4 - ofCycle / 100)
  let m := (5 * ofYear + 2) / 153
  let month := if m < 10 then m + 3 else m - 9
  ⟨z / 146097 * 400 + ofCycle + (if month ≤ 2 then 1 else 0), month.toNat,
    (ofYear - (153 * m + 2) / 5 + 1).toNat⟩

end Day

namespace Instant

def ofMillis (ms : Int) : Instant := ⟨ms / 1000, (ms % 1000).toNat * 1000000⟩

def day (t : Instant) : Day := Day.ofNumber (t.seconds / 86400)

def secondOfDay (t : Instant) : Nat := (t.seconds % 86400).toNat

/-- The calendar holds the instant's year. -/
def inCalendar (t : Instant) : Bool :=
  Day.firstYear ≤ t.day.year && t.day.year ≤ Day.lastYear

def le (a b : Instant) : Bool :=
  a.seconds < b.seconds || (a.seconds == b.seconds && a.nanos ≤ b.nanos)

/-- The instant so many milliseconds later, if the calendar holds it. A leap second is left by
whole seconds or when its fraction runs over, and is then no second of its own. -/
def addMillis (t : Instant) (ms : Nat) : Option Instant :=
  let seconds : Int := (ms / 1000 : Nat)
  let nanos := ms % 1000 * 1000000
  let later : Instant :=
    if 1000000000 ≤ t.nanos ∧ seconds = 0 ∧ t.nanos + nanos < 2000000000 then
      ⟨t.seconds, t.nanos + nanos⟩
    else
      let sum := t.nanos % 1000000000 + nanos
      ⟨t.seconds + seconds + (sum / 1000000000 : Nat), sum % 1000000000⟩
  if later.inCalendar then some later else none

end Instant
end Itinerary

import Itinerary.Instant.Basic

/-! Instants in the form of RFC 3339. -/
namespace Itinerary.Instant

/-- A number with zeros in front to fill `width` places. -/
def padded (width n : Nat) : List Char :=
  let digits := Nat.toDigits 10 n
  List.replicate (width - digits.length) '0' ++ digits

/-- Years outside of four digits carry their sign. -/
def yearChars (year : Int) : List Char :=
  if year < 0 then '-' :: padded 4 year.natAbs
  else if 9999 < year then '+' :: padded 4 year.natAbs
  else padded 4 year.toNat

/-- The fewest of no, three, six or nine places that hold the fraction. -/
def fractionChars (nanos : Nat) : List Char :=
  if nanos = 0 then []
  else if nanos % 1000000 = 0 then '.' :: padded 3 (nanos / 1000000)
  else if nanos % 1000 = 0 then '.' :: padded 6 (nanos / 1000)
  else '.' :: padded 9 nanos

/-- Date and time of day; the zone is still to come. -/
def dateTimeChars (t : Instant) : List Char :=
  let d := t.day
  let s := t.secondOfDay
  let leap := t.nanos / 1000000000
  yearChars d.year ++ '-' :: padded 2 d.month ++ '-' :: padded 2 d.day ++
    'T' :: padded 2 (s / 3600) ++ ':' :: padded 2 (s / 60 % 60) ++ ':' :: padded 2 (s % 60 + leap) ++
    fractionChars (t.nanos % 1000000000)

def zulu (t : Instant) : String := String.ofList (t.dateTimeChars ++ ['Z'])

def withOffset (t : Instant) : String :=
  String.ofList (t.dateTimeChars ++ ['+', '0', '0', ':', '0', '0'])

end Itinerary.Instant

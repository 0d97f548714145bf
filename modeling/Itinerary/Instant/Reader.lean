import Itinerary.Instant.Basic
import Itinerary.Text.Blank

/-! Reading instants: the exact form of RFC 3339, and a lenient one. -/
namespace Itinerary.Instant

/-- Date and time of day as written, before their zone is known. -/
structure Fields where
  year : Int
  month : Nat
  day : Nat
  hour : Nat
  minute : Nat
  second : Nat
  nanos : Nat

/-- A date that exists and a time of day; second 60 is the leap second after second 59. The offset
is in seconds, less than a day, and the calendar holds the date both there and at offset zero. -/
def Fields.at? (f : Fields) (offset : Int) : Option Instant :=
  let date : Day := ⟨f.year, f.month, f.day⟩
  if date.isValid && f.hour ≤ 23 && f.minute ≤ 59 && f.second ≤ 60 && offset.natAbs < 86400 then
    let leap := if f.second = 60 then 1 else 0
    let t : Instant :=
      ⟨date.number * 86400 + (f.hour * 3600 + f.minute * 60 + (f.second - leap) : Nat) - offset,
        f.nanos + leap * 1000000000⟩
    if t.inCalendar then some t else none
  else none

/-- A number of at least one and at most `most` digits, as many as there are. -/
def digitsUpTo (most : Nat) (cs : List Char) : Option (Nat × List Char) :=
  let digits := (cs.take most).takeWhile Char.isDigit
  if digits.isEmpty then none
  else some (Nat.ofDigitChars 10 digits 0, cs.drop digits.length)

def digitsExactly (n : Nat) (cs : List Char) : Option (Nat × List Char) :=
  let digits := cs.take n
  if digits.length = n ∧ digits.all Char.isDigit then
    some (Nat.ofDigitChars 10 digits 0, cs.drop n)
  else none

def char (c : Char) : List Char → Option (List Char)
  | d :: cs => if d = c then some cs else none
  | [] => none

/-- The letter T in either case, or one space. -/
def separator : List Char → Option (List Char)
  | c :: cs => if c = 'T' ∨ c = 't' ∨ c = ' ' then some cs else none
  | [] => none

/-- A point and digits, of which the first nine count. -/
def fraction : List Char → Option (Nat × List Char)
  | '.' :: cs =>
    let digits := cs.takeWhile Char.isDigit
    if digits.isEmpty then none
    else
      let kept := digits.take 9
      some (Nat.ofDigitChars 10 (kept ++ List.replicate (9 - kept.length) '0') 0,
        cs.dropWhile Char.isDigit)
  | cs => some (0, cs)

/-- The letter Z, or a signed offset in seconds; `between` drops what separates its hours and
minutes. -/
def offset (between : List Char → Option (List Char)) : List Char → Option (Int × List Char)
  | [] => none
  | c :: cs =>
    if c = 'Z' ∨ c = 'z' then some (0, cs)
    else if c = '+' ∨ c = '-' ∨ c = '\u2212' then do
      let (hours, cs) ← digitsExactly 2 cs
      let (minutes, cs) ← digitsExactly 2 (← between cs)
      if 59 < minutes then none
      let seconds : Int := (hours * 3600 + minutes * 60 : Nat)
      return (if c = '+' then seconds else -seconds, cs)
    else none

/-- Exactly `YYYY-MM-DDTHH:MM:SS`, perhaps a fraction, and the zone. -/
def parse? (text : String) : Option Instant := do
  let (year, cs) ← digitsExactly 4 text.toList
  let (month, cs) ← digitsExactly 2 (← char '-' cs)
  let (day, cs) ← digitsExactly 2 (← char '-' cs)
  let (hour, cs) ← digitsExactly 2 (← separator cs)
  let (minute, cs) ← digitsExactly 2 (← char ':' cs)
  let (second, cs) ← digitsExactly 2 (← char ':' cs)
  let (nanos, cs) ← fraction cs
  let (zone, cs) ← offset (char ':') cs
  if cs.isEmpty then Fields.at? ⟨year, month, day, hour, minute, second, nanos⟩ zone else none

/-- Up to four digits, or a sign and any number of them, blanks before. -/
def lenientYear (cs : List Char) : Option (Int × List Char) :=
  match Text.trimStart cs with
  | '-' :: r => (digitsUpTo r.length r).map fun (n, rest) => (-(n : Int), rest)
  | '+' :: r => (digitsUpTo r.length r).map fun (n, rest) => ((n : Int), rest)
  | r => (digitsUpTo 4 r).map fun (n, rest) => ((n : Int), rest)

/-- One or two digits, blanks before. -/
def lenientField (cs : List Char) : Option (Nat × List Char) := digitsUpTo 2 (Text.trimStart cs)

/-- As `char`, with blanks before. -/
def lenientChar (c : Char) (cs : List Char) : Option (List Char) := char c (Text.trimStart cs)

/-- The zone by name, or an offset with colons and blanks inside at will. -/
def lenientOffset (cs : List Char) : Option (Int × List Char) :=
  if (cs.take 3).map Char.toUpper = ['U', 'T', 'C'] then some (0, cs.drop 3)
  else offset (fun r => some (r.dropWhile fun c => c == ':' || Text.isBlank c)) cs

/-- The same fields with blanks before each number and sign and around the zone, numbers of any
number of digits up to two, and years of any length after a sign. -/
def parseLenient? (text : String) : Option Instant := do
  let (year, cs) ← lenientYear text.toList
  let (month, cs) ← lenientField (← lenientChar '-' cs)
  let (day, cs) ← lenientField (← lenientChar '-' cs)
  let (hour, cs) ← lenientField (← separator cs)
  let (minute, cs) ← lenientField (← lenientChar ':' cs)
  let (second, cs) ← lenientField (← lenientChar ':' cs)
  let (nanos, cs) ← fraction cs
  let (zone, cs) ← lenientOffset (Text.trimStart cs)
  if (Text.trimStart cs).isEmpty then
    Fields.at? ⟨year, month, day, hour, minute, second, nanos⟩ zone
  else none

end Itinerary.Instant

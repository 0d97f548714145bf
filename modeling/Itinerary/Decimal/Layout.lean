import Itinerary.Decimal.Shortest

/-! How numbers are written: positional, with an exponent, or with fixed places. -/
namespace Itinerary.Decimal

/-- All digits in place, without an exponent and with a point only where a fraction follows. -/
def positional (d : Decimal) : List Char :=
  let digits := Nat.toDigits 10 d.digits
  if 0 ≤ d.exponent then digits ++ List.replicate d.exponent.toNat '0'
  else
    let places := (-d.exponent).toNat
    if places < digits.length then
      digits.take (digits.length - places) ++ '.' :: digits.drop (digits.length - places)
    else '0' :: '.' :: (List.replicate (places - digits.length) '0' ++ digits)

/-- One digit before the point, and a power of ten that always carries its sign. -/
def scientific (d : Decimal) : List Char :=
  let digits := Nat.toDigits 10 d.digits
  let power : Int := d.exponent + (digits.length - 1 : Nat)
  let fraction := if digits.length = 1 then [] else '.' :: digits.drop 1
  digits.take 1 ++ fraction ++ 'e' :: (if power < 0 then '-' else '+') ::
    Nat.toDigits 10 power.natAbs

def signed (negative : Bool) (magnitude : List Char) : List Char :=
  if negative then '-' :: magnitude else magnitude

/-- A double as plain text: the shortest digits that read back, never an exponent. -/
def plain (x : Float) : String :=
  if x.isNaN then "NaN"
  else if x.isInf then (if x < 0 then "-inf" else "inf")
  else String.ofList
    (signed (Binary64.ofFloat x).negative (positional (shortest .up x)))

/-- Exactly three places after the point. -/
def fixedThree (x : Float) : String :=
  if x.isNaN then "NaN"
  else if x.isInf then (if x < 0 then "-inf" else "inf")
  else
    let b := Binary64.ofFloat x
    let digits := Nat.toDigits 10 b.thousandths
    let padded := List.replicate (4 - digits.length) '0' ++ digits
    String.ofList <| signed b.negative <|
      padded.take (padded.length - 3) ++ '.' :: padded.drop (padded.length - 3)

end Itinerary.Decimal

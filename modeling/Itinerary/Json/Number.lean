import Itinerary.Decimal.Basic
import Itinerary.Json.Basic

/-! The value of a JSON numeral. -/
namespace Itinerary.Json

/-- A numeral taken apart: its sign, the digits before and after the point, and the power of ten.
`fraction` and `power` are missing where the numeral has no such part. -/
structure Numeral where
  negative : Bool
  whole : List Char
  fraction : Option (List Char)
  power : Option (Bool × List Char)

namespace Numeral

/-- Appends digits as long as the significand fits 64 bits; what is left over comes with it. -/
def gather (significand : Nat) : List Char → Nat × List Char
  | [] => (significand, [])
  | c :: cs =>
    let next := significand * 10 + (c.toNat - '0'.toNat)
    if next < UInt64.size then gather next cs else (significand, c :: cs)

/-- The number `x · 10 ^ power`, rounded once for each power of ten it takes, the largest of which is
`10 ^ 308`; nothing if that is beyond all doubles. -/
def scale (x : Float) (power : Int) : Option Float :=
  if power < -308 then
    if x == 0 then some x else scale (x / (Decimal.mk 1 308).toFloat) (power + 308)
  else if power < 0 then some (x / (Decimal.mk 1 (-power)).toFloat)
  else if 308 < power then (if x == 0 then some x else none)
  else
    let y := x * (Decimal.mk 1 power).toFloat
    if y.isInf then none else some y
termination_by (-power).toNat
decreasing_by omega

/-- The exponent as a number of 32 bits, or the sign of one that does not fit. -/
def exponent : Option (Bool × List Char) → Except Bool Int
  | none => .ok 0
  | some (negative, digits) =>
    let n := Nat.ofDigitChars 10 digits 0
    if n < Nat.pow 2 31 then .ok (if negative then -(n : Int) else n) else .error negative

/-- A numeral without fraction and power that fits 64 bits is whole, except minus zero. All others
are doubles, unless they are beyond them. -/
def value (t : Numeral) : Option Json :=
  let (significand, surplus) := gather 0 t.whole
  let signed (x : Float) : Float := if t.negative then -x else x
  if t.fraction.isNone && t.power.isNone && surplus.isEmpty then
    if !t.negative then some (.int significand)
    else if significand = 0 ∨ Nat.pow 2 63 < significand then
      some (.float (-Float.ofNat significand))
    else some (.int (-(significand : Int)))
  else
    let fraction := t.fraction.getD []
    let (significand, unread) := gather significand fraction
    let shift : Int := (surplus.length : Int) - (fraction.length - unread.length : Nat)
    match exponent t.power with
    | .ok e => (scale (Float.ofNat significand) (shift + e)).map (.float ∘ signed)
    | .error negative =>
      if significand ≠ 0 ∧ !negative then none else some (.float (signed 0))

end Numeral
end Itinerary.Json

/-! Decimal numerals, the doubles nearest to them, and doubles as exact numbers. -/
namespace Itinerary

/-- The number `digits · 10 ^ exponent`. -/
structure Decimal where
  digits : Nat
  exponent : Int
deriving DecidableEq, Repr

namespace Decimal

/-- How many decimal digits `n` is written with. -/
def width (n : Nat) : Nat := (Nat.toDigits 10 n).length

def infinity : Float := Float.ofBits 0x7FF0000000000000

def notANumber : Float := Float.ofBits 0x7FF8000000000000

/-- The smallest positive double is a half to this power. -/
def smallestPlaces : Nat := 1074

/-- The double nearest to `num / den`, a tie going to the even one. The fraction is counted in units
of the smallest double; from `2 ^ 53` of them on, only the multiples of some power of two are doubles.
The bits of a double, field and fraction together, count how many doubles are below it. -/
def nearestFloat (num den : Nat) : Float :=
  let scaled := num * Nat.pow 2 smallestPlaces
  let shift := (scaled / den).log2 - 52
  let unit := den * Nat.pow 2 shift
  let q := scaled / unit
  let r := scaled % unit
  let rounded := if 2 * r < unit ∨ (2 * r = unit ∧ q % 2 = 0) then q else q + 1
  Float.ofBits (UInt64.ofNat (min (shift * Nat.pow 2 52 + rounded) 0x7FF0000000000000))

/-- The nearest double. The numeral is below `10 ^ top`, so far out the answer is known without
computing the power. -/
def toFloat (d : Decimal) : Float :=
  let top : Int := width d.digits + d.exponent
  if d.digits = 0 ∨ top < -330 then 0
  else if 330 < top then infinity
  else if d.exponent < 0 then nearestFloat d.digits (Nat.pow 10 (-d.exponent).toNat)
  else nearestFloat (d.digits * Nat.pow 10 d.exponent.toNat) 1

end Decimal

/-- A finite double, exactly: `mantissa · 2 ^ exponent`, less than zero if `negative`. -/
structure Binary64 where
  negative : Bool
  mantissa : Nat
  exponent : Int
deriving DecidableEq, Repr

namespace Binary64

/-- The sign, exponent and fraction fields of the double's 64 bits. -/
def ofFloat (x : Float) : Binary64 :=
  let bits := x.toBits.toNat
  let fraction : Nat := bits % Nat.pow 2 52
  let field : Nat := bits / Nat.pow 2 52 % Nat.pow 2 11
  ⟨bits / Nat.pow 2 63 == 1,
    if field = 0 then fraction else Nat.pow 2 52 + fraction,
    if field = 0 then -1074 else (field : Int) - 1075⟩

/-- The magnitude as a decimal numeral: a power of a half is a power of five tenths. -/
def decimal (b : Binary64) : Decimal :=
  if 0 ≤ b.exponent then ⟨b.mantissa * Nat.pow 2 b.exponent.toNat, 0⟩
  else ⟨b.mantissa * Nat.pow 5 (-b.exponent).toNat, b.exponent⟩

/-- The nearest integer to the magnitude, a half going up. -/
def nearest (b : Binary64) : Nat :=
  if 0 ≤ b.exponent then b.mantissa * Nat.pow 2 b.exponent.toNat
  else
    let unit := Nat.pow 2 (-b.exponent).toNat
    (2 * b.mantissa + unit) / (2 * unit)

/-- The magnitude in thousandths, a half going to the even neighbour. -/
def thousandths (b : Binary64) : Nat :=
  if 0 ≤ b.exponent then b.mantissa * 1000 * Nat.pow 2 b.exponent.toNat
  else
    let unit := Nat.pow 2 (-b.exponent).toNat
    let q := b.mantissa * 1000 / unit
    let r := b.mantissa * 1000 % unit
    if 2 * r < unit ∨ (2 * r = unit ∧ q % 2 = 0) then q else q + 1

end Binary64

namespace Decimal

/-- The nearest integer, a half going away from zero, held within 64 bits; zero for no number. -/
def roundToInt64 (x : Float) : Int :=
  if x.isNaN then 0
  else if x.isInf then (if x < 0 then -(Nat.pow 2 63 : Nat) else (Nat.pow 2 63 : Nat) - 1)
  else
    let b := Binary64.ofFloat x
    let n : Int := b.nearest
    if b.negative then max (-n) (-(Nat.pow 2 63 : Nat)) else min n ((Nat.pow 2 63 : Nat) - 1)

end Decimal
end Itinerary

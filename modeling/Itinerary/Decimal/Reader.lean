import Itinerary.Decimal.Basic
import Itinerary.Text.Blank

/-! Reading numbers from text. -/
namespace Itinerary.Decimal

/-- A leading sign, if there is one: whether it is a minus, and the rest. -/
def takeSign : List Char → Bool × List Char
  | '-' :: cs => (true, cs)
  | '+' :: cs => (false, cs)
  | cs => (false, cs)

def digitsValue (cs : List Char) : Nat := Nat.ofDigitChars 10 cs 0

/-- At least one digit and nothing else. -/
def readDigits (cs : List Char) : Option Nat :=
  if cs.isEmpty || !cs.all Char.isDigit then none else some (digitsValue cs)

/-- The power after a mantissa: nothing, or `e` and a signed number. -/
def readPower : List Char → Option Int
  | [] => some 0
  | c :: cs =>
    if c = 'e' ∨ c = 'E' then
      let (negative, digits) := takeSign cs
      (readDigits digits).map fun n => if negative then -(n : Int) else n
    else none

/-- Digits with at most one point among, before or after them, and an optional power of ten. -/
def readNumeral (cs : List Char) : Option Decimal :=
  let whole := cs.takeWhile Char.isDigit
  let rest := cs.dropWhile Char.isDigit
  let (fraction, rest) :=
    match rest with
    | '.' :: r => (r.takeWhile Char.isDigit, r.dropWhile Char.isDigit)
    | r => ([], r)
  if whole.isEmpty && fraction.isEmpty then none
  else (readPower rest).map fun power =>
    ⟨digitsValue (whole ++ fraction), power - (fraction.length : Int)⟩

/-- A double: an optional sign, then a numeral, or an infinity or no number by name. -/
def readFloat (cs : List Char) : Option Float :=
  let (negative, cs) := takeSign cs
  let magnitude :=
    if Text.equalIgnoringCase cs ['i', 'n', 'f'] ||
        Text.equalIgnoringCase cs ['i', 'n', 'f', 'i', 'n', 'i', 't', 'y'] then some infinity
    else if Text.equalIgnoringCase cs ['n', 'a', 'n'] then some notANumber
    else (readNumeral cs).map toFloat
  magnitude.map fun x => if negative then -x else x

/-- A count of 32 bits, written with digits and perhaps a plus. -/
def readCount (cs : List Char) : Option UInt32 :=
  let digits := match cs with
    | '+' :: r => r
    | r => r
  (readDigits digits).bind fun n => if n < UInt32.size then some (UInt32.ofNat n) else none

end Itinerary.Decimal

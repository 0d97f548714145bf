import Itinerary.Decimal.Basic

/-! The fewest digits that read back as a given double. -/
namespace Itinerary.Decimal

/-- Which of two equally near numerals is written. -/
inductive Tie where
  | even
  | up
deriving DecidableEq, Repr

/-- The same number without trailing zero digits. -/
def stripped (d : Decimal) : Decimal :=
  if h : d.digits = 0 then ⟨0, 0⟩
  else if d.digits % 10 = 0 then stripped ⟨d.digits / 10, d.exponent + 1⟩
  else d
termination_by d.digits
decreasing_by exact Nat.div_lt_self (Nat.pos_of_ne_zero h) (by decide)

/-- The numeral `exact` cut to its first `k` of `n` digits, from below or from above, whichever reads
back as the double with these bits; of two that do, the nearer. -/
def cut (tie : Tie) (bits : UInt64) (exact : Decimal) (n k : Nat) : Option Decimal :=
  let unit := Nat.pow 10 (n - k)
  let q := exact.digits / unit
  let r := exact.digits % unit
  let below : Decimal := ⟨q, exact.exponent + (n - k : Nat)⟩
  let above : Decimal := ⟨q + 1, exact.exponent + (n - k : Nat)⟩
  match below.toFloat.toBits == bits, above.toFloat.toBits == bits with
  | true, true =>
    if 2 * r < unit ∨ (2 * r = unit ∧ tie = .even ∧ q % 2 = 0) then some below else some above
  | true, false => some below
  | false, true => some above
  | false, false => none

/-- The shortest numeral of a finite double's magnitude, nearest to it among those as short. All
the digits always read back, so the search ends with them at the latest. -/
def shortest (tie : Tie) (x : Float) : Decimal :=
  let exact := (Binary64.ofFloat x).decimal
  let n := width exact.digits
  stripped (((List.range' 1 n).findSome? (cut tie x.abs.toBits exact n)).getD exact)

end Itinerary.Decimal

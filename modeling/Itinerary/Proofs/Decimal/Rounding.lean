import Itinerary.Decimal.Shortest
import Itinerary.Proofs.Decimal.Fields

/-! The double nearest to a numeral depends on the number only, and a double is the one nearest to
its own exact numeral. -/
namespace Itinerary.Decimal

/-- Only the ratio counts. -/
private theorem nearestFloat_scale {k : Nat} (hk : 0 < k) (num den : Nat) :
    nearestFloat (k * num) (k * den) = nearestFloat num den := by
  have double (r : Nat) : 2 * (k * r) = k * (2 * r) := Nat.mul_left_comm 2 k r
  simp only [nearestFloat, Nat.mul_assoc k, Nat.mul_div_mul_left _ _ hk, Nat.mul_mod_mul_left, double,
    Nat.mul_lt_mul_left hk, Nat.mul_right_inj (Nat.ne_of_gt hk)]

/-- A number with at most 53 significant bits above the smallest unit needs no rounding. -/
private theorem nearestFloat_exact {num den m shift : Nat} (hden : 0 < den)
    (hv : num * 2 ^ smallestPlaces = den * (m * 2 ^ shift)) (hm : m < 2 ^ 53) (hs : shift = 0 ∨ 2 ^ 52 ≤ m) :
    nearestFloat num den =
      Float.ofBits (UInt64.ofNat (min (shift * 2 ^ 52 + m) 0x7FF0000000000000)) := by
  have floor : den * (m * 2 ^ shift) / den = m * 2 ^ shift := Nat.mul_div_cancel_left _ hden
  have places : (m * 2 ^ shift).log2 - 52 = shift := by
    rcases hs with rfl | normal
    · have small : m.log2 < 53 := by
        rcases Nat.eq_zero_or_pos m with rfl | positive
        · decide
        · exact (Nat.log2_lt (Nat.ne_of_gt positive)).mpr hm
      rw [Nat.pow_zero, Nat.mul_one]
      omega
    · have below : 2 ^ (52 + shift) ≤ m * 2 ^ shift := by
        rw [Nat.pow_add]
        exact Nat.mul_le_mul_right _ normal
      have above : m * 2 ^ shift < 2 ^ (52 + shift + 1) := by
        rw [Nat.add_right_comm, Nat.pow_add]
        exact Nat.mul_lt_mul_of_pos_right hm (Nat.two_pow_pos shift)
      have nonzero : m * 2 ^ shift ≠ 0 := Nat.ne_of_gt (Nat.lt_of_lt_of_le (Nat.two_pow_pos _) below)
      rw [(Nat.log2_eq_iff nonzero).mpr ⟨below, above⟩]
      exact Nat.add_sub_cancel_left 52 shift
  have unit : 0 < den * 2 ^ shift := Nat.mul_pos hden (Nat.two_pow_pos shift)
  have whole : den * (m * 2 ^ shift) = m * (den * 2 ^ shift) := Nat.mul_left_comm den m _
  have quotient : den * (m * 2 ^ shift) / (den * 2 ^ shift) = m := by
    rw [whole, Nat.mul_div_cancel _ unit]
  have rest : den * (m * 2 ^ shift) % (den * 2 ^ shift) = 0 := by
    rw [whole, Nat.mul_mod_left]
  simp only [nearestFloat, Nat.pow_eq, hv, floor, places, quotient, rest]
  rw [if_pos (.inl unit)]

private theorem width_mul_ten {n : Nat} (hn : 0 < n) : width (10 * n) = width n + 1 := by
  have split : Nat.toDigits 10 (10 * n) = Nat.toDigits 10 n ++ ['0'] := by
    rw [Nat.toDigits_of_base_le (by decide) (by omega), Nat.mul_div_cancel_left _ (by decide),
      Nat.mul_mod_right]
    rfl
  rw [width, split, List.length_append, width]
  rfl

private theorem toFloat_zero (e : Int) : toFloat ⟨0, e⟩ = 0 := by
  simp [toFloat]

/-- A trailing zero may as well be counted in the exponent. -/
theorem toFloat_mul_ten (n : Nat) (e : Int) : toFloat ⟨10 * n, e⟩ = toFloat ⟨n, e + 1⟩ := by
  rcases Nat.eq_zero_or_pos n with rfl | hn
  · rw [Nat.mul_zero, toFloat_zero, toFloat_zero]
  have top : (width (10 * n) : Int) + e = width n + (e + 1) := by
    rw [width_mul_ten hn]
    omega
  have same : (10 * n = 0) = (n = 0) := by
    rw [Nat.mul_eq_zero, eq_iff_iff]
    omega
  have near : (if e < 0 then nearestFloat (10 * n) (10 ^ (-e).toNat)
      else nearestFloat (10 * n * 10 ^ e.toNat) 1) =
      if e + 1 < 0 then nearestFloat n (10 ^ (-(e + 1)).toNat)
      else nearestFloat (n * 10 ^ (e + 1).toNat) 1 := by
    rcases Int.lt_trichotomy e (-1) with low | rfl | high
    · have power : 10 ^ (-e).toNat = 10 * 10 ^ (-(e + 1)).toNat := by
        rw [← Nat.pow_succ']
        congr 1
        omega
      rw [if_pos (by omega), if_pos (by omega), power, nearestFloat_scale (by decide)]
    · have tenth := nearestFloat_scale (k := 10) (by decide) n 1
      simpa using tenth
    · have power : 10 ^ (e + 1).toNat = 10 * 10 ^ e.toNat := by
        rw [← Nat.pow_succ']
        congr 1
        omega
      rw [if_neg (by omega), if_neg (by omega), power, ← Nat.mul_assoc, Nat.mul_comm n 10]
  simp only [toFloat, Nat.pow_eq, top, same, near]

theorem toFloat_mul_pow_ten (n k : Nat) (e : Int) : toFloat ⟨n * 10 ^ k, e⟩ = toFloat ⟨n, e + k⟩ := by
  induction k generalizing e with
  | zero => simp
  | succ k ih =>
    have next : e + 1 + (k : Int) = e + ((k + 1 : Nat) : Int) := by omega
    rw [Nat.pow_succ', Nat.mul_left_comm, toFloat_mul_ten, ih, next]

theorem toFloat_stripped (d : Decimal) : (stripped d).toFloat = d.toFloat := by
  fun_induction stripped d with
  | case1 d hd =>
    obtain ⟨digits, exponent⟩ := d
    cases (show digits = 0 from hd)
    rw [toFloat_zero, toFloat_zero]
  | case2 d hd ht ih =>
    have whole : 10 * (d.digits / 10) = d.digits := Nat.mul_div_cancel' (Nat.dvd_of_mod_eq_zero ht)
    rw [ih, ← toFloat_mul_ten, whole]
  | case3 d hd ht => rfl

/-- A numeral that is neither zero nor far out is read as the nearest double. -/
private theorem toFloat_of_bounds {n : Nat} {e : Int} (hn : n ≠ 0) (low : 10 ^ (-e - 331).toNat ≤ n)
    (high : n < 10 ^ (330 - e).toNat) (he : e < 330) :
    toFloat ⟨n, e⟩ = if e < 0 then nearestFloat n (10 ^ (-e).toNat)
      else nearestFloat (n * 10 ^ e.toNat) 1 := by
  have one : 0 < width n := Nat.length_toDigits_pos
  have atMost : width n ≤ (330 - e).toNat :=
    (Nat.length_toDigits_le_iff (by decide) (by omega)).mpr high
  have atLeast : (-e - 331).toNat < width n := by
    rcases Nat.eq_zero_or_pos (-e - 331).toNat with zero | positive
    · omega
    · refine Nat.lt_of_not_le fun short => ?_
      have := (Nat.length_toDigits_le_iff (n := n) (b := 10) (by decide) positive).mp short
      omega
  have near : ¬ (n = 0 ∨ (width n : Int) + e < -330) := by omega
  have bounded : ¬ 330 < (width n : Int) + e := by omega
  rw [toFloat]
  simp only [near, bounded, if_false, Nat.pow_eq]

end Itinerary.Decimal

namespace Itinerary.Binary64
open Itinerary.Decimal
open Float.Model.UnpackedFloat

variable {x : Float} {sign : Sign} {field : BitVec 11} {fraction : BitVec 52}

private theorem pow_two_le_pow_five (j : Nat) : 2 ^ j ≤ 5 ^ (7 * (j / 16 + 1)) := by
  calc 2 ^ j ≤ 2 ^ (16 * (j / 16 + 1)) := Nat.pow_le_pow_right (by decide) (by omega)
    _ = (2 ^ 16) ^ (j / 16 + 1) := Nat.pow_mul 2 16 _
    _ ≤ (5 ^ 7) ^ (j / 16 + 1) := Nat.pow_le_pow_left (by decide) _
    _ = 5 ^ (7 * (j / 16 + 1)) := (Nat.pow_mul 5 7 _).symm

private theorem pow_two_le_pow_ten {k : Nat} (hk : k ≤ 1024) : 2 ^ k ≤ 10 ^ (330 - (0 : Int)).toNat := by
  calc 2 ^ k ≤ 2 ^ (13 * (k / 13 + 1)) := Nat.pow_le_pow_right (by decide) (by omega)
    _ = (2 ^ 13) ^ (k / 13 + 1) := Nat.pow_mul 2 13 _
    _ ≤ (10 ^ 4) ^ (k / 13 + 1) := Nat.pow_le_pow_left (by decide) _
    _ = 10 ^ (4 * (k / 13 + 1)) := (Nat.pow_mul 10 4 _).symm
    _ ≤ 10 ^ (330 - (0 : Int)).toNat := Nat.pow_le_pow_right (by decide) (by omega)

private theorem pow_ten_le_pow_five {k : Nat} (hk : k ≤ 1074) : 10 ^ (k - 331) ≤ 5 ^ k := by
  rcases Nat.eq_zero_or_pos (k - 331) with few | many
  · rw [few]
    exact Nat.one_le_pow _ _ (by decide)
  · have split : 5 ^ (k - (k - 331)) * 5 ^ (k - 331) = 5 ^ k := Nat.pow_sub_mul_pow 5 (Nat.sub_le _ _)
    rw [← split, show (10 : Nat) = 2 * 5 from rfl, Nat.mul_pow]
    refine Nat.mul_le_mul_right _ (Nat.le_trans (pow_two_le_pow_five _) ?_)
    exact Nat.pow_le_pow_right (by decide) (by omega)

private theorem decimal_of_natCast (negative : Bool) (m k : Nat) :
    decimal ⟨negative, m, (k : Int)⟩ = ⟨m * 2 ^ k, 0⟩ := by
  simp [decimal]

private theorem decimal_of_neg (negative : Bool) (m : Nat) {k : Nat} (hk : 0 < k) :
    decimal ⟨negative, m, -(k : Int)⟩ = ⟨m * 5 ^ k, -(k : Int)⟩ := by
  have below : ¬ 0 ≤ -(k : Int) := by omega
  simp only [decimal, below, if_false, Int.neg_neg, Int.toNat_natCast]
  rfl

/-- The exact numeral of `m` units, doubled `shift` times, reads back as the double of which it is
made. -/
private theorem toFloat_decimal_mk (negative : Bool) {m : Nat} (shift : Nat) (hm : m ≠ 0) (hlt : m < 2 ^ 53)
    (hs : shift = 0 ∨ 2 ^ 52 ≤ m) (finite : shift ≤ 2045) :
    (decimal ⟨negative, m, (shift : Int) - smallestPlaces⟩).toFloat =
      Float.ofBits (UInt64.ofNat (shift * 2 ^ 52 + m)) := by
  have places : smallestPlaces = 1074 := rfl
  have below : shift * 2 ^ 52 + m ≤ 0x7FF0000000000000 := by omega
  have exact {num den : Nat} (hden : 0 < den) (hv : num * 2 ^ smallestPlaces = den * (m * 2 ^ shift)) :
      nearestFloat num den = Float.ofBits (UInt64.ofNat (shift * 2 ^ 52 + m)) := by
    rw [nearestFloat_exact hden hv hlt hs, Nat.min_eq_left below]
  rcases Nat.lt_or_ge shift smallestPlaces with small | large
  · obtain ⟨k, hk⟩ := Nat.exists_eq_add_of_le (Nat.le_of_lt small)
    have exponent : (shift : Int) - smallestPlaces = -(k : Int) := by omega
    have five : 0 < 5 ^ k := Nat.pow_pos (by decide)
    have positive : 0 < m * 5 ^ k := Nat.mul_pos (Nat.pos_of_ne_zero hm) five
    rw [exponent, decimal_of_neg negative m (by omega)]
    refine (toFloat_of_bounds (Nat.ne_of_gt positive) ?_ ?_ (by omega)).trans ?_
    · rw [Int.neg_neg, show ((k : Int) - 331).toNat = k - 331 by omega]
      exact Nat.le_trans (pow_ten_le_pow_five (by omega)) (Nat.le_mul_of_pos_left _ (Nat.pos_of_ne_zero hm))
    · have short : m * 5 ^ k < 10 ^ 16 * 10 ^ k :=
        Nat.mul_lt_mul_of_lt_of_le (Nat.lt_of_lt_of_le hlt (by decide))
          (Nat.pow_le_pow_left (by decide) k) (Nat.pow_pos (by decide))
      rw [← Nat.pow_add] at short
      exact Nat.lt_of_lt_of_le short (Nat.pow_le_pow_right (by decide) (by omega))
    · rw [if_pos (by omega), Int.neg_neg, Int.toNat_natCast]
      apply exact (Nat.pow_pos (by decide))
      rw [hk, Nat.pow_add, show (10 : Nat) = 2 * 5 from rfl, Nat.mul_pow]
      ring
  · obtain ⟨k, rfl⟩ := Nat.exists_eq_add_of_le large
    have exponent : ((smallestPlaces + k : Nat) : Int) - smallestPlaces = k := by omega
    have positive : 0 < m * 2 ^ k := Nat.mul_pos (Nat.pos_of_ne_zero hm) (Nat.two_pow_pos k)
    rw [exponent, decimal_of_natCast]
    refine (toFloat_of_bounds (Nat.ne_of_gt positive) ?_ ?_ (by decide)).trans ?_
    · rw [show (-(0 : Int) - 331).toNat = 0 from rfl, Nat.pow_zero]
      exact positive
    · have short : m * 2 ^ k < 2 ^ 53 * 2 ^ k := Nat.mul_lt_mul_of_pos_right hlt (Nat.two_pow_pos k)
      rw [← Nat.pow_add] at short
      exact Nat.lt_of_lt_of_le short (pow_two_le_pow_ten (by omega))
    · rw [if_neg (by decide)]
      refine exact Nat.one_pos ?_
      rw [Int.toNat_zero, Nat.pow_zero, Nat.mul_one, Nat.one_mul, Nat.mul_assoc, ← Nat.pow_add,
        Nat.add_comm k]

private theorem ofFloat_of_has (hx : Has x sign field fraction) :
    ofFloat x = ⟨sign.toBitVec.toNat == 1,
      if field.toNat = 0 then fraction.toNat else 2 ^ 52 + fraction.toNat,
      if field.toNat = 0 then -1074 else field.toNat - 1075⟩ := by
  have whole := hx.toNat
  have fractionLt := fraction.isLt
  have fieldLt := field.isLt
  have top : x.toBits.toNat / Nat.pow 2 63 = sign.toBitVec.toNat := by
    change x.toBits.toNat / 2 ^ 63 = _
    omega
  have middle : x.toBits.toNat / Nat.pow 2 52 % Nat.pow 2 11 = field.toNat := by
    change x.toBits.toNat / 2 ^ 52 % 2 ^ 11 = _
    omega
  have bottom : x.toBits.toNat % Nat.pow 2 52 = fraction.toNat := by
    change x.toBits.toNat % 2 ^ 52 = _
    omega
  simp only [ofFloat, top, middle, bottom, Nat.pow_eq]

private theorem negative_of_has (hx : Has x sign field fraction) :
    (ofFloat x).negative = true ↔ sign = .negative := by
  rw [ofFloat_of_has hx]
  cases sign <;> simp [Sign.toBitVec]

/-- Sign and magnitude make up a double. -/
theorem signed_abs (hx : Has x sign field fraction) (h : Names field fraction) :
    (if (ofFloat x).negative then -x.abs else x.abs) = x := by
  have minus := negative_of_has hx
  cases sign with
  | negative =>
    have back : Has (-x.abs) .negative field fraction := (hx.abs h).neg h
    rw [if_pos (minus.mpr rfl), back.eq hx]
  | positive =>
    have plus : ¬ (ofFloat x).negative = true := by
      rw [minus]
      simp
    rw [if_neg plus, (hx.abs h).eq hx]

/-- The exact numeral of a finite double reads back as its magnitude. -/
theorem toFloat_decimal (hx : Has x sign field fraction) (finite : field ≠ 2047#11) :
    (ofFloat x).decimal.toFloat = x.abs := by
  have names : Names field fraction := fun top => absurd top finite
  have abs := hx.abs names
  have fractionLt := fraction.isLt
  have fieldLt : field.toNat < 2047 := by
    have := field.isLt
    have : field.toNat ≠ 2047 := fun he => finite (BitVec.eq_of_toNat_eq he)
    omega
  have made {m shift : Nat} (h : shift * 2 ^ 52 + m = field.toNat * 2 ^ 52 + fraction.toNat) :
      Float.ofBits (UInt64.ofNat (shift * 2 ^ 52 + m)) = x.abs := by
    refine (has_ofBits names (BitVec.eq_of_toNat_eq ?_)).eq abs
    rw [toNat_bits, h]
    change (UInt64.ofNat _).toNat = 0 * 2 ^ 63 + _ + _
    rw [UInt64.toNat_ofNat']
    omega
  rw [ofFloat_of_has hx]
  by_cases bottom : field.toNat = 0
  · rw [if_pos bottom, if_pos bottom]
    by_cases zero : fraction.toNat = 0
    · have whole : x.abs = 0 := by
        cases BitVec.eq_of_toNat_eq (x := field) (y := 0#11) bottom
        cases BitVec.eq_of_toNat_eq (x := fraction) (y := 0#52) zero
        exact abs.eq has_zero
      rw [zero, whole]
      refine (congrArg Decimal.toFloat (decimal_of_neg _ 0 (k := smallestPlaces) (by decide))).trans ?_
      rw [Nat.zero_mul, toFloat_zero]
    · refine (toFloat_decimal_mk _ 0 zero (by omega) (.inl rfl) (by decide)).trans (made ?_)
      omega
  · rw [if_neg bottom, if_neg bottom]
    obtain ⟨shift, hs⟩ : ∃ shift, field.toNat = shift + 1 := ⟨field.toNat - 1, by omega⟩
    have exponent : (field.toNat : Int) - 1075 = shift - smallestPlaces := by
      rw [hs, show smallestPlaces = 1074 from rfl]
      omega
    rw [exponent]
    refine (toFloat_decimal_mk _ shift ?_ ?_ (.inr ?_) ?_).trans (made ?_) <;> omega

end Itinerary.Binary64

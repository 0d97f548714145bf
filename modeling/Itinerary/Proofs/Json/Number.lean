import Itinerary.Proofs.Decimal.Reading
import Itinerary.Proofs.Json.Text

/-! Every number is written as a proper numeral for it, and a whole one of 64 bits is read back. -/
namespace Itinerary

namespace Decimal

private theorem exponent_stripped (d : Decimal) (h : (stripped d).digits = 0) :
    (stripped d).exponent = 0 := by
  fun_induction stripped d with
  | case1 d hz => rfl
  | case2 d hn hm ih => exact ih h
  | case3 d hn hm => exact absurd h hn

private theorem exponent_shortest (tie : Tie) (x : Float) (h : (shortest tie x).digits = 0) :
    (shortest tie x).exponent = 0 := exponent_stripped _ h

end Decimal

namespace Json
open Decimal

namespace Numeral

/-- The power of ten that is written out. -/
def powerValue : Option (Bool × List Char) → Int
  | none => 0
  | some (negative, digits) => if negative then -(digitsValue digits : Int) else digitsValue digits

/-- All the digits of a numeral, and the power of ten that they count for. -/
def decimal (t : Numeral) : Decimal :=
  ⟨digitsValue (t.whole ++ t.fraction.getD []), powerValue t.power - (t.fraction.getD []).length⟩

/-- A proper numeral for this number that is not that of a whole one. -/
structure Spells (t : Numeral) (negative : Bool) (d : Decimal) : Prop where
  proper : t.Proper
  sign : t.negative = negative
  parts : t.fraction.isSome = true ∨ t.power.isSome = true
  value : t.decimal.toFloat = d.toFloat

end Numeral

/-- The numeral of a whole number. -/
def wholeNumeral (n : Int) : Numeral := ⟨n < 0, Nat.toDigits 10 n.natAbs, none, none⟩

theorem wholeNumeral_proper (n : Int) : (wholeNumeral n).Proper where
  whole := Text.isDigit_toDigits _
  whole_ne := Nat.toDigits_ne_nil
  leading := by
    change ¬ ((Nat.toDigits 10 n.natAbs).head? = some '0' ∧ 1 < (Nat.toDigits 10 n.natAbs).length)
    rintro ⟨zero, long⟩
    rw [Text.eq_zero_of_leading zero, Nat.toDigits_zero] at long
    exact absurd long (by decide)
  fraction ds hd := by cases hd
  power p hp := by cases hp

theorem chars_wholeNumeral (n : Int) : (wholeNumeral n).chars = (Json.int n).chars := by
  rw [Numeral.chars, Json.chars]
  simp only [wholeNumeral, Numeral.fractionChars, Numeral.powerChars, Option.elim_none, List.append_nil]

section
variable (negative : Bool) {d : Decimal}

/-- Digits with a point between them. -/
theorem exists_point {whole fraction : List Char} (hw : ∀ c ∈ whole, c.isDigit = true)
    (some_whole : whole ≠ []) (leading : ¬ (whole.head? = some '0' ∧ 1 < whole.length))
    (hf : ∀ c ∈ fraction, c.isDigit = true) (some_fraction : fraction ≠ [])
    (value : toFloat ⟨digitsValue (whole ++ fraction), -(fraction.length : Int)⟩ = d.toFloat) :
    ∃ t : Numeral, t.Spells negative d ∧ t.chars = signed negative (whole ++ '.' :: fraction) := by
  refine ⟨⟨negative, whole, some fraction, none⟩, ⟨⟨hw, some_whole, leading, ?_, ?_⟩, rfl, .inl rfl, ?_⟩, ?_⟩
  · intro ds hds
    cases hds
    exact ⟨some_fraction, hf⟩
  · intro p hp
    cases hp
  · rw [← value, Numeral.decimal]
    simp only [Option.getD_some, Numeral.powerValue, Int.zero_sub]
  · rw [Numeral.chars]
    simp only [Numeral.fractionChars, Numeral.powerChars, Option.elim_some, Option.elim_none,
      List.append_nil]

/-- A number without places has one zero behind the point. -/
private theorem exists_wholeFraction (h : d.digits = 0 → d.exponent = 0) (hd : 0 ≤ d.exponent) :
    ∃ t : Numeral, t.Spells negative d ∧ t.chars = signed negative (positional d ++ ['.', '0']) := by
  have digits := Text.isDigit_toDigits d.digits
  rw [positional, if_pos hd]
  refine exists_point negative ?_ ?_ ?_ (Text.isDigit_zeros 1) (List.cons_ne_nil _ _) ?_
  · exact List.forall_mem_append.mpr ⟨digits, Text.isDigit_zeros _⟩
  · exact List.append_ne_nil_of_left_ne_nil Nat.toDigits_ne_nil _
  · rintro ⟨zero, long⟩
    rw [List.head?_append, List.head?_eq_some_head Nat.toDigits_ne_nil, Option.some_or,
      ← List.head?_eq_some_head] at zero
    have none := Text.eq_zero_of_leading zero
    rw [none, h none, Nat.toDigits_zero] at long
    exact absurd long (by decide)
  · -- the zero behind the point is one more of those at the end
    have zeros : List.replicate d.exponent.toNat '0' ++ ['0'] = List.replicate (d.exponent.toNat + 1) '0' :=
      List.replicate_succ'.symm
    have back : -(['0'].length : Int) + (d.exponent.toNat + 1 : Nat) = d.exponent := by
      rw [List.length_singleton]
      omega
    rw [List.append_assoc, zeros, digitsValue, Text.ofDigitChars_append_zeros,
      Nat.ofDigitChars_ten_toDigits]
    exact (toFloat_mul_pow_ten _ _ _).trans (by rw [back])

/-- A number with places has all of its digits, and zeros before them if they are too few. -/
private theorem exists_places (h : d.digits ≠ 0) (hd : d.exponent < 0) :
    ∃ t : Numeral, t.Spells negative d ∧ t.chars = signed negative (positional d) := by
  have digits := Text.isDigit_toDigits d.digits
  have below : ¬ 0 ≤ d.exponent := by omega
  rw [positional, if_neg below]
  by_cases inside : (-d.exponent).toNat < (Nat.toDigits 10 d.digits).length
  · obtain ⟨k, hk⟩ : ∃ k, k = (Nat.toDigits 10 d.digits).length - (-d.exponent).toNat := ⟨_, rfl⟩
    have positive : k ≠ 0 := by omega
    have short : k < (Nat.toDigits 10 d.digits).length := by omega
    rw [if_pos inside, ← hk]
    refine exists_point negative (fun c hc => digits c (List.mem_of_mem_take hc)) ?_ ?_
      (fun c hc => digits c (List.mem_of_mem_drop hc)) ?_ ?_
    · simp [positive, Nat.toDigits_ne_nil]
    · rintro ⟨zero, _⟩
      rw [List.head?_take, if_neg positive] at zero
      exact h (Text.eq_zero_of_leading zero)
    · simpa using short
    · have places : -(((Nat.toDigits 10 d.digits).drop k).length : Int) = d.exponent := by
        rw [List.length_drop]
        omega
      rw [List.take_append_drop, digitsValue, Nat.ofDigitChars_ten_toDigits, places]
  · rw [if_neg inside]
    refine exists_point negative (Text.isDigit_zeros 1) (List.cons_ne_nil _ _) ?_ ?_ ?_ ?_
    · exact fun long => absurd long.2 (by decide)
    · exact List.forall_mem_append.mpr ⟨Text.isDigit_zeros _, digits⟩
    · exact List.append_ne_nil_of_right_ne_nil _ Nat.toDigits_ne_nil
    · have places : -((List.replicate ((-d.exponent).toNat - (Nat.toDigits 10 d.digits).length) '0' ++
          Nat.toDigits 10 d.digits).length : Int) = d.exponent := by
        rw [List.length_append, List.length_replicate]
        omega
      rw [places, digitsValue, Text.ofDigitChars_zeros_append, Text.ofDigitChars_zeros_append,
        Nat.ofDigitChars_ten_toDigits]

private theorem powerValue_toDigits (p : Int) :
    Numeral.powerValue (some (decide (p < 0), Nat.toDigits 10 p.natAbs)) = p := by
  simp only [Numeral.powerValue, decide_eq_true_eq, digitsValue, Nat.ofDigitChars_ten_toDigits]
  omega

private theorem exists_scientific (d : Decimal) :
    ∃ t : Numeral, t.Spells negative d ∧ t.chars = signed negative (scientific d) := by
  have digits := Text.isDigit_toDigits d.digits
  have value : digitsValue (Nat.toDigits 10 d.digits) = d.digits := Nat.ofDigitChars_ten_toDigits
  obtain ⟨c, ds, hds⟩ := List.exists_cons_of_ne_nil (Nat.toDigits_ne_nil (n := d.digits) (b := 10))
  rw [hds] at digits value
  rw [scientific, hds]
  obtain ⟨p, hp⟩ : ∃ p, p = d.exponent + ((c :: ds).length - 1 : Nat) := ⟨_, rfl⟩
  rw [← hp]
  refine ⟨⟨negative, [c], if ds = [] then none else some ds, some (p < 0, Nat.toDigits 10 p.natAbs)⟩,
    ⟨⟨?_, ?_, ?_, ?_, ?_⟩, rfl, .inr rfl, ?_⟩, ?_⟩
  · exact List.forall_mem_singleton.mpr (digits c List.mem_cons_self)
  · exact List.cons_ne_nil _ _
  · exact fun long => absurd long.2 (by simp)
  · intro fs hfs
    by_cases none : ds = []
    · simp [none] at hfs
    · rw [if_neg none] at hfs
      cases hfs
      exact ⟨none, fun c hc => digits c (List.mem_cons_of_mem _ hc)⟩
  · intro q hq
    cases hq
    exact ⟨Nat.toDigits_ne_nil, Text.isDigit_toDigits _⟩
  · have behind : (if ds = [] then none else some ds).getD [] = ds := by
      cases ds <;> rfl
    have power : p - (ds.length : Int) = d.exponent := by
      rw [hp, List.length_cons]
      omega
    rw [Numeral.decimal]
    simp only [behind, List.singleton_append, value, powerValue_toDigits, power]
  · cases ds <;> simp [Numeral.chars, Numeral.fractionChars, Numeral.powerChars]

end

/-- Every double is written as a proper numeral for its shortest digits. -/
theorem exists_floatChars (x : Float) : ∃ t : Numeral,
    t.Spells (Binary64.ofFloat x).negative (shortest .even x) ∧ t.chars = floatChars x := by
  have zero := exponent_shortest .even x
  rw [floatChars]
  split
  · by_cases whole : 0 ≤ (shortest .even x).exponent
    · rw [if_pos whole]
      exact exists_wholeFraction _ zero whole
    · rw [if_neg whole]
      exact exists_places _ (fun none => whole (Int.le_of_eq (zero none).symm)) (by omega)
  · exact exists_scientific _ _

private theorem le_ofDigitChars (cs : List Char) (n : Nat) : n ≤ Nat.ofDigitChars 10 cs n := by
  induction cs generalizing n with
  | nil => exact Nat.le_refl n
  | cons c cs ih =>
    rw [Nat.ofDigitChars_cons]
    have next := ih (10 * n + (c.toNat - '0'.toNat))
    omega

/-- Digits are gathered as long as the number fits. -/
private theorem gather_of_lt {cs : List Char} {n : Nat} (h : Nat.ofDigitChars 10 cs n < UInt64.size) :
    Numeral.gather n cs = (Nat.ofDigitChars 10 cs n, []) := by
  induction cs generalizing n with
  | nil => rfl
  | cons c cs ih =>
    rw [Nat.ofDigitChars_cons, Nat.mul_comm] at h ⊢
    have fits := Nat.lt_of_le_of_lt (le_ofDigitChars cs _) h
    rw [Numeral.gather, if_pos fits]
    exact ih h

/-- A number of 64 bits is read back. -/
theorem value_wholeNumeral {n : Nat} (h : n < UInt64.size) :
    (wholeNumeral n).value = some (.int n) := by
  have digits : Nat.ofDigitChars 10 (Nat.toDigits 10 n) 0 = n := Nat.ofDigitChars_ten_toDigits
  have gathered : Numeral.gather 0 (Nat.toDigits 10 n) = (n, []) := by
    rw [gather_of_lt (digits.symm ▸ h), digits]
  simp [Numeral.value, wholeNumeral, gathered]

end Json
end Itinerary

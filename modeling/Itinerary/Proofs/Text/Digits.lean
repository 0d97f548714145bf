import Mathlib.Algebra.Ring.Nat
import Itinerary.Proofs.Text.Runs

/-! The digits that numbers are written with, and the numbers that digits are read as. -/
namespace Itinerary.Text

theorem isDigit_toDigits (n : Nat) : ∀ c ∈ Nat.toDigits 10 n, c.isDigit = true := by
  intro c hc
  exact Nat.isDigit_of_mem_toDigits (by decide) (by decide) hc

theorem isDigit_zeros (k : Nat) : ∀ c ∈ List.replicate k '0', c.isDigit = true := by
  intro c hc
  rw [List.eq_of_mem_replicate hc]
  rfl

theorem isBlank_of_isDigit {c : Char} (h : c.isDigit = true) : isBlank c = false := by
  obtain ⟨above, below⟩ := (Bool.and_eq_true _ _).mp h
  have above : 48 ≤ c.toNat := of_decide_eq_true above
  have below : c.toNat ≤ 57 := of_decide_eq_true below
  simp only [isBlank, Bool.or_eq_false_iff, Bool.and_eq_false_iff, beq_eq_false_iff_ne,
    decide_eq_false_iff_not]
  omega

theorem trim_toDigits (n : Nat) : trim (Nat.toDigits 10 n) = Nat.toDigits 10 n := by
  apply trim_of_no_blank
  intro c hc
  exact isBlank_of_isDigit (isDigit_toDigits n c hc)

theorem ofDigitChars_zeros_append (k : Nat) (cs : List Char) :
    Nat.ofDigitChars 10 (List.replicate k '0' ++ cs) 0 = Nat.ofDigitChars 10 cs 0 := by
  rw [Nat.ofDigitChars_append, Nat.ofDigitChars_replicate_zero, Nat.mul_zero]

theorem ofDigitChars_append_zeros (cs : List Char) (k : Nat) :
    Nat.ofDigitChars 10 (cs ++ List.replicate k '0') 0 = Nat.ofDigitChars 10 cs 0 * 10 ^ k := by
  rw [Nat.ofDigitChars_append, Nat.ofDigitChars_replicate_zero, Nat.mul_comm]

/-- Digits read after the number `n` do not reach the next number with as many zeros. -/
theorem ofDigitChars_lt {cs : List Char} (h : ∀ c ∈ cs, c.isDigit = true) (n : Nat) :
    Nat.ofDigitChars 10 cs n < (n + 1) * 10 ^ cs.length := by
  induction cs generalizing n with
  | nil => simp
  | cons c cs ih =>
    have digit : c.toNat - '0'.toNat ≤ 9 := by
      have below := ((Bool.and_eq_true _ _).mp (h c List.mem_cons_self)).2
      have below : c.toNat ≤ 57 := of_decide_eq_true below
      exact (by omega : c.toNat - 48 ≤ 9)
    have rest : ∀ d ∈ cs, d.isDigit = true := fun d hd => h d (List.mem_cons_of_mem _ hd)
    rw [Nat.ofDigitChars_cons, List.length_cons, Nat.pow_succ]
    refine Nat.lt_of_lt_of_le (ih rest _) ?_
    rw [Nat.mul_comm (10 ^ _) 10, ← Nat.mul_assoc]
    exact Nat.mul_le_mul_right _ (by omega)

/-- Only zero is written with a zero in front. -/
theorem eq_zero_of_leading {n : Nat} (h : (Nat.toDigits 10 n).head? = some '0') : n = 0 := by
  obtain ⟨ds, hd⟩ := List.head?_eq_some_iff.mp h
  have digits : ∀ c ∈ ds, c.isDigit = true := fun c hc =>
    isDigit_toDigits n c (hd ▸ List.mem_cons_of_mem _ hc)
  have small : n < 10 ^ ds.length := by
    have value := Nat.ofDigitChars_ten_toDigits (n := n)
    rw [hd, Nat.ofDigitChars_cons] at value
    have below := ofDigitChars_lt digits 0
    rw [Nat.zero_add, Nat.one_mul] at below
    exact value ▸ below
  cases ds with
  | nil => exact Nat.lt_one_iff.mp small
  | cons d ds =>
    have shorter := (Nat.length_toDigits_le_iff (by decide) (Nat.succ_pos _)).mpr small
    rw [hd] at shorter
    exact absurd shorter (Nat.not_succ_le_self _)

end Itinerary.Text

import Itinerary.Polyline.Varint
import Mathlib.Algebra.Group.Int.Defs
import Mathlib.Algebra.Group.Nat.Defs
import Mathlib.Data.Nat.Digits.Defs
import Mathlib.Tactic.Common

/-! Numbers of encoded polylines are read back, as long as twice the number fits a word. -/
namespace Itinerary.Polyline.Varint

/-- Twice the number fits a signed 64-bit word. -/
def HalfWord (v : Int) : Prop := -2 ^ 62 ≤ v ∧ v < 2 ^ 62

private theorem wrap_of_word {n : Int} (h : Word n) : wrap n = n := Int.bmod_eq_of_le h.1 h.2

theorem HalfWord.word {v : Int} (h : HalfWord v) : Word v := by
  obtain ⟨low, high⟩ := h
  constructor <;> omega

theorem HalfWord.wrap {v : Int} (h : HalfWord v) : Varint.wrap v = v := wrap_of_word h.word

theorem toNat_octet {n : Nat} (h : n < 256) : (UInt8.ofNat n).toNat = n := by
  rw [UInt8.toNat_ofNat']
  exact Nat.mod_eq_of_lt h

/-- An octet that can stand in an encoded polyline. -/
def Printable (b : UInt8) : Prop := 63 ≤ b.toNat ∧ b.toNat ≤ 126

theorem groups_printable (n : Nat) : ∀ b ∈ groups n, Printable b := by
  induction n using groups.induct with
  | case1 n small =>
    rw [groups, if_pos small]
    intro b hb
    rw [List.mem_singleton.mp hb, Printable, toNat_octet (by omega)]
    omega
  | case2 n large ih =>
    rw [groups, if_neg large]
    intro b hb
    rcases List.mem_cons.mp hb with rfl | hb
    · rw [Printable, toNat_octet (by omega)]
      omega
    · exact ih b hb

/-- The five bits that an octet carries. -/
def carried (b : UInt8) : Nat := (b.toNat - 63) % 32

/-- The octets of a number carry its digits to the base 32. -/
theorem ofDigits_carried (n : Nat) : Nat.ofDigits 32 ((groups n).map carried) = n := by
  induction n using groups.induct with
  | case1 n small =>
    have bits : carried (UInt8.ofNat (n + 63)) = n := by
      rw [carried, toNat_octet (by omega)]
      omega
    rw [groups, if_pos small, List.map_singleton, bits, Nat.ofDigits_singleton]
  | case2 n large ih =>
    have bits : carried (UInt8.ofNat (n % 32 + 32 + 63)) = n % 32 := by
      rw [carried, toNat_octet (by omega)]
      omega
    rw [groups, if_neg large, List.map_cons, bits, Nat.ofDigits_cons, ih]
    exact Nat.mod_add_div n 32

theorem length_groups_le {n k : Nat} (hk : 0 < k) (h : n < 32 ^ k) : (groups n).length ≤ k := by
  induction n using groups.induct generalizing k with
  | case1 n small =>
    rw [groups, if_pos small]
    exact hk
  | case2 n large ih =>
    obtain _ | _ | k := k
    · cases hk
    · omega
    · have fewer : n / 32 < 32 ^ (k + 1) := Nat.div_lt_of_lt_mul (by rwa [Nat.pow_succ, Nat.mul_comm] at h)
      rw [groups, if_neg large]
      exact Nat.succ_le_succ (ih (Nat.succ_pos k) fewer)

theorem groups_ne_nil (n : Nat) : groups n ≠ [] := by
  rw [groups]
  split <;> exact List.cons_ne_nil _ _

/-- A printable octet that comes in time is a group: the last one, or one that more follow. -/
theorem readGroups_cons {b : UInt8} (hb : Printable b) {count : Nat} (hc : count ≤ 12) (offset : Nat)
    (bs : List UInt8) : readGroups offset count (b :: bs) =
      if b.toNat - 63 < 32 then .ok (b.toNat - 63, offset + 1, bs)
      else match readGroups (offset + 1) (count + 1) bs with
        | .ok (high, rest) => .ok ((b.toNat - 63) % 32 + 32 * high, rest)
        | .error e => .error e := by
  have valid : ¬ (b < 63 ∨ 126 < b ∨ 12 < count) := by
    simp only [UInt8.lt_iff_toNat_lt, UInt8.reduceToNat]
    have := hb.1
    have := hb.2
    omega
  rw [readGroups]
  exact if_neg valid

/-- The groups of a number are read back, if no more are left to read than may come. -/
private theorem readGroups_groups {n count : Nat} (hc : count ≤ 12) (hn : n < 32 ^ (13 - count))
    (offset : Nat) (rest : List UInt8) : readGroups offset count (groups n ++ rest) =
      .ok (n, offset + (groups n).length, rest) := by
  induction n using groups.induct generalizing offset count with
  | case1 n small =>
    have octet : (UInt8.ofNat (n + 63)).toNat = n + 63 := toNat_octet (by omega)
    have printable : Printable (UInt8.ofNat (n + 63)) := groups_printable n _ (by simp [groups, small])
    rw [groups, if_pos small, List.singleton_append, readGroups_cons printable hc, octet,
      Nat.add_sub_cancel, if_pos small]
    rfl
  | case2 n large ih =>
    have octet : (UInt8.ofNat (n % 32 + 32 + 63)).toNat = n % 32 + 32 + 63 := toNat_octet (by omega)
    have printable : Printable (UInt8.ofNat (n % 32 + 32 + 63)) :=
      groups_printable n _ (by rw [groups, if_neg large]; exact List.mem_cons_self)
    have early : count + 1 ≤ 12 := by
      by_contra late
      have last : 13 - count = 1 := by omega
      rw [last] at hn
      omega
    have fewer : n / 32 < 32 ^ (13 - (count + 1)) := by
      have power : 32 ^ (13 - count) = 32 ^ (13 - (count + 1)) * 32 := by
        rw [← Nat.pow_succ]
        congr 1
        omega
      exact Nat.div_lt_of_lt_mul (by rw [Nat.mul_comm, ← power]; exact hn)
    have more : ¬ n % 32 + 32 < 32 := by omega
    rw [groups, if_neg large, List.cons_append, readGroups_cons printable hc, octet,
      Nat.add_sub_cancel, if_neg more, ih early fewer]
    simp only [List.length_cons, Except.ok.injEq, Prod.mk.injEq, and_true]
    omega

theorem zigzag_of_halfWord {v : Int} (h : HalfWord v) :
    zigzag v = if v < 0 then -(2 * v) - 1 else 2 * v := by
  obtain ⟨low, high⟩ := h
  rw [zigzag, wrap_of_word ⟨by omega, by omega⟩]

theorem zigzag_bounds {v : Int} (h : HalfWord v) : 0 ≤ zigzag v ∧ zigzag v < 2 ^ 63 := by
  rw [zigzag_of_halfWord h]
  obtain ⟨low, high⟩ := h
  split <;> omega

private theorem unzigzag_zigzag {v : Int} (h : HalfWord v) : unzigzag (zigzag v) = v := by
  rw [zigzag_of_halfWord h, unzigzag]
  split <;> split <;> omega

theorem write_of_halfWord {v : Int} (h : HalfWord v) : write v = groups (zigzag v).toNat := by
  rw [write]
  exact if_neg (Int.not_lt.mpr (zigzag_bounds h).1)

theorem write_printable {v : Int} (h : HalfWord v) : ∀ b ∈ write v, Printable b := by
  rw [write_of_halfWord h]
  exact groups_printable _

/-- A number is read back from its octets, whatever comes behind them. -/
theorem read_write {v : Int} (h : HalfWord v) (offset : Nat) (rest : List UInt8) :
    read offset (write v ++ rest) = .ok (v, offset + (write v).length, rest) := by
  obtain ⟨low, high⟩ := zigzag_bounds h
  have whole : ((zigzag v).toNat : Int) = zigzag v := Int.toNat_of_nonneg low
  have few : (zigzag v).toNat < 32 ^ (13 - 0) := by
    have power : 32 ^ (13 - 0) = 2 ^ 65 := by decide
    omega
  have word : wrap (zigzag v) = zigzag v := wrap_of_word ⟨by omega, high⟩
  rw [read, write_of_halfWord h, readGroups_groups (Nat.zero_le 12) few]
  simp only [whole, word, unzigzag_zigzag h]

/-- All the numbers are read back. -/
theorem readAll_write {vs : List Int} (h : ∀ v ∈ vs, HalfWord v) (offset : Nat) :
    readAll offset (vs.flatMap write) = .ok vs := by
  induction vs generalizing offset with
  | nil =>
    rw [List.flatMap_nil, readAll]
    rfl
  | cons v vs ih =>
    obtain ⟨first, rest⟩ := List.forall_mem_cons.mp h
    have step := read_write first offset (vs.flatMap write)
    have some_octet : (write v ++ vs.flatMap write).isEmpty = false := by
      rw [List.isEmpty_eq_false_iff]
      intro none
      rw [none] at step
      cases step
    rw [List.flatMap_cons, readAll, some_octet]
    simp only [Bool.false_eq_true, if_false]
    split
    · rename_i heq
      rw [step] at heq
      cases heq
      rw [ih rest]
      rfl
    · rename_i heq
      rw [step] at heq
      cases heq

end Itinerary.Polyline.Varint

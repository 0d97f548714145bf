import Itinerary.Proofs.Polyline.Grammar
import Mathlib.Tactic.Ring

/-! Numbers of encoded polylines bit by bit. Main statements: a number is written and read as if by shifts,
complements and masks of 64-bit words. -/
namespace Itinerary.Polyline.Varint

private theorem toInt_not (x : BitVec 64) : (~~~x).toInt = -x.toInt - 1 := by
  have below := x.isLt
  rw [BitVec.toInt_eq_toNat_cond, BitVec.toInt_eq_toNat_cond, BitVec.toNat_not]
  split <;> split <;> omega

private theorem toInt_shiftLeft_one (x : BitVec 64) : (x <<< 1).toInt = wrap (2 * x.toInt) := by
  have doubled : ((x.toNat * 2 ^ 1 : Nat) : Int) = 2 * x.toNat := by omega
  rw [BitVec.toInt_shiftLeft, BitVec.toInt_eq_toNat_bmod x, wrap, Nat.shiftLeft_eq, doubled]
  exact (Int.mul_bmod_bmod ..).symm

private theorem toInt_sshiftRight (x : BitVec 64) (k : Nat) : (x.sshiftRight k).toInt = x.toInt / 2 ^ k := by
  rw [BitVec.toInt_sshiftRight, Int.shiftRight_eq_div_pow]
  rfl

private theorem toNat_and_mask (x : BitVec 64) : (x &&& 31).toNat = x.toNat % 32 := by
  rw [BitVec.toNat_and]
  exact Nat.and_two_pow_sub_one_eq_mod x.toNat 5

/-- A word shifted left by a bit, and complemented if it is negative. -/
def folded (v : BitVec 64) : BitVec 64 := if v.toInt < 0 then ~~~(v <<< 1) else v <<< 1

/-- A word shifted right by a bit with its sign kept, and complemented if the bit was set. -/
def unfolded (word : BitVec 64) : BitVec 64 :=
  if word &&& 1 = 1 then ~~~(word.sshiftRight 1) else word.sshiftRight 1

private theorem toInt_folded (v : BitVec 64) : (folded v).toInt = zigzag v.toInt := by
  rw [folded, zigzag]
  split
  · rw [toInt_not, toInt_shiftLeft_one]
  · rw [toInt_shiftLeft_one]

private theorem and_one_eq_iff (word : BitVec 64) : word &&& 1 = 1 ↔ word.toInt % 2 = 1 := by
  have bit : (word &&& 1).toNat = word.toNat % 2 := by
    rw [BitVec.toNat_and]
    exact Nat.and_two_pow_sub_one_eq_mod word.toNat 1
  rw [← BitVec.toNat_inj, bit, BitVec.toInt_eq_toNat_cond]
  change word.toNat % 2 = 1 ↔ _
  split <;> omega

private theorem toInt_unfolded (word : BitVec 64) : (unfolded word).toInt = unzigzag word.toInt := by
  rw [unfolded, unzigzag]
  simp only [and_one_eq_iff]
  split
  · rw [toInt_not, toInt_sshiftRight, Int.pow_one]
  · rw [toInt_sshiftRight, Int.pow_one]

/-- The octets of a word, five bits each, until no more than that are left; of the last ones, the lowest
eight bits. -/
def spelled (word : BitVec 64) : List UInt8 :=
  if word.toInt < 32 then [.ofBitVec ((word + 63).setWidth 8)]
  else .ofBitVec ((((word &&& 31) ||| 32) + 63).setWidth 8) :: spelled (word.sshiftRight 5)
termination_by word.toInt.toNat
decreasing_by
  rw [toInt_sshiftRight]
  omega

private theorem octet_of_small (word : BitVec 64) :
    UInt8.ofBitVec ((word + 63).setWidth 8) = .ofNat ((word.toInt + 63) % 256).toNat := by
  have below := word.isLt
  rw [← UInt8.toNat_inj, UInt8.toNat_ofBitVec, BitVec.toNat_setWidth, BitVec.toNat_add,
    UInt8.toNat_ofNat', BitVec.toInt_eq_toNat_cond]
  change (word.toNat + 63) % 2 ^ 64 % 2 ^ 8 = _
  split <;> omega

private theorem octet_of_large (word : BitVec 64) :
    UInt8.ofBitVec ((((word &&& 31) ||| 32) + 63).setWidth 8) = .ofNat (word.toNat % 32 + 32 + 63) := by
  have marked : ((word &&& 31) ||| 32).toNat = word.toNat % 32 + 32 := by
    have apart := Nat.shiftLeft_add_eq_or_of_lt (i := 5) (Nat.mod_lt word.toNat (by decide)) 1
    rw [BitVec.toNat_or, toNat_and_mask, Nat.or_comm, Nat.add_comm]
    exact apart.symm
  rw [← UInt8.toNat_inj, UInt8.toNat_ofBitVec, BitVec.toNat_setWidth, BitVec.toNat_add, marked,
    UInt8.toNat_ofNat']
  change (word.toNat % 32 + 32 + 63) % 2 ^ 64 % 2 ^ 8 = _
  omega

private theorem spelled_eq_groups {word : BitVec 64} {n : Nat} (h : word.toInt = n) :
    spelled word = groups n := by
  induction n using groups.induct generalizing word with
  | case1 n small =>
    have octet : ((n : Int) + 63) % 256 = (n + 63 : Nat) := by omega
    rw [spelled, if_pos (by omega), groups, if_pos small, octet_of_small, h, octet, Int.toNat_natCast]
  | case2 n large ih =>
    have same : word.toNat = n := by
      rw [BitVec.toInt_eq_toNat_cond] at h
      split at h <;> omega
    have next : (word.sshiftRight 5).toInt = (n / 32 : Nat) := by
      rw [toInt_sshiftRight, h]
      exact (Int.natCast_ediv n 32).symm
    rw [spelled, if_neg (by omega), groups, if_neg large, octet_of_large, same, ih next]

/-- The octets of a number are those of its word. -/
theorem write_eq_spelled (v : BitVec 64) : write v.toInt = spelled (folded v) := by
  rw [write, ← toInt_folded]
  split
  · rename_i negative
    rw [spelled, if_pos (by omega), octet_of_small]
  · rename_i whole
    exact (spelled_eq_groups (Int.toNat_of_nonneg (Int.not_lt.mp whole)).symm).symm

/-- The word that octets make, five bits each, the next ones always above those before; what goes beyond
the word is lost. -/
def gathered (word : BitVec 64) (shift : Nat) : List UInt8 → BitVec 64
  | [] => word
  | b :: bs => gathered (word ||| (BitVec.ofNat 64 b.toNat - 63 &&& 31) <<< shift) (shift + 5) bs

private theorem toNat_group {b : UInt8} (h : Printable b) :
    (BitVec.ofNat 64 b.toNat - 63 &&& 31).toNat = carried b := by
  obtain ⟨low, high⟩ := h
  rw [toNat_and_mask, BitVec.toNat_sub, BitVec.toNat_ofNat, carried]
  change (2 ^ 64 - 63 + b.toNat % 2 ^ 64) % 2 ^ 64 % 32 = _
  omega

/-- A group above a word that leaves room for it adds to the word. -/
private theorem or_shiftLeft {low shift : Nat} (hl : low < 2 ^ shift) (group : BitVec 64) :
    BitVec.ofNat 64 low ||| group <<< shift = .ofNat 64 (low + 2 ^ shift * group.toNat) := by
  have apart := Nat.shiftLeft_add_eq_or_of_lt hl group.toNat
  have shifted : group <<< shift = .ofNat 64 (group.toNat <<< shift) := by
    rw [← BitVec.toNat_inj, BitVec.toNat_shiftLeft, BitVec.toNat_ofNat]
  rw [shifted, ← BitVec.ofNat_or, Nat.or_comm, ← apart, Nat.shiftLeft_eq, Nat.add_comm, Nat.mul_comm]

private theorem gathered_eq {bs : List UInt8} (h : ∀ b ∈ bs, Printable b) {low shift : Nat}
    (hl : low < 2 ^ shift) : gathered (.ofNat 64 low) shift bs = .ofNat 64 (low + 2 ^ shift * digits bs) := by
  induction bs generalizing low shift with
  | nil => rfl
  | cons b bs ih =>
    obtain ⟨first, others⟩ := List.forall_mem_cons.mp h
    have room : low + 2 ^ shift * carried b < 2 ^ (shift + 5) := by
      have five : carried b < 32 := Nat.mod_lt _ (by decide)
      calc low + 2 ^ shift * carried b < 2 ^ shift * (carried b + 1) := by
            rw [Nat.mul_succ]
            omega
        _ ≤ 2 ^ shift * 2 ^ 5 := Nat.mul_le_mul_left _ five
        _ = 2 ^ (shift + 5) := (Nat.pow_add 2 shift 5).symm
    rw [gathered, or_shiftLeft hl, toNat_group first, ih others room, digits_cons]
    congr 1
    ring

/-- A number is that of the word which its octets make. -/
theorem IsNumber.value_eq {number : List UInt8} (h : IsNumber number) :
    value number = (unfolded (gathered 0 0 number)).toInt := by
  have whole : gathered 0 0 number = .ofNat 64 (digits number) := by
    have none : 0 < 2 ^ 0 := by decide
    have sum := gathered_eq h.printable none
    rwa [Nat.pow_zero, Nat.one_mul, Nat.zero_add] at sum
  rw [value, whole, toInt_unfolded, BitVec.toInt_ofNat']
  rfl

end Itinerary.Polyline.Varint

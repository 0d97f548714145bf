import Itinerary.Text.Utf8
import Mathlib.Tactic.IntervalCases

/-! Text is read back from its UTF-8 octets. -/
namespace Itinerary.Text.Utf8

private theorem piecesFrom_whole {n : Nat} (hn : n < 0x80) (rest : List UInt8) :
    piecesFrom none (UInt8.ofNat n :: rest) = some (Char.ofNat n) :: piecesFrom none rest := by
  have whole : lead (UInt8.ofNat n) = .whole (Char.ofNat n) := by
    interval_cases n <;> rfl
  rw [piecesFrom, whole]

private theorem lead_two {k : Nat} (low : 2 ≤ k) (high : k < 32) :
    lead (UInt8.ofNat (k + 0xC0)) = .first ⟨1, k, 0x80, 0xBF⟩ := by
  interval_cases k <;> rfl

/-- The second of three octets leaves out what two would do for, and the surrogates. -/
private theorem lead_three {k : Nat} (hk : k < 16) : lead (UInt8.ofNat (k + 0xE0)) =
    .first ⟨2, k, if k = 0 then 0xA0 else 0x80, if k = 13 then 0x9F else 0xBF⟩ := by
  interval_cases k <;> rfl

/-- The second of four octets leaves out what three would do for, and what is beyond Unicode. -/
private theorem lead_four {k : Nat} (hk : k < 5) : lead (UInt8.ofNat (k + 0xF0)) =
    .first ⟨3, k, if k = 0 then 0x90 else 0x80, if k = 4 then 0x8F else 0xBF⟩ := by
  interval_cases k <;> rfl

private theorem piecesFrom_first {b : UInt8} {u : Unfinished} (h : lead b = .first u) (rest : List UInt8) :
    piecesFrom none (b :: rest) = piecesFrom (some u) rest := by
  rw [piecesFrom, h]

section
variable {value d : Nat} {l h : UInt8} (hd : d < 64) (low : l.toNat ≤ d + 0x80)
  (high : d + 0x80 ≤ h.toNat) (rest : List UInt8)
include hd low high

private theorem within : (UInt8.ofNat (d + 0x80)).toNat = d + 0x80 ∧
    (l ≤ UInt8.ofNat (d + 0x80) && UInt8.ofNat (d + 0x80) ≤ h) = true := by
  have octet : (UInt8.ofNat (d + 0x80)).toNat = d + 0x80 := by
    rw [UInt8.toNat_ofNat']
    omega
  refine ⟨octet, ?_⟩
  simp only [UInt8.le_iff_toNat_le, octet, low, high, decide_true, Bool.and_self]

private theorem piecesFrom_last : piecesFrom (some ⟨1, value, l, h⟩) (UInt8.ofNat (d + 0x80) :: rest) =
    some (Char.ofNat (value * 64 + d)) :: piecesFrom none rest := by
  obtain ⟨octet, inside⟩ := within hd low high
  rw [piecesFrom, if_pos inside]
  simp only [octet, Nat.add_sub_cancel, Nat.le_refl, if_true]

private theorem piecesFrom_more (owed : Nat) :
    piecesFrom (some ⟨owed + 2, value, l, h⟩) (UInt8.ofNat (d + 0x80) :: rest) =
      piecesFrom (some ⟨owed + 1, value * 64 + d, 0x80, 0xBF⟩) rest := by
  obtain ⟨octet, inside⟩ := within hd low high
  have owing : ¬ owed + 2 ≤ 1 := by omega
  rw [piecesFrom, if_pos inside]
  simp only [octet, Nat.add_sub_cancel, owing, if_false]
  rfl

end

/-- A character is read back from its octets. -/
private theorem piecesFrom_utf8EncodeChar (c : Char) (rest : List UInt8) :
    piecesFrom none (String.utf8EncodeChar c ++ rest) = some c :: piecesFrom none rest := by
  obtain ⟨v, hv⟩ : ∃ v, v = c.val.toNat := ⟨_, rfl⟩
  have char : Char.ofNat v = c := by
    rw [hv]
    exact Char.ofNat_toNat c
  have valid : v < 0xD800 ∨ (0xDFFF < v ∧ v < 0x110000) := hv ▸ c.valid
  simp only [String.utf8EncodeChar, ← hv]
  split
  · rename_i one
    rw [List.singleton_append, piecesFrom_whole (by omega), char]
  · split
    · have first : v / 64 % 32 = v / 64 := by omega
      have value : v / 64 * 64 + v % 64 = v := by omega
      rw [first]
      simp only [List.cons_append, List.nil_append]
      rw [piecesFrom_first (lead_two (by omega) (by omega)),
        piecesFrom_last (by omega) (Nat.le_add_left _ _) (show v % 64 + 0x80 ≤ 0xBF by omega), value,
        char]
    · split
      · have first : v / 4096 % 16 = v / 4096 := by omega
        have value : (v / 4096 * 64 + v / 64 % 64) * 64 + v % 64 = v := by omega
        have low : (if v / 4096 = 0 then 0xA0 else 0x80 : UInt8).toNat ≤ v / 64 % 64 + 0x80 := by
          split
          · exact (by omega : 0xA0 ≤ v / 64 % 64 + 0x80)
          · exact Nat.le_add_left _ _
        have high : v / 64 % 64 + 0x80 ≤ (if v / 4096 = 13 then 0x9F else 0xBF : UInt8).toNat := by
          split
          · exact (by omega : v / 64 % 64 + 0x80 ≤ 0x9F)
          · exact (by omega : v / 64 % 64 + 0x80 ≤ 0xBF)
        rw [first]
        simp only [List.cons_append, List.nil_append]
        rw [piecesFrom_first (lead_three (by omega)), piecesFrom_more (by omega) low high,
          piecesFrom_last (by omega) (Nat.le_add_left _ _) (show v % 64 + 0x80 ≤ 0xBF by omega), value,
          char]
      · have first : v / 262144 % 8 = v / 262144 := by omega
        have value : ((v / 262144 * 64 + v / 4096 % 64) * 64 + v / 64 % 64) * 64 + v % 64 = v := by omega
        have low : (if v / 262144 = 0 then 0x90 else 0x80 : UInt8).toNat ≤ v / 4096 % 64 + 0x80 := by
          split
          · exact (by omega : 0x90 ≤ v / 4096 % 64 + 0x80)
          · exact Nat.le_add_left _ _
        have high : v / 4096 % 64 + 0x80 ≤ (if v / 262144 = 4 then 0x8F else 0xBF : UInt8).toNat := by
          split
          · exact (by omega : v / 4096 % 64 + 0x80 ≤ 0x8F)
          · exact (by omega : v / 4096 % 64 + 0x80 ≤ 0xBF)
        rw [first]
        simp only [List.cons_append, List.nil_append]
        rw [piecesFrom_first (lead_four (by omega)), piecesFrom_more (by omega) low high,
          piecesFrom_more (by omega) (Nat.le_add_left _ _) (show v / 64 % 64 + 0x80 ≤ 0xBF by omega),
          piecesFrom_last (by omega) (Nat.le_add_left _ _) (show v % 64 + 0x80 ≤ 0xBF by omega), value,
          char]

/-- UTF-8 has no other pieces than characters. -/
theorem pieces_encode (cs : List Char) : pieces (encode cs) = cs.map some := by
  rw [pieces]
  induction cs with
  | nil => rfl
  | cons c cs ih =>
    rw [encode, List.flatMap_cons, piecesFrom_utf8EncodeChar]
    exact congrArg (some c :: ·) ih

theorem decode_encode (cs : List Char) : decode (encode cs) = cs := by
  rw [decode, pieces_encode, List.map_map]
  exact List.map_id cs

/-- Octets below 128 are characters of their own. -/
theorem encode_of_whole {bs : List UInt8} (h : ∀ b ∈ bs, b.toNat < 0x80) :
    encode (bs.map fun b => Char.ofNat b.toNat) = bs := by
  have single : ∀ n < 0x80, String.utf8EncodeChar (Char.ofNat n) = [UInt8.ofNat n] := by decide +kernel
  induction bs with
  | nil => rfl
  | cons b bs ih =>
    obtain ⟨whole, rest⟩ := List.forall_mem_cons.mp h
    rw [encode] at ih ⊢
    rw [List.map_cons, List.flatMap_cons, ih rest, single _ whole, UInt8.ofNat_toNat]
    rfl

end Itinerary.Text.Utf8

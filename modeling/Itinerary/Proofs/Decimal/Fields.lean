import Mathlib
import Itinerary.Decimal.Basic

/-! A double by the three fields of its bits. -/
namespace Itinerary.Binary64
open Float.Model (Format UnpackedFloat)
open Float.Model.UnpackedFloat

private theorem toNat_packComponents {f : Format} (sign : Sign) (field : BitVec f.exponentBits)
    (fraction : BitVec f.mantissaBitsWithoutImplicit) :
    (packComponents f sign field fraction).toNat =
      (sign.toBitVec.toNat * 2 ^ f.exponentBits + field.toNat) * 2 ^ f.mantissaBitsWithoutImplicit +
        fraction.toNat := by
  rw [packComponents, BitVec.toNat_append, ← Nat.shiftLeft_add_eq_or_of_lt fraction.isLt,
    BitVec.toNat_append, ← Nat.shiftLeft_add_eq_or_of_lt field.isLt, Nat.shiftLeft_eq, Nat.shiftLeft_eq]

/-- The bits with this sign and these fields. -/
def bits (sign : Sign) (field : BitVec 11) (fraction : BitVec 52) : BitVec 64 :=
  packComponents Format.binary64 sign field fraction

variable {x y : Float} {sign : Sign} {field : BitVec 11} {fraction : BitVec 52}

/-- Every 64 bits are made of these fields. -/
private theorem exists_bits (b : BitVec 64) : ∃ sign field fraction, b = bits sign field fraction :=
  ⟨_, _, _, (@packComponents_unpackSign_unpackExponent_unpackMantissa Format.binary64 b).symm⟩

theorem toNat_bits (sign : Sign) (field : BitVec 11) (fraction : BitVec 52) :
    (bits sign field fraction).toNat =
      sign.toBitVec.toNat * 2 ^ 63 + field.toNat * 2 ^ 52 + fraction.toNat := by
  refine (@toNat_packComponents Format.binary64 sign field fraction).trans ?_
  change (sign.toBitVec.toNat * 2 ^ 11 + field.toNat) * 2 ^ 52 + fraction.toNat = _
  omega

private theorem unpackExponent_bits (sign : Sign) (field : BitVec 11) (fraction : BitVec 52) :
    @unpackExponent Format.binary64 (bits sign field fraction) = field :=
  unpackExponent_packComponents

private theorem unpackMantissa_bits (sign : Sign) (field : BitVec 11) (fraction : BitVec 52) :
    @unpackMantissa Format.binary64 (bits sign field fraction) = fraction :=
  unpackMantissa_packComponents

private theorem unpack_bits (sign : Sign) (field : BitVec 11) (fraction : BitVec 52) :
    unpack Format.binary64 (bits sign field fraction) =
      if field = 2047#11 then if fraction = 0#52 then .infinity sign else .notANumber
      else if field = 0#11 then
        if h : fraction = 0#52 then .zero sign
        else .finite sign fraction.toNat (-1074) (by simpa [Nat.pos_iff_ne_zero, ← BitVec.toNat_inj] using h)
      else .finite sign (2 ^ 52 + fraction.toNat) (field.toNat - 1075) (by omega) := by
  have lead : (1#1 ++ fraction).toNat = 2 ^ 52 + fraction.toNat := by
    rw [BitVec.toNat_append, ← Nat.shiftLeft_add_eq_or_of_lt fraction.isLt]
    rfl
  have hs : @unpackSign Format.binary64 (bits sign field fraction) = sign.toBitVec :=
    unpackSign_packComponents _ _ _
  have bias : (Format.binary64.exponentBias : Int) = 1023 := rfl
  simp only [unpack, hs, unpackExponent_bits, unpackMantissa_bits, Sign.ofBitVec_toBitVec, lead, bias]
  by_cases top : field = 2047#11
  · simp [top]
  by_cases bottom : field = 0#11
  · simp [bottom]
  · simp [top, bottom]

/-- These fields stand for a number or an infinity. -/
def Names (field : BitVec 11) (fraction : BitVec 52) : Prop := field = 2047#11 → fraction = 0#52

/-- They stand for an infinity, for zero, or for a number that the sign is free to go with. -/
theorem unpack_cases (h : Names field fraction) :
    (field = 2047#11 ∧ ∀ sign, unpack Format.binary64 (bits sign field fraction) = .infinity sign) ∨
    (field ≠ 2047#11 ∧ ∀ sign, unpack Format.binary64 (bits sign field fraction) = .zero sign) ∨
    (field ≠ 2047#11 ∧ ∃ m e pos, ∀ sign,
      unpack Format.binary64 (bits sign field fraction) = .finite sign m e pos) := by
  by_cases top : field = 2047#11
  · refine .inl ⟨top, fun sign => ?_⟩
    rw [unpack_bits, if_pos top, if_pos (h top)]
  right
  by_cases bottom : field = 0#11
  · by_cases zero : fraction = 0#52
    · refine .inl ⟨top, fun sign => ?_⟩
      rw [unpack_bits, if_neg top, if_pos bottom, dif_pos zero]
    · have positive : 0 < fraction.toNat :=
        Nat.pos_of_ne_zero fun he => zero (BitVec.eq_of_toNat_eq he)
      refine .inr ⟨top, fraction.toNat, -1074, positive, fun sign => ?_⟩
      rw [unpack_bits, if_neg top, if_pos bottom, dif_neg zero]
  · refine .inr ⟨top, 2 ^ 52 + fraction.toNat, field.toNat - 1075, by omega, fun sign => ?_⟩
    rw [unpack_bits, if_neg top, if_neg bottom]

private theorem pack_unpack_bits (sign : Sign) (h : Names field fraction) :
    pack Format.binary64 (unpack Format.binary64 (bits sign field fraction)) =
      bits sign field fraction := by
  refine pack_unpack_of_valid ⟨fun top some => ?_⟩
  rw [unpackExponent_bits] at top
  rw [unpackMantissa_bits] at some
  exact absurd (h top) some

/-- The double has this sign and these fields. -/
def Has (x : Float) (sign : Sign) (field : BitVec 11) (fraction : BitVec 52) : Prop :=
  x.toBits.toBitVec = bits sign field fraction

theorem exists_has (x : Float) : ∃ sign field fraction, Has x sign field fraction :=
  exists_bits x.toBits.toBitVec

private theorem has_pack {u : UnpackedFloat} (h : Names field fraction)
    (hu : u = unpack Format.binary64 (bits sign field fraction)) :
    Has (.ofModel (.pack u)) sign field fraction := by
  rw [hu]
  exact pack_unpack_bits sign h

theorem has_ofBits (h : Names field fraction) {b : UInt64} (hb : b.toBitVec = bits sign field fraction) :
    Has (Float.ofBits b) sign field fraction :=
  has_pack h (congrArg (unpack Format.binary64) hb)

theorem has_zero : Has 0 .positive 0#11 0#52 := by
  rw [Has]
  decide +kernel

namespace Has
variable (hx : Has x sign field fraction)
include hx

theorem eq (hy : Has y sign field fraction) : x = y :=
  Float.toBits_inj.mp (UInt64.toBitVec_inj.mp (hx.trans hy.symm))

theorem toNat : x.toBits.toNat =
    sign.toBitVec.toNat * 2 ^ 63 + field.toNat * 2 ^ 52 + fraction.toNat :=
  (congrArg BitVec.toNat hx).trans (toNat_bits sign field fraction)

private theorem unpack : x.toModel.unpack = UnpackedFloat.unpack Format.binary64 (bits sign field fraction) :=
  congrArg (UnpackedFloat.unpack Format.binary64) hx

theorem names (h : x.isNaN = false) : Names field fraction := by
  change x.toModel.unpack.isNaN = false at h
  intro top
  by_cases quiet : fraction = 0#52
  · exact quiet
  · rw [hx.unpack, unpack_bits, if_pos top, if_neg quiet] at h
    cases h

theorem neg (h : Names field fraction) : Has (-x) (-sign) field fraction := by
  refine has_pack h ?_
  rcases unpack_cases h with ⟨_, he⟩ | ⟨_, he⟩ | ⟨_, m, e, pos, he⟩ <;> rw [hx.unpack, he, he] <;> rfl

theorem abs (h : Names field fraction) : Has x.abs .positive field fraction := by
  refine has_pack h ?_
  rcases unpack_cases h with ⟨_, he⟩ | ⟨_, he⟩ | ⟨_, m, e, pos, he⟩ <;> rw [hx.unpack, he, he] <;> rfl

theorem isInf_iff (h : Names field fraction) : x.isInf = true ↔ field = 2047#11 := by
  change x.toModel.unpack.isInf = true ↔ _
  rcases unpack_cases h with ⟨top, he⟩ | ⟨top, he⟩ | ⟨top, m, e, pos, he⟩ <;> rw [hx.unpack, he] <;>
    simp [top, UnpackedFloat.isInf]

/-- The fields of a finite double are not those of an infinity or of no number. -/
theorem not_top (h : x.isFinite = true) : field ≠ 2047#11 := by
  change x.toModel.unpack.isFinite = true at h
  intro top
  rw [hx.unpack, unpack_bits, if_pos top] at h
  split at h <;> cases h

/-- An infinity is below zero if it is negative. -/
theorem lt_zero_iff (h : Names field fraction) (top : field = 2047#11) : x < 0 ↔ sign = .negative := by
  change decide (x.toModel.unpack.lt (0 : Float).toModel.unpack = true) = true ↔ _
  have zero : (0 : Float).toModel.unpack = .zero .positive := has_zero.unpack.trans (unpack_bits _ _ _)
  rw [hx.unpack, unpack_bits, if_pos top, if_pos (h top), zero]
  cases sign <;> simp [UnpackedFloat.lt, UnpackedFloat.compare]

end Has
end Itinerary.Binary64

import Itinerary.Polyline.Basic

/-! Signed numbers in groups of five bits, lowest first, as printable octets: a group is 63 plus
its value, and 32 more if another group follows. -/
namespace Itinerary.Polyline.Varint

/-- What a signed 64-bit word can hold. -/
def Word (n : Int) : Prop := -0x8000000000000000 ≤ n ∧ n < 0x8000000000000000

instance (n : Int) : Decidable (Word n) := inferInstanceAs (Decidable (_ ∧ _))

/-- What a signed 64-bit word keeps of a number. -/
def wrap (n : Int) : Int := Int.bmod n UInt64.size

/-- Signed numbers on the even and odd numbers of a 64-bit word; a magnitude beyond 62 bits loses
its high bit. -/
def zigzag (v : Int) : Int := if v < 0 then -(wrap (2 * v)) - 1 else wrap (2 * v)

def unzigzag (word : Int) : Int := if word % 2 = 1 then -(word / 2) - 1 else word / 2

/-- The octets of a non-negative word. -/
def groups (n : Nat) : List UInt8 :=
  if n < 32 then [UInt8.ofNat (n + 63)]
  else UInt8.ofNat (n % 32 + 32 + 63) :: groups (n / 32)
termination_by n
decreasing_by omega

/-- A word whose sign bit is set has no groups: it is written as its lowest octet. -/
def write (v : Int) : List UInt8 :=
  let word := zigzag v
  if word < 0 then [UInt8.ofNat ((word + 63) % 256).toNat] else groups word.toNat

/-- The groups of one number, `count` of which have been read, with the offset and the octets
behind them. -/
def readGroups (offset count : Nat) :
    List UInt8 → Except GeometryError (Nat × Nat × List UInt8)
  | [] => .error (.truncated offset)
  | b :: bs =>
    if b < 63 ∨ 126 < b ∨ 12 < count then .error (.invalidCharacter offset)
    else
      let group := b.toNat - 63
      if group < 32 then .ok (group, offset + 1, bs)
      else
        match readGroups (offset + 1) (count + 1) bs with
        | .ok (high, rest) => .ok (group % 32 + 32 * high, rest)
        | .error e => .error e

/-- One number, with the offset and the octets behind it. At most thirteen groups make a number,
and of the last of those only what fits into the word counts. -/
def read (offset : Nat) (bs : List UInt8) : Except GeometryError (Int × Nat × List UInt8) :=
  match readGroups offset 0 bs with
  | .ok (n, rest) => .ok (unzigzag (wrap n), rest)
  | .error e => .error e

private theorem readGroups_shortens {bs : List UInt8} {offset count n next : Nat} {rest : List UInt8}
    (h : readGroups offset count bs = .ok (n, next, rest)) : rest.length < bs.length := by
  induction bs generalizing offset count n with
  | nil => simp [readGroups] at h
  | cons b bs ih =>
    simp only [readGroups] at h
    split at h
    · simp at h
    · split at h
      · simp only [Except.ok.injEq, Prod.mk.injEq] at h
        simp [← h.2.2]
      · split at h
        · rename_i high tail heq
          simp only [Except.ok.injEq, Prod.mk.injEq] at h
          obtain ⟨-, rfl⟩ := h
          exact Nat.lt_succ_of_lt (ih heq)
        · simp at h

theorem read_shortens {bs : List UInt8} {offset next : Nat} {v : Int} {rest : List UInt8}
    (h : read offset bs = .ok (v, next, rest)) : rest.length < bs.length := by
  unfold read at h
  split at h
  · rename_i n tail heq
    simp only [Except.ok.injEq, Prod.mk.injEq] at h
    obtain ⟨-, rfl⟩ := h
    exact readGroups_shortens heq
  · simp at h

/-- All the numbers in the octets. -/
def readAll (offset : Nat) (bs : List UInt8) : Except GeometryError (List Int) :=
  if bs.isEmpty then .ok []
  else
    match h : read offset bs with
    | .ok (v, next, rest) =>
      have := read_shortens h
      (readAll next rest).map (v :: ·)
    | .error e => .error e
termination_by bs.length

end Itinerary.Polyline.Varint

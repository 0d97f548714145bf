import Itinerary.Proofs.Polyline.Bits
import Itinerary.Proofs.Polyline.Sums

/-! Numbers at any place among other octets. Main statement: a number is read back from the place where it
is written exactly if twice the number fits a word, and so is any run of such numbers. -/
namespace Itinerary.Polyline.Varint

/-- The number at a position, and the position behind it. -/
def readAt (bs : List UInt8) (position : Nat) : Except GeometryError (Int × Nat) :=
  (read position (bs.drop position)).map fun (v, next, _) => (v, next)

/-- So many numbers from a position on, each where the one before ends, and the position behind them. -/
def readRun (bs : List UInt8) : Nat → Nat → Except GeometryError (List Int × Nat)
  | 0, position => .ok ([], position)
  | count + 1, position => do
    let (v, next) ← readAt bs position
    let (vs, last) ← readRun bs count next
    return (v :: vs, last)

/-- What is read first is the number that the octets begin with. -/
private theorem read_eq_ok_iff {bs rest : List UInt8} {offset next : Nat} {v : Int} :
    read offset bs = .ok (v, next, rest) ↔ ∃ number, IsNumber number ∧ bs = number ++ rest ∧
      v = value number ∧ next = offset + number.length := by
  constructor
  · intro h
    rcases front_cases bs with ⟨number, behind, first, rfl⟩ | begun | ⟨groups, b, behind, stray, rfl⟩
    · rw [first.read_append, Except.ok.injEq, Prod.mk.injEq, Prod.mk.injEq] at h
      obtain ⟨rfl, rfl, rfl⟩ := h
      exact ⟨number, first, rfl, rfl, rfl⟩
    · rw [read, readGroups_begun begun.2 (by rw [Nat.zero_add]; exact begun.1)] at h
      cases h
    · rw [read, readGroups_stray stray.1.2 (by rw [Nat.zero_add]; exact stray.1.1)
        (by rw [Nat.zero_add]; exact stray.2)] at h
      cases h
  · rintro ⟨number, first, rfl, hv, rfl⟩
    rw [first.read_append, hv]

private theorem readAt_of_ok {bs rest : List UInt8} {position next : Nat} {v : Int}
    (h : read position (bs.drop position) = .ok (v, next, rest)) :
    readAt bs position = .ok (v, next) := by
  rw [readAt, h]
  rfl

private theorem readAt_of_error {bs : List UInt8} {position : Nat} {e : GeometryError}
    (h : read position (bs.drop position) = .error e) : readAt bs position = .error e := by
  rw [readAt, h]
  rfl

/-- What is read at a position is the number that stands there. -/
theorem readAt_eq_ok_iff {bs : List UInt8} {position next : Nat} {v : Int} :
    readAt bs position = .ok (v, next) ↔ ∃ number, IsNumber number ∧ number <+: bs.drop position ∧
      v = value number ∧ next = position + number.length := by
  constructor
  · intro h
    cases hr : read position (bs.drop position) with
    | error e =>
      rw [readAt_of_error hr] at h
      cases h
    | ok found =>
      obtain ⟨w, behind, rest⟩ := found
      rw [readAt_of_ok hr] at h
      cases h
      obtain ⟨number, first, split, stands⟩ := read_eq_ok_iff.mp hr
      exact ⟨number, first, ⟨rest, split.symm⟩, stands⟩
  · rintro ⟨number, first, ⟨rest, split⟩, stands⟩
    exact readAt_of_ok (read_eq_ok_iff.mpr ⟨number, first, split.symm, stands⟩)

private theorem halfWord_of_readAt {bs : List UInt8} {position next : Nat} {v : Int}
    (h : readAt bs position = .ok (v, next)) : HalfWord v := by
  obtain ⟨number, -, -, stands, -⟩ := readAt_eq_ok_iff.mp h
  rw [stands]
  exact value_halfWord number

private theorem readAt_write {v : Int} (h : HalfWord v) (before after : List UInt8) :
    readAt (before ++ (write v ++ after)) before.length = .ok (v, before.length + (write v).length) := by
  have rest : read before.length ((before ++ (write v ++ after)).drop before.length) =
      .ok (v, before.length + (write v).length, after) := by
    rw [List.drop_left, read_write h]
  exact readAt_of_ok rest

/-- One number after the other. -/
private theorem readRun_write {vs : List Int} (h : ∀ v ∈ vs, HalfWord v) (before after : List UInt8) :
    readRun (before ++ (vs.flatMap write ++ after)) vs.length before.length =
      .ok (vs, before.length + (vs.flatMap write).length) := by
  induction vs generalizing before with
  | nil => rfl
  | cons v vs ih =>
    obtain ⟨first, rest⟩ := List.forall_mem_cons.mp h
    have behind := ih rest (before ++ write v)
    rw [List.append_assoc, List.length_append] at behind
    rw [List.flatMap_cons, List.append_assoc, List.length_cons, readRun, readAt_write first]
    simp only [bind, Except.bind, behind, List.length_append, Nat.add_assoc]
    rfl

private theorem halfWord_of_readRun {bs : List UInt8} {count position last : Nat} {vs : List Int}
    (h : readRun bs count position = .ok (vs, last)) : ∀ v ∈ vs, HalfWord v := by
  induction count generalizing position vs with
  | zero =>
    cases h
    exact fun v hv => absurd hv List.not_mem_nil
  | succ count ih =>
    rw [readRun] at h
    cases first : readAt bs position with
    | error e =>
      rw [first] at h
      cases h
    | ok head =>
      cases behind : readRun bs count head.2 with
      | error e =>
        simp only [first, bind, Except.bind, behind] at h
        cases h
      | ok tail =>
        simp only [first, bind, Except.bind, behind] at h
        cases h
        exact List.forall_mem_cons.mpr ⟨halfWord_of_readAt first, ih behind⟩

end Varint

open Varint

theorem octetsOf_written_single {v : Int} (h : HalfWord v) : octetsOf (written [v]) = write v := by
  rw [octetsOf_written (List.forall_mem_singleton.mpr h), List.flatMap_singleton]

/-- A number of which twice fits a word is written, by shifts and masks of its word, in thirteen octets at
most, all of them printable and only the last one below 95. It is read back at the place where it stands,
whatever stands before and behind it, and reading ends right behind it. Whatever is read is, by shifts and
masks as well, the number of such octets, and twice the number fits a word. So just these numbers are read
back, and numbers that are written one behind the other are read back in their order exactly if all of them
are such. -/
theorem read_where_written :
    (∀ v, HalfWord v → octetsOf (written [v]) = spelled (folded (.ofInt 64 v)) ∧
      IsNumber (octetsOf (written [v])) ∧ ∀ before after,
      readAt (before ++ (octetsOf (written [v]) ++ after)) before.length =
        .ok (v, before.length + (octetsOf (written [v])).length)) ∧
    (∀ bs position v next, readAt bs position = .ok (v, next) → HalfWord v ∧ ∃ number, IsNumber number ∧
      number <+: bs.drop position ∧ v = (unfolded (gathered 0 0 number)).toInt ∧
      next = position + number.length) ∧
    (∀ v, (∃ before after next,
      readAt (before ++ (octetsOf (written [v]) ++ after)) before.length = .ok (v, next)) ↔ HalfWord v) ∧
    (∀ vs before after, readRun (before ++ (octetsOf (written vs) ++ after)) vs.length before.length =
      .ok (vs, before.length + (octetsOf (written vs)).length) ↔ ∀ v ∈ vs, HalfWord v) ∧
    ∀ vs, readAll 0 (octetsOf (written vs)) = .ok vs ↔ ∀ v ∈ vs, HalfWord v := by
  have back (v : Int) (h : HalfWord v) (before after : List UInt8) :
      readAt (before ++ (octetsOf (written [v]) ++ after)) before.length =
        .ok (v, before.length + (octetsOf (written [v])).length) := by
    rw [octetsOf_written_single h]
    exact readAt_write h before after
  refine ⟨fun v h => ⟨?_, ?_, back v h⟩, fun bs position v next h => ⟨halfWord_of_readAt h, ?_⟩,
    fun v => ⟨?_, ?_⟩, fun vs before after => ⟨halfWord_of_readRun, fun h => ?_⟩,
    fun vs => ⟨fun h => ?_, readAll_written⟩⟩
  · have word : (BitVec.ofInt 64 v).toInt = v := by
      rw [BitVec.toInt_ofInt]
      exact h.wrap
    rw [octetsOf_written_single h, ← write_eq_spelled, word]
  · rw [octetsOf_written_single h]
    exact write_isNumber h
  · obtain ⟨number, whole, stands, same, behind⟩ := readAt_eq_ok_iff.mp h
    exact ⟨number, whole, stands, same.trans whole.value_eq, behind⟩
  · rintro ⟨before, after, next, h⟩
    exact halfWord_of_readAt h
  · exact fun h => ⟨[], [], _, back v h [] []⟩
  · rw [octetsOf_written h]
    exact readRun_write h before after
  · rw [← readable_of_readAll h]
    exact readable_halfWord 0 _

/-- The greatest number that is read back takes thirteen octets; the next one takes a single octet. -/
example : write (2 ^ 62 - 1) = [125, 126, 126, 126, 126, 126, 126, 126, 126, 126, 126, 126, 70] ∧
    write (2 ^ 62) = [63] := by decide +kernel

end Itinerary.Polyline

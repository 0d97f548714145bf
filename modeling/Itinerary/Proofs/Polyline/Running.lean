import Itinerary.Polyline.Encoded
import Itinerary.Proofs.Polyline.Varint

/-! Decoding as two passes: first all the numbers are read, then they are summed up. Main statement: the
passes agree with decoding, which sums up as it reads, unless a running sum is no word. -/
namespace Itinerary.Polyline

namespace Varint

private theorem readGroups_offset {bs rest : List UInt8} {offset count n next : Nat}
    (h : readGroups offset count bs = .ok (n, next, rest)) : next + rest.length = offset + bs.length := by
  induction bs generalizing offset count n with
  | nil => cases h
  | cons b bs ih =>
    simp only [readGroups] at h
    split at h
    · cases h
    · split at h
      · cases h
        rw [List.length_cons, Nat.add_right_comm, Nat.add_assoc]
      · split at h
        · rename_i high tail heq
          cases h
          rw [ih heq, List.length_cons, Nat.add_right_comm, Nat.add_assoc]
        · cases h

/-- The offset behind a number is that of the octets behind it. -/
private theorem read_offset {bs rest : List UInt8} {offset next : Nat} {v : Int}
    (h : read offset bs = .ok (v, next, rest)) : next + rest.length = offset + bs.length := by
  unfold read at h
  split at h
  · rename_i n tail heq
    simp only [Except.ok.injEq, Prod.mk.injEq] at h
    obtain ⟨-, rfl⟩ := h
    exact readGroups_offset heq
  · cases h

theorem readAll_nil (offset : Nat) : readAll offset [] = .ok [] := by
  rw [readAll]
  rfl

theorem readAll_of_ok {offset next : Nat} {bs rest : List UInt8} {v : Int}
    (h : read offset bs = .ok (v, next, rest)) : readAll offset bs = (readAll next rest).map (v :: ·) := by
  have filled : bs.isEmpty = false := by
    cases bs with
    | nil => cases h
    | cons b bs => rfl
  rw [readAll, filled]
  simp only [Bool.false_eq_true, if_false]
  split
  · rename_i heq
    rw [h] at heq
    cases heq
    rfl
  · rename_i heq
    rw [h] at heq
    cases heq

theorem readAll_of_error {offset : Nat} {bs : List UInt8} (hb : bs ≠ []) {e : GeometryError}
    (h : read offset bs = .error e) : readAll offset bs = .error e := by
  rw [readAll, if_neg (by simpa using hb)]
  split
  · rename_i heq
    rw [h] at heq
    cases heq
  · rename_i heq
    rw [h] at heq
    cases heq
    rfl

/-- The numbers that are read before the octets end or one of them is amiss. -/
def readable (offset : Nat) (bs : List UInt8) : List Int :=
  match h : read offset bs with
  | .ok (v, next, rest) =>
    have := read_shortens h
    v :: readable next rest
  | .error _ => []
termination_by bs.length

private theorem readable_of_ok {offset next : Nat} {bs rest : List UInt8} {v : Int}
    (h : read offset bs = .ok (v, next, rest)) : readable offset bs = v :: readable next rest := by
  rw [readable]
  split
  · rename_i heq
    rw [h] at heq
    cases heq
    rfl
  · rename_i heq
    rw [h] at heq
    cases heq

private theorem readable_of_error {offset : Nat} {bs : List UInt8} {e : GeometryError}
    (h : read offset bs = .error e) : readable offset bs = [] := by
  rw [readable]
  split
  · rename_i heq
    rw [h] at heq
    cases heq
  · rfl

/-- If no octet is amiss, all the numbers are readable. -/
theorem readable_of_readAll {offset : Nat} {bs : List UInt8} {ns : List Int}
    (h : readAll offset bs = .ok ns) : readable offset bs = ns := by
  induction hn : bs.length using Nat.strongRecOn generalizing offset bs ns with
  | ind n ih =>
    cases bs with
    | nil =>
      rw [readAll_nil] at h
      cases h
      exact readable_of_error rfl
    | cons b bs =>
      cases hr : read offset (b :: bs) with
      | error e =>
        rw [readAll_of_error (List.cons_ne_nil b bs) hr] at h
        cases h
      | ok head =>
        obtain ⟨v, next, rest⟩ := head
        rw [readAll_of_ok hr] at h
        cases ht : readAll next rest with
        | error e =>
          rw [ht] at h
          cases h
        | ok tail =>
          rw [ht] at h
          cases h
          rw [readable_of_ok hr, ih rest.length (hn ▸ read_shortens hr) ht rfl]

end Varint

open Varint

/-- The octets that a text is decoded from. -/
def octetsOf (text : String) : List UInt8 := Text.Utf8.encode text.toList

/-- How many numbers make a vertex. -/
def arity (elevation : Bool) : Nat := if elevation then 3 else 2

/-- The numbers of a vertex that are summed up. -/
def Vertex.numbers (elevation : Bool) (v : Vertex) : List Int :=
  [v.lat, v.lng] ++ if elevation then [v.elevation] else []

/-- Where the differences lead from `v`. -/
def Vertex.plus (v : Vertex) (lat lng elevation : Int) : Vertex :=
  ⟨v.lat + lat, v.lng + lng, v.elevation + elevation⟩

/-- Differences taken in twos, or in threes with elevation, and summed up from `v`; nothing if a
vertex is incomplete. -/
def verticesFrom : Bool → Vertex → List Int → Option (List Vertex)
  | _, _, [] => some []
  | false, v, lat :: lng :: rest =>
    let next := v.plus lat lng 0
    (verticesFrom false next rest).map (next :: ·)
  | true, v, lat :: lng :: height :: rest =>
    let next := v.plus lat lng height
    (verticesFrom true next rest).map (next :: ·)
  | _, _, _ => none

/-- The sums after each of the numbers, if every number goes to the sum that has waited longest. -/
def totals : List Int → List Int → List Int
  | sum :: sums, n :: ns => (sum + n) :: totals (sums ++ [sum + n]) ns
  | _, _ => []

/-- All the values that latitude, longitude and elevation have in turn as a text is decoded, up to the
place where that ends. They are integers here, and no words. -/
def runningSums (text : String) (elevation : Bool) : List Int :=
  totals (List.replicate (arity elevation) 0) (readable 0 (octetsOf text))

/-- Every running sum is a word. -/
def Fits (text : String) (elevation : Bool) : Prop := ∀ t ∈ runningSums text elevation, Word t

instance (text : String) (elevation : Bool) : Decidable (Fits text elevation) :=
  inferInstanceAs (Decidable (∀ _ ∈ _, _))

/-- The vertices after `v` by the two passes. -/
def assembled (elevation : Bool) (v : Vertex) (offset : Nat) (bs : List UInt8) :
    Except GeometryError (List Vertex) :=
  match readAll offset bs with
  | .ok ns =>
    match verticesFrom elevation v ns with
    | some vertices => .ok vertices
    | none => .error (.truncated (offset + bs.length))
  | .error e => .error e

section
variable {elevation : Bool} {v w : Vertex} {offset next : Nat} {bs rest : List UInt8} {e : GeometryError}

private theorem verticesAfter_of_ok (h : v.next elevation offset bs = .ok (w, next, rest)) :
    verticesAfter elevation v offset bs = (verticesAfter elevation w next rest).map (w :: ·) := by
  have filled : bs.isEmpty = false := by
    cases bs with
    | nil => cases h
    | cons b bs => rfl
  rw [verticesAfter, filled]
  simp only [Bool.false_eq_true, if_false]
  split
  · rename_i heq
    rw [h] at heq
    cases heq
    rfl
  · rename_i heq
    rw [h] at heq
    cases heq

private theorem verticesAfter_of_error (hb : bs ≠ []) (h : v.next elevation offset bs = .error e) :
    verticesAfter elevation v offset bs = .error e := by
  rw [verticesAfter, if_neg (by simpa using hb)]
  split
  · rename_i heq
    rw [h] at heq
    cases heq
  · rename_i heq
    rw [h] at heq
    cases heq
    rfl

/-- The octets begin with these numbers, and go on with the rest. -/
structure Front (offset : Nat) (bs : List UInt8) (front : List Int) (next : Nat) (rest : List UInt8) :
    Prop where
  reads : readAll offset bs = (readAll next rest).map (front ++ ·)
  size : next + rest.length = offset + bs.length

namespace Front
variable {front : List Int}

private theorem nothing (offset : Nat) (bs : List UInt8) : Front offset bs [] offset bs where
  reads := by cases readAll offset bs <;> rfl
  size := rfl

private theorem concat (h : Front offset bs front next rest) {n : Int} {after : Nat} {behind : List UInt8}
    (more : read next rest = .ok (n, after, behind)) : Front offset bs (front ++ [n]) after behind where
  reads := by
    rw [h.reads, readAll_of_ok more]
    cases readAll after behind with
    | error e => rfl
    | ok ns => exact congrArg Except.ok (List.append_cons front n ns)
  size := (read_offset more).trans h.size

/-- Numbers that are too few for a vertex fail where the next one cannot be read. -/
private theorem assembled_of_error (h : Front offset bs front next rest)
    (few : rest = [] → verticesFrom elevation v front = none) (amiss : read next rest = .error e) :
    assembled elevation v offset bs = .error e := by
  rw [assembled, h.reads]
  cases rest with
  | nil =>
    have ended : e = .truncated next := by
      cases amiss
      rfl
    rw [readAll_nil, Except.map, List.append_nil]
    dsimp only
    rw [few rfl, ended, ← h.size]
    rfl
  | cons b rest =>
    rw [readAll_of_error (List.cons_ne_nil b rest) amiss]
    rfl

private theorem assembled_of_ok (h : Front offset bs front next rest)
    (lead : ∀ ns, verticesFrom elevation v (front ++ ns) = (verticesFrom elevation w ns).map (w :: ·)) :
    assembled elevation v offset bs = (assembled elevation w next rest).map (w :: ·) := by
  rw [assembled, assembled, h.reads]
  cases readAll next rest with
  | error e => rfl
  | ok ns =>
    rw [Except.map]
    dsimp only
    rw [lead, h.size]
    cases verticesFrom elevation w ns <;> rfl

/-- One more number is added to the sum that has waited longest, or it cannot be read and the two passes
fail as well, or the sum is no word. -/
private theorem addNext_cases (h : Front offset bs front next rest)
    (few : rest = [] → verticesFrom elevation v front = none) (sum : Int) (sums : List Int) :
    (∃ n after behind, addNext sum next rest = .ok (sum + n, after, behind) ∧
      Front offset bs (front ++ [n]) after behind ∧ Word (sum + n) ∧
      totals (sum :: sums) (readable next rest) =
        (sum + n) :: totals (sums ++ [sum + n]) (readable after behind)) ∨
    (∃ e, addNext sum next rest = .error e ∧ assembled elevation v offset bs = .error e ∧
      totals (sum :: sums) (readable next rest) = []) ∨
    addNext sum next rest = .error .overflow ∧
      ∃ t ∈ totals (sum :: sums) (readable next rest), ¬ Word t := by
  rw [addNext]
  cases more : read next rest with
  | error e =>
    refine .inr (.inl ⟨e, rfl, h.assembled_of_error few more, ?_⟩)
    rw [readable_of_error more]
    rfl
  | ok head =>
    obtain ⟨n, after, behind⟩ := head
    rw [readable_of_ok more]
    by_cases word : Word (sum + n)
    · exact .inl ⟨n, after, behind, if_pos word, h.concat more, word, rfl⟩
    · exact .inr (.inr ⟨if_neg word, sum + n, List.mem_cons_self, word⟩)

end Front

/-- The running sums from a vertex on. -/
def sumsAfter (elevation : Bool) (v : Vertex) (offset : Nat) (bs : List UInt8) : List Int :=
  totals (v.numbers elevation) (readable offset bs)

/-- The next vertex is read, or the two passes fail as reading it does, or one of its sums is no word. -/
private theorem next_cases (elevation : Bool) (v : Vertex) (offset : Nat) (hb : bs ≠ []) :
    (∃ w next rest, v.next elevation offset bs = .ok (w, next, rest) ∧
      assembled elevation v offset bs = (assembled elevation w next rest).map (w :: ·) ∧
      (∀ t ∈ w.numbers elevation, Word t) ∧
      sumsAfter elevation v offset bs = w.numbers elevation ++ sumsAfter elevation w next rest) ∨
    (∃ e, v.next elevation offset bs = .error e ∧ assembled elevation v offset bs = .error e ∧
      ∀ t ∈ sumsAfter elevation v offset bs, Word t) ∨
    v.next elevation offset bs = .error .overflow ∧
      ∃ t ∈ sumsAfter elevation v offset bs, ¬ Word t := by
  have start : sumsAfter elevation v offset bs = totals
      (v.lat :: (v.lng :: if elevation then [v.elevation] else [])) (readable offset bs) := rfl
  rw [start, Vertex.next]
  rcases (Front.nothing offset bs).addNext_cases (fun none => absurd none hb) v.lat
      (v.lng :: if elevation then [v.elevation] else []) with
    ⟨lat, o₁, r₁, sum₁, front₁, word₁, totals₁⟩ | ⟨e, sum₁, fails, none⟩ | ⟨sum₁, beyond⟩
  case inr.inl =>
    rw [sum₁, none]
    exact .inr (.inl ⟨e, rfl, fails, fun t ht => absurd ht List.not_mem_nil⟩)
  case inr.inr =>
    rw [sum₁]
    exact .inr (.inr ⟨rfl, beyond⟩)
  rw [sum₁, totals₁]
  dsimp only [List.cons_append, List.nil_append] at front₁ ⊢
  have few₁ : verticesFrom elevation v [lat] = none := by cases elevation <;> rfl
  rcases front₁.addNext_cases (fun _ => few₁) v.lng
      ((if elevation then [v.elevation] else []) ++ [v.lat + lat]) with
    ⟨lng, o₂, r₂, sum₂, front₂, word₂, totals₂⟩ | ⟨e, sum₂, fails, none⟩ | ⟨sum₂, t, ht, beyond⟩
  case inr.inl =>
    rw [sum₂, none]
    exact .inr (.inl ⟨e, rfl, fails, List.forall_mem_singleton.mpr word₁⟩)
  case inr.inr =>
    rw [sum₂]
    exact .inr (.inr ⟨rfl, t, List.mem_cons_of_mem _ ht, beyond⟩)
  rw [sum₂, totals₂]
  dsimp only [List.cons_append, List.nil_append] at front₂ ⊢
  have words₂ := List.forall_mem_cons.mpr ⟨word₁, List.forall_mem_singleton.mpr word₂⟩
  cases elevation with
  | false =>
    have same : v.plus lat lng 0 = ⟨v.lat + lat, v.lng + lng, v.elevation⟩ := by
      rw [Vertex.plus, Int.add_zero]
    rw [front₂.assembled_of_ok (w := v.plus lat lng 0) fun _ => rfl, same]
    exact .inl ⟨_, o₂, r₂, rfl, rfl, words₂, rfl⟩
  | true =>
    simp only [if_true, List.cons_append, List.nil_append]
    have few₂ : verticesFrom true v [lat, lng] = none := rfl
    rcases front₂.addNext_cases (fun _ => few₂) v.elevation [v.lat + lat, v.lng + lng] with
      ⟨height, o₃, r₃, sum₃, front₃, word₃, totals₃⟩ | ⟨e, sum₃, fails, none⟩ | ⟨sum₃, t, ht, beyond⟩
    case inr.inl =>
      rw [sum₃, none]
      exact .inr (.inl ⟨e, rfl, fails, words₂⟩)
    case inr.inr =>
      rw [sum₃]
      exact .inr (.inr ⟨rfl, t, List.mem_cons_of_mem _ (List.mem_cons_of_mem _ ht), beyond⟩)
    rw [sum₃, totals₃, front₃.assembled_of_ok (w := v.plus lat lng height) fun _ => rfl]
    refine .inl ⟨_, o₃, r₃, rfl, rfl, ?_, rfl⟩
    exact List.forall_mem_cons.mpr
      ⟨word₁, List.forall_mem_cons.mpr ⟨word₂, List.forall_mem_singleton.mpr word₃⟩⟩

end

/-- Decoding is the two passes, unless a running sum is no word. -/
private theorem verticesAfter_eq (elevation : Bool) (v : Vertex) (offset : Nat) (bs : List UInt8) :
    verticesAfter elevation v offset bs =
      if ∀ t ∈ sumsAfter elevation v offset bs, Word t then assembled elevation v offset bs
      else .error .overflow := by
  induction hn : bs.length using Nat.strongRecOn generalizing v offset bs with
  | ind n ih =>
    by_cases hb : bs = []
    · subst hb
      have none : sumsAfter elevation v offset [] = [] := by
        rw [sumsAfter, readable_of_error rfl, totals.eq_def]
        cases elevation <;> rfl
      rw [none, if_pos fun t ht => absurd ht List.not_mem_nil, verticesAfter, assembled, readAll_nil]
      cases elevation <;> rfl
    rcases next_cases elevation v offset hb with ⟨w, next, rest, read, passes, words, sums⟩ |
      ⟨e, read, passes, words⟩ | ⟨read, t, ht, beyond⟩
    · rw [verticesAfter_of_ok read, passes, sums, ih rest.length (hn ▸ Vertex.next_shortens read) w next
        rest rfl]
      simp only [List.forall_mem_append, and_iff_right words]
      split <;> rfl
    · rw [verticesAfter_of_error hb read, if_pos words, passes]
    · rw [verticesAfter_of_error hb read, if_neg fun words => beyond (words t ht)]

/-- The numbers of the vertices are the running sums. -/
private theorem numbers_verticesFrom (elevation : Bool) (v : Vertex) (ns : List Int) :
    ∀ vertices, verticesFrom elevation v ns = some vertices →
      vertices.flatMap (·.numbers elevation) = totals (v.numbers elevation) ns := by
  fun_induction verticesFrom elevation v ns with
  | case1 =>
    intro vertices h
    cases h
    rw [totals.eq_def]
    rfl
  | case2 v lat lng rest next ih =>
    intro vertices h
    obtain ⟨left, hl, rfl⟩ := Option.map_eq_some_iff.mp h
    rw [List.flatMap_cons, ih left hl]
    rfl
  | case3 v lat lng height rest next ih =>
    intro vertices h
    obtain ⟨left, hl, rfl⟩ := Option.map_eq_some_iff.mp h
    rw [List.flatMap_cons, ih left hl]
    rfl
  | case4 =>
    intro vertices h
    cases h

theorem runningSums_of_readAll {text : String} {elevation : Bool} {ns : List Int}
    {vertices : List Vertex} (read : readAll 0 (octetsOf text) = .ok ns)
    (summed : verticesFrom elevation .origin ns = some vertices) :
    runningSums text elevation = vertices.flatMap (·.numbers elevation) := by
  have zeros : List.replicate (arity elevation) 0 = Vertex.origin.numbers elevation := by
    cases elevation <;> rfl
  rw [runningSums, readable_of_readAll read, numbers_verticesFrom elevation .origin ns vertices summed,
    zeros]

section
variable {text : String} {elevation : Bool}

private theorem decode_eq (text : String) (elevation : Bool) : decode text elevation =
    if Fits text elevation then
      (assembled elevation .origin 0 (octetsOf text)).map (ofVertices elevation)
    else .error .overflow := by
  have sums : sumsAfter elevation .origin 0 (octetsOf text) = runningSums text elevation := by
    cases elevation <;> rfl
  have same : (∀ t ∈ runningSums text elevation, Word t) = Fits text elevation := rfl
  rw [decode, ← octetsOf, verticesAfter_eq, sums]
  simp only [same]
  split <;> rfl

theorem decode_of_fits (h : Fits text elevation) : decode text elevation =
    (assembled elevation .origin 0 (octetsOf text)).map (ofVertices elevation) := by
  rw [decode_eq, if_pos h]

theorem decode_of_not_fits (h : ¬ Fits text elevation) : decode text elevation = .error .overflow := by
  rw [decode_eq, if_neg h]

/-- A text is decoded if its numbers are read and make vertices, and every running sum is a word. -/
theorem decode_eq_ok_iff {p : Polyline} : decode text elevation = .ok p ↔ Fits text elevation ∧
    ∃ ns vertices, readAll 0 (octetsOf text) = .ok ns ∧
      verticesFrom elevation .origin ns = some vertices ∧ p = ofVertices elevation vertices := by
  by_cases fits : Fits text elevation
  · rw [decode_of_fits fits, assembled, and_iff_right fits]
    constructor
    · intro h
      cases hr : readAll 0 (octetsOf text) with
      | error e =>
        rw [hr] at h
        cases h
      | ok ns =>
        rw [hr] at h
        dsimp only at h
        cases hv : verticesFrom elevation .origin ns with
        | none =>
          rw [hv] at h
          cases h
        | some vertices =>
          rw [hv] at h
          cases h
          exact ⟨ns, vertices, rfl, hv, rfl⟩
    · rintro ⟨ns, vertices, numbers, summed, rfl⟩
      rw [numbers]
      dsimp only
      rw [summed]
      rfl
  · rw [decode_of_not_fits fits]
    exact ⟨nofun, fun h => absurd h.1 fits⟩

end

end Itinerary.Polyline

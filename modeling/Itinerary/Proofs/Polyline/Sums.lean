import Itinerary.Proofs.Polyline.Grammar

/-! The running sums that a polyline is decoded with. A word holds those of two vertices whatever the
numbers are; those of a third may be too great, and then decoding stops. -/
namespace Itinerary.Polyline

namespace Varint

private theorem halfWord_of_read {offset next : Nat} {bs rest : List UInt8} {v : Int}
    (h : read offset bs = .ok (v, next, rest)) : HalfWord v := by
  rw [read] at h
  split at h
  · simp only [Except.ok.injEq, Prod.mk.injEq] at h
    rw [← h.1]
    exact unzigzag_halfWord _
  · cases h

theorem readable_halfWord (offset : Nat) (bs : List UInt8) : ∀ v ∈ readable offset bs, HalfWord v := by
  fun_induction readable offset bs with
  | case1 offset bs v next rest h _ ih => exact List.forall_mem_cons.mpr ⟨halfWord_of_read h, ih⟩
  | case2 => exact fun v hv => absurd hv List.not_mem_nil

end Varint

open Varint

/-- Each sum is the one before it in the same place and one number. -/
private theorem getElem_totals {sums ns : List Int} (hs : sums ≠ []) {i : Nat} (hi : i < ns.length) :
    ∃ t, (sums ++ totals sums ns)[i]? = some t ∧ (totals sums ns)[i]? = some (t + ns[i]) := by
  induction ns generalizing sums i with
  | nil => exact absurd hi (Nat.not_lt_zero _)
  | cons n ns ih =>
    obtain ⟨sum, sums, rfl⟩ := List.exists_cons_of_ne_nil hs
    cases i with
    | zero => exact ⟨sum, rfl, rfl⟩
    | succ i =>
      rw [totals]
      obtain ⟨t, before, after⟩ := ih (List.append_ne_nil_of_right_ne_nil _ (List.cons_ne_nil _ _))
        (Nat.lt_of_succ_lt_succ hi)
      refine ⟨t, ?_, after⟩
      rw [List.append_assoc] at before
      exact before

private theorem length_totals {sums : List Int} (hs : sums ≠ []) (ns : List Int) :
    (totals sums ns).length = ns.length := by
  induction ns generalizing sums with
  | nil =>
    rw [totals.eq_def]
    cases sums <;> rfl
  | cons n ns ih =>
    obtain ⟨sum, sums, rfl⟩ := List.exists_cons_of_ne_nil hs
    rw [totals, List.length_cons, ih (List.append_ne_nil_of_right_ne_nil _ (List.cons_ne_nil _ _)),
      List.length_cons]

/-- If all numbers are between two bounds, a sum is between as many times the bounds as there are
numbers in it. -/
theorem totals_between {count : Nat} (hc : 0 < count) {ns : List Int} {low high : Int}
    (h : ∀ n ∈ ns, low ≤ n ∧ n ≤ high) {i : Nat} (hi : i < ns.length) :
    ∃ t, (totals (List.replicate count 0) ns)[i]? = some t ∧
      ((i / count : Nat) + 1) * low ≤ t ∧ t ≤ ((i / count : Nat) + 1) * high := by
  have some_sum : List.replicate count (0 : Int) ≠ [] := by
    rw [Ne, List.replicate_eq_nil_iff]
    exact hc.ne'
  induction i using Nat.strongRecOn with
  | ind i ih =>
    obtain ⟨t, before, after⟩ := getElem_totals some_sum hi
    obtain ⟨above, below⟩ := h ns[i] (List.getElem_mem hi)
    refine ⟨t + ns[i], after, ?_⟩
    rcases Nat.lt_or_ge i count with first | later
    · have zero : t = 0 := by
        rw [List.getElem?_append_left (by rw [List.length_replicate]; exact first),
          List.getElem?_replicate_of_lt first] at before
        exact (Option.some.inj before).symm
      rw [Nat.div_eq_of_lt first, zero]
      omega
    · obtain ⟨t', previous, low', high'⟩ := ih (i - count) (by omega) (by omega)
      have same : t = t' := by
        rw [List.getElem?_append_right (by rw [List.length_replicate]; exact later),
          List.length_replicate, previous] at before
        exact (Option.some.inj before).symm
      have rank : i / count = (i - count) / count + 1 := Nat.div_eq_sub_div hc later
      have once_more (b : Int) : ((i / count : Nat) + 1) * b =
          (((i - count) / count : Nat) + 1) * b + b := by
        rw [rank, Nat.cast_add, Nat.cast_one, Int.add_mul _ 1, Int.one_mul]
      rw [once_more, once_more, same]
      exact ⟨Int.add_le_add low' above, Int.add_le_add high' below⟩

/-- The text that the octets of the numbers are. -/
def written (ns : List Int) : String :=
  String.ofList ((ns.flatMap write).map fun b => Char.ofNat b.toNat)

theorem octetsOf_written {ns : List Int} (h : ∀ n ∈ ns, HalfWord n) :
    octetsOf (written ns) = ns.flatMap write := by
  rw [octetsOf, written, utf8_of_printable]
  intro b hb
  obtain ⟨n, hn, hb⟩ := List.mem_flatMap.mp hb
  exact write_printable (h n hn) b hb

theorem readAll_written {ns : List Int} (h : ∀ n ∈ ns, HalfWord n) :
    readAll 0 (octetsOf (written ns)) = .ok ns := by
  rw [octetsOf_written h]
  exact readAll_write h 0

private theorem split_written {ns : List Int} (h : ∀ n ∈ ns, HalfWord n) :
    Split (octetsOf (written ns)) (ns.map write) [] where
  octets := by rw [octetsOf_written h, List.append_nil, List.flatMap_def]
  numbers := List.forall_mem_map.mpr fun n hn => write_isNumber (h n hn)

private theorem arity_pos (elevation : Bool) : 0 < arity elevation := by
  cases elevation <;> decide

/-- A text that is decoded has its running sums as its vertices. -/
private theorem numbers_of_decode {text : String} {elevation : Bool} {p : Polyline}
    (h : decode text elevation = .ok p) : ∃ vertices, p = ofVertices elevation vertices ∧
      vertices.flatMap (·.numbers elevation) = runningSums text elevation := by
  obtain ⟨-, ns, vertices, read, summed, rfl⟩ := decode_eq_ok_iff.mp h
  exact ⟨vertices, rfl, (runningSums_of_readAll read summed).symm⟩

/-- If whole vertices are made of one number only, a sum is as many times the number as it has been
added. -/
theorem runningSums_same (elevation : Bool) {n : Int} (hn : HalfWord n) (i : Nat) :
    ∃ text numbers, Split (octetsOf text) numbers [] ∧ arity elevation ∣ numbers.length ∧
      (runningSums text elevation)[i]? = some (((i / arity elevation : Nat) + 1) * n) := by
  have many : i < arity elevation * (i + 1) := Nat.le_mul_of_pos_left (i + 1) (arity_pos elevation)
  let ns := List.replicate (arity elevation * (i + 1)) n
  have halves : ∀ m ∈ ns, HalfWord m := fun m hm => List.eq_of_mem_replicate hm ▸ hn
  have same : ∀ m ∈ ns, n ≤ m ∧ m ≤ n := by
    intro m hm
    rw [List.eq_of_mem_replicate hm]
    exact ⟨Int.le_refl n, Int.le_refl n⟩
  have present : i < ns.length := by
    rw [List.length_replicate]
    exact many
  obtain ⟨t, ht, low, high⟩ := totals_between (arity_pos elevation) same present
  refine ⟨written ns, ns.map write, split_written halves, ?_, ?_⟩
  · rw [List.length_map, List.length_replicate]
    exact Nat.dvd_mul_right _ _
  · rw [runningSums, readable_of_readAll (readAll_written halves), ht, Int.le_antisymm high low]

private theorem runningSums_between {text : String} {elevation : Bool} {i : Nat} {t : Int}
    (h : (runningSums text elevation)[i]? = some t) :
    ((i / arity elevation : Nat) + 1) * -2 ^ 62 ≤ t ∧
      t ≤ ((i / arity elevation : Nat) + 1) * (2 ^ 62 - 1) := by
  have halves : ∀ n ∈ readable 0 (octetsOf text), -2 ^ 62 ≤ n ∧ n ≤ 2 ^ 62 - 1 := fun n hn =>
    ⟨(readable_halfWord _ _ n hn).1, Int.le_sub_one_of_lt (readable_halfWord _ _ n hn).2⟩
  have some_sum : List.replicate (arity elevation) (0 : Int) ≠ [] := by cases elevation <;> decide
  obtain ⟨present, -⟩ := List.getElem?_eq_some_iff.mp h
  rw [runningSums, length_totals some_sum] at present
  obtain ⟨t', ht', bounds⟩ := totals_between (arity_pos elevation) halves present
  rw [runningSums, ht'] at h
  cases h
  exact bounds

/-- A word holds the sums of the first two vertices, and may not hold those of the third. -/
private theorem runningSums_word_iff (elevation : Bool) (i : Nat) :
    (∀ text t, (runningSums text elevation)[i]? = some t → Word t) ↔ i < 2 * arity elevation := by
  rw [← Nat.div_lt_iff_lt_mul (arity_pos elevation)]
  constructor
  · intro h
    have least : HalfWord (-2 ^ 62) := ⟨Int.le_refl _, by decide⟩
    obtain ⟨text, -, -, -, lowest⟩ := runningSums_same elevation least i
    have word := (h text _ lowest).1
    omega
  · intro early text t ht
    obtain ⟨low, high⟩ := runningSums_between ht
    constructor <;> omega

/-- Decoding a text stops at an overflow exactly if some word does not hold one of its running sums, and
otherwise the vertices of a text that is decoded are the sums. A sum is at least as many times `-2 ^ 62` as
there are numbers in it, and at most as many times the number below `2 ^ 62`, and it reaches both in texts
of whole vertices. So a word holds whatever the sums of the first two vertices are, but not those of any
later one. -/
theorem runningSums_range (elevation : Bool) :
    (∀ text, decode text elevation = .error .overflow ↔
      ∃ t ∈ runningSums text elevation, ¬ Word t) ∧
    (∀ text p, decode text elevation = .ok p → ∃ vertices, p = ofVertices elevation vertices ∧
      vertices.flatMap (·.numbers elevation) = runningSums text elevation) ∧
    ∀ i, let count : Int := (i / arity elevation : Nat) + 1
      (∀ text t, (runningSums text elevation)[i]? = some t →
        count * -2 ^ 62 ≤ t ∧ t ≤ count * (2 ^ 62 - 1)) ∧
      (∃ text numbers, Split (octetsOf text) numbers [] ∧ arity elevation ∣ numbers.length ∧
        (runningSums text elevation)[i]? = some (count * -2 ^ 62)) ∧
      (∃ text numbers, Split (octetsOf text) numbers [] ∧ arity elevation ∣ numbers.length ∧
        (runningSums text elevation)[i]? = some (count * (2 ^ 62 - 1))) ∧
      ((∀ text t, (runningSums text elevation)[i]? = some t → Word t) ↔ i < 2 * arity elevation) := by
  refine ⟨fun text => ?_, fun text p => numbers_of_decode,
    fun i => ⟨fun text t => runningSums_between, ?_, ?_, ?_⟩⟩
  · rw [decode_eq_overflow_iff, Fits]
    simp only [not_forall, exists_prop]
  · exact runningSums_same elevation ⟨Int.le_refl _, by decide⟩ i
  · exact runningSums_same elevation ⟨by decide, by decide⟩ i
  · exact runningSums_word_iff elevation i

/-- Thirteen octets add the least number to the latitude, and one adds nothing to the longitude. The
third latitude is no word. -/
example : runningSums "~~~~~~~~~~~~F?~~~~~~~~~~~~F?~~~~~~~~~~~~F?" false =
      [-2 ^ 62, 0, -2 * 2 ^ 62, 0, -3 * 2 ^ 62, 0] ∧
    decode "~~~~~~~~~~~~F?~~~~~~~~~~~~F?~~~~~~~~~~~~F?" false = .error .overflow :=
  ⟨by decide +kernel, decode_of_not_fits (by decide +kernel)⟩

end Itinerary.Polyline

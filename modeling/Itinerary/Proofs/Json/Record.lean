import Itinerary.Json.Record
import Itinerary.Proofs.Json.Reread

/-! Records, lists and maps are read back from the values that they are written as. -/
namespace Itinerary.Json
variable {α β : Type}

theorem mapM_eq_some {read : α → Option β} {as : List α} {bs : List β} :
    as.mapM read = some bs ↔ as.map read = bs.map some := by
  induction as generalizing bs with
  | nil => cases bs <;> simp
  | cons a as ih =>
    cases bs with
    | nil => simp [List.mapM_cons, Option.bind_eq_some_iff]
    | cons b bs =>
      rw [List.mapM_cons, List.map_cons, List.map_cons, List.cons.injEq, ← ih]
      simp [Option.bind_eq_some_iff]

theorem mapM_eq_none {read : α → Option β} {as : List α} {a : α} (ha : a ∈ as) (h : read a = none) :
    as.mapM read = none := by
  rw [Option.eq_none_iff_forall_ne_some]
  intro bs hbs
  have mem : none ∈ bs.map some := by
    rw [← mapM_eq_some.mp hbs, ← h]
    exact List.mem_map_of_mem ha
  obtain ⟨b, _, hb⟩ := List.mem_map.mp mem
  cases hb

/-- Every item that is read has been read off something. -/
private theorem exists_of_mapM {read : α → Option β} {as : List α} {bs : List β} (h : as.mapM read = some bs)
    {b : β} (hb : b ∈ bs) : ∃ a, read a = some b := by
  have mem : some b ∈ as.map read := by
    rw [mapM_eq_some.mp h]
    exact List.mem_map_of_mem hb
  obtain ⟨a, _, ha⟩ := List.mem_map.mp mem
  exact ⟨a, ha⟩

theorem reread_arr (js : List Json) : (arr js).reread = arr (js.map reread) := by
  have items : rereadItemsBy usual js = js.map reread := by
    induction js with
    | nil => rfl
    | cons j js ih => rw [rereadItemsBy, ih, List.map_cons, reread]
  rw [reread, rereadBy, items]

theorem reread_obj (ms : List (String × Json)) :
    (obj ms).reread = obj (ms.map fun m => (m.1, m.2.reread)) := by
  have members : rereadMembersBy usual ms = ms.map fun m => (m.1, m.2.reread) := by
    induction ms with
    | nil => rfl
    | cons m ms ih =>
      obtain ⟨k, j⟩ := m
      rw [rereadMembersBy, ih, List.map_cons, reread]
  rw [reread, rereadBy, members]

/-- The number is read back from its text. -/
def Survives (x : Float) : Prop := (read (ofFloat x).render).bind float? = some x

instance (x : Float) : Decidable (Survives x) := inferInstanceAs (Decidable (_ = _))

theorem Survives.float?_reread {x : Float} (h : Survives x) : (ofFloat x).reread.float? = some x := by
  rw [Survives, read_render, Option.bind_some] at h
  exact h

private theorem reread_count {n : Nat} (h : n < UInt64.size) : (int n).reread = int n := by
  rw [reread, rereadBy, ← chars_wholeNumeral, Token.numberBy_chars (wholeNumeral_proper n), usual,
    value_wholeNumeral h]
  rfl

theorem uint64?_reread (n : UInt64) : (int n.toNat).reread.uint64? = some n := by
  have fits : n.toNat < UInt64.size := n.toNat_lt
  have bounds : 0 ≤ (n.toNat : Int) ∧ (n.toNat : Int) < (UInt64.size : Nat) := by omega
  rw [reread_count fits, uint64?, count?, if_pos bounds, Option.map_some, Int.toNat_natCast,
    UInt64.ofNat_toNat]

section Lists
variable {read : Json → Option α} {write : α → Json}

theorem list?_reread {as : List α} (h : ∀ a ∈ as, read (write a).reread = some a) :
    (arr (as.map write)).reread.list? read = some as := by
  rw [reread_arr, list?, mapM_eq_some, List.map_map, List.map_map]
  exact List.map_congr_left h

theorem exists_of_list? {j : Json} {as : List α} (h : j.list? read = some as) {a : α} (ha : a ∈ as) :
    ∃ j, read j = some a := by
  cases j with
  | arr items => exact exists_of_mapM h ha
  | _ => cases h

end Lists

/-! Members in ascending order of keys stay as they are when they are sorted. -/

/-- In ascending order of keys, none twice. -/
def Ascending (ms : List (String × α)) : Prop := ms.Pairwise fun m n => m.1 < n.1

section Sorting
variable {k : String} {a : α} {ms : List (String × α)}

private theorem mem_insertSorted {m : String × α} (h : m ∈ insertSorted k a ms) : m = (k, a) ∨ m ∈ ms := by
  induction ms with
  | nil => exact .inl (List.mem_singleton.mp h)
  | cons n ms ih =>
    rw [insertSorted] at h
    split at h
    · exact List.mem_cons.mp h
    · split at h
      · exact (List.mem_cons.mp h).imp_right (List.mem_cons_of_mem n)
      · rcases List.mem_cons.mp h with rfl | h
        · exact .inr List.mem_cons_self
        · exact (ih h).imp_right (List.mem_cons_of_mem n)

private theorem ascending_insertSorted (h : Ascending ms) : Ascending (insertSorted k a ms) := by
  induction ms with
  | nil => exact List.pairwise_singleton _ _
  | cons n ms ih =>
    obtain ⟨above, rest⟩ := List.pairwise_cons.mp h
    rw [insertSorted]
    split
    · rename_i first
      refine List.pairwise_cons.mpr ⟨?_, h⟩
      intro m hm
      rcases List.mem_cons.mp hm with rfl | hm
      · exact first
      · exact String.lt_trans first (above m hm)
    · rename_i late
      split
      · rename_i same
        subst same
        exact List.pairwise_cons.mpr ⟨above, rest⟩
      · rename_i other
        refine List.pairwise_cons.mpr ⟨?_, ih rest⟩
        intro m hm
        rcases mem_insertSorted hm with rfl | hm
        · exact String.not_le.mp fun early => other (String.le_antisymm early late)
        · exact above m hm

private theorem ascending_sortMembers (ms : List (String × α)) : Ascending (sortMembers ms) := by
  have sorted (done : List (String × α)) (h : Ascending done) :
      Ascending (ms.foldl (fun done m => insertSorted m.1 m.2 done) done) := by
    induction ms generalizing done with
    | nil => exact h
    | cons m ms ih => exact ih _ (ascending_insertSorted h)
  exact sorted [] List.Pairwise.nil

private theorem mem_foldl_insertSorted {done : List (String × α)} {m : String × α}
    (h : m ∈ ms.foldl (fun done m => insertSorted m.1 m.2 done) done) : m ∈ done ∨ m ∈ ms := by
  induction ms generalizing done with
  | nil => exact .inl h
  | cons n ms ih =>
    rcases ih h with before | behind
    · exact (mem_insertSorted before).elim (fun he => .inr (he ▸ List.mem_cons_self)) .inl
    · exact .inr (List.mem_cons_of_mem n behind)

/-- Sorting adds no member. -/
theorem mem_sortMembers {m : String × α} (h : m ∈ sortMembers ms) : m ∈ ms :=
  (mem_foldl_insertSorted h).resolve_left List.not_mem_nil

/-- A key above all others comes last. -/
private theorem insertSorted_above (h : ∀ m ∈ ms, m.1 < k) : insertSorted k a ms = ms ++ [(k, a)] := by
  induction ms with
  | nil => rfl
  | cons m ms ih =>
    have below := h m List.mem_cons_self
    have distinct : k ≠ m.1 := fun same => String.lt_irrefl k (same ▸ below)
    rw [insertSorted, if_neg (String.lt_asymm below), if_neg distinct,
      ih fun n hn => h n (List.mem_cons_of_mem m hn), List.cons_append]

private theorem foldl_insertSorted {done : List (String × α)} (h : Ascending (done ++ ms)) :
    ms.foldl (fun done m => insertSorted m.1 m.2 done) done = done ++ ms := by
  induction ms generalizing done with
  | nil => rw [List.foldl_nil, List.append_nil]
  | cons m ms ih =>
    have below : ∀ n ∈ done, n.1 < m.1 := fun n hn =>
      (List.pairwise_append.mp h).2.2 n hn m List.mem_cons_self
    rw [List.append_cons] at h
    rw [List.foldl_cons, insertSorted_above below, ih h, ← List.append_cons]

private theorem sortMembers_of_ascending (h : Ascending ms) : sortMembers ms = ms := foldl_insertSorted h

end Sorting

section Maps
variable {read : Json → Option α}

theorem map?_reread (write : α → Json) {ms : List (String × α)} (sorted : Ascending ms)
    (h : ∀ m ∈ ms, read (write m.2).reread = some m.2) :
    (obj (ms.map fun m => (m.1, write m.2))).reread.map? read = some ms := by
  have members : ((ms.map fun m => (m.1, write m.2)).map fun m => (m.1, m.2.reread)).mapM
      (fun m => (read m.2).map fun a => (m.1, a)) = some ms := by
    rw [mapM_eq_some, List.map_map, List.map_map]
    refine List.map_congr_left fun m hm => ?_
    exact congrArg (Option.map fun a => (m.1, a)) (h m hm)
  rw [reread_obj, map?, members, Option.map_some, sortMembers_of_ascending sorted]

theorem map?_eq_none {ms : List (String × Json)} {m : String × Json} (hm : m ∈ ms) (h : read m.2 = none) :
    (obj ms).map? read = none := by
  have member : (read m.2).map (fun a => (m.1, a)) = none := by rw [h, Option.map_none]
  rw [map?, mapM_eq_none hm member, Option.map_none]

theorem ascending_of_map? {j : Json} {ms : List (String × α)} (h : j.map? read = some ms) :
    Ascending ms := by
  cases j with
  | obj members =>
    obtain ⟨found, _, rfl⟩ := Option.map_eq_some_iff.mp h
    exact ascending_sortMembers found
  | _ => cases h

end Maps

section Records
variable {keys : List String} {values : List Json}

/-- What is read of a record of which all members were written, these being their values. -/
def Record.written (values : List Json) : Record := ⟨values.map fun j => some j.reread, false⟩

private theorem lookup_zip (nodup : keys.Nodup) (length : keys.length = values.length) :
    keys.map (lookup · (keys.zip values)) = values.map some := by
  induction keys generalizing values with
  | nil => cases values with
    | nil => rfl
    | cons v vs => cases length
  | cons k ks ih => cases values with
    | nil => cases length
    | cons v vs =>
      obtain ⟨other, nodup⟩ := List.nodup_cons.mp nodup
      have first : lookup k ((k, v) :: ks.zip vs) = some v := by
        simp only [lookup, List.find?_cons, beq_self_eq_true, Option.map_some]
      have rest : ∀ key ∈ ks, lookup key ((k, v) :: ks.zip vs) = lookup key (ks.zip vs) := by
        intro key hk
        have skipped : (k == key) = false := by
          rw [beq_eq_false_iff_ne]
          rintro rfl
          exact other hk
        simp only [lookup, List.find?_cons, skipped]
      rw [List.zip_cons_cons, List.map_cons, List.map_cons, first, List.map_congr_left rest,
        ih nodup (Nat.succ.inj length)]

private theorem object?_zip (nodup : keys.Nodup) (length : keys.length = values.length) :
    (obj (keys.zip values)).object? keys = some ⟨values.map some, false⟩ := by
  have once : (keys.all fun key => ((keys.zip values).filter (·.1 == key)).length ≤ 1) = true := by
    rw [List.all_eq_true]
    intro key _
    have counted : ((keys.zip values).filter (·.1 == key)).length = keys.count key := by
      rw [← List.countP_eq_length_filter, List.count,
        ← List.map_fst_zip (Nat.le_of_eq length), List.countP_map, List.map_fst_zip (Nat.le_of_eq length)]
      rfl
    rw [counted]
    exact decide_eq_true (List.nodup_iff_count.mp nodup key)
  rw [object?, if_pos once, lookup_zip nodup length]

theorem object?_reread {j : Json} (hj : j = obj (keys.zip values)) (nodup : keys.Nodup)
    (length : keys.length = values.length) : j.reread.object? keys = some (.written values) := by
  have members : ((keys.zip values).map fun m => (m.1, m.2.reread)) = keys.zip (values.map reread) := by
    rw [List.zip_map_right]
    rfl
  rw [hj, reread_obj, members, object?_zip nodup (by rw [List.length_map, length]), List.map_map]
  rfl

theorem record?_reread {j : Json} (hj : j = obj (keys.zip values)) (nodup : keys.Nodup)
    (length : keys.length = values.length) : j.reread.record? keys = some (.written values) := by
  cases hj
  exact object?_reread rfl nodup length

end Records

namespace Record
variable {r : Record} {i : Nat} {read : Json → Option α} {values : List Json}

private theorem slot_written (values : List Json) (i : Nat) :
    (written values).slot i = values[i]?.map reread := by
  rw [slot, written, List.getElem?_map]
  cases values[i]? <;> rfl

theorem required_written {j : Json} (h : values[i]? = some j) :
    (written values).required i read = read j.reread := by
  rw [required, slot_written, h]
  rfl

theorem defaulted_written {j : Json} (h : values[i]? = some j) (missing : α) :
    (written values).defaulted i missing read = read j.reread := by
  rw [defaulted, slot_written, h]
  rfl

/-- A null stands for a missing value, so no value may be written as null. -/
theorem optional_written {o : Option α} {write : α → Json} (h : values[i]? = some (ofOption write o))
    (solid : ∀ a, (write a).reread ≠ .null) (back : ∀ a ∈ o, read (write a).reread = some a) :
    (written values).optional i read = some o := by
  cases o with
  | none =>
    rw [optional, slot_written, h]
    rfl
  | some a =>
    rw [optional, slot_written, h, ofOption, Option.map_some]
    split
    · rename_i he
      cases he
    · rename_i he
      exact absurd (Option.some.inj he) (solid a)
    · rename_i he
      cases he
      rw [back a rfl, Option.map_some]

theorem exists_of_optional {o : Option α} (h : r.optional i read = some o) {a : α} (ha : a ∈ o) :
    ∃ j, read j = some a := by
  cases ha
  rw [optional] at h
  split at h
  · cases h
  · cases h
  · obtain ⟨b, read, hb⟩ := Option.map_eq_some_iff.mp h
    cases hb
    exact ⟨_, read⟩

theorem defaulted_cases {missing a : α} (h : r.defaulted i missing read = some a) :
    a = missing ∨ ∃ j, read j = some a := by
  rw [defaulted] at h
  split at h
  · exact .inr ⟨_, h⟩
  · cases h
    exact .inl rfl

end Record

end Itinerary.Json

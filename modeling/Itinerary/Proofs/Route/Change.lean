import Itinerary.Proofs.Stop
import Mathlib.Data.List.Nodup
import Mathlib.Data.List.Perm.Basic

/-! The route as a keyed collection, and the four ways in which it changes before an answer. -/
namespace Itinerary.Route

/-- Every stop is kept under its own identity. -/
def OwnKeys (r : Route) : Prop := ∀ e ∈ r.entries, e.2.id = e.1

theorem mem_stops_of_mem {r : Route} {e : StopId × Stop} (he : e ∈ r.entries) : e.2 ∈ r.stops :=
  List.mem_map_of_mem he

theorem mem_stops_of_find? {r : Route} {id : StopId} {s : Stop} (h : r.find? id = some s) : s ∈ r.stops := by
  obtain ⟨e, he, rfl⟩ := Option.map_eq_some_iff.mp h
  exact mem_stops_of_mem (List.mem_of_find?_eq_some he)

theorem find?_modify (r : Route) (id other : StopId) (f : Stop → Stop) :
    (r.modify id f).find? other = (r.find? other).map fun s => if other = id then f s else s := by
  have same : ((·.1 == other) ∘ fun e : StopId × Stop => if e.1 = id then (e.1, f e.2) else e) =
      fun e => e.1 == other := by
    funext e
    by_cases h : e.1 = id <;> simp [h]
  simp only [find?, modify, List.find?_map, same, Option.map_map]
  cases he : r.entries.find? (·.1 == other) with
  | none => rfl
  | some e =>
    have key : e.1 = other := by simpa using List.find?_some he
    by_cases h : other = id <;> simp [key, h]

namespace OwnKeys
variable {r : Route}

private theorem mem_entries (own : r.OwnKeys) {s : Stop} (hs : s ∈ r.stops) : (s.id, s) ∈ r.entries := by
  obtain ⟨e, he, rfl⟩ := List.mem_map.mp hs
  rw [own e he]
  exact he

theorem map_id (own : r.OwnKeys) : r.stops.map Stop.id = r.entries.map Prod.fst := by
  rw [stops, List.map_map]
  exact List.map_congr_left own

theorem find?_some (own : r.OwnKeys) {id : StopId} {s : Stop} (h : r.find? id = some s) :
    s ∈ r.stops ∧ s.id = id := by
  refine ⟨mem_stops_of_find? h, ?_⟩
  obtain ⟨e, he, rfl⟩ := Option.map_eq_some_iff.mp h
  have key : e.1 = id := by simpa using List.find?_some he
  exact (own e (List.mem_of_find?_eq_some he)).trans key

theorem stops_modify (own : r.OwnKeys) (id : StopId) (f : Stop → Stop) :
    (r.modify id f).stops = r.stops.map fun s => if s.id = id then f s else s := by
  simp only [stops, modify, List.map_map]
  refine List.map_congr_left fun e he => ?_
  rw [Function.comp_apply, Function.comp_apply, own e he]
  split <;> rfl

theorem mem_modify (own : r.OwnKeys) {id : StopId} {f : Stop → Stop} {t : Stop} :
    t ∈ (r.modify id f).stops ↔ ∃ s ∈ r.stops, (if s.id = id then f s else s) = t := by
  rw [own.stops_modify, List.mem_map]

theorem modify (own : r.OwnKeys) {id : StopId} {f : Stop → Stop}
    (hf : ∀ s ∈ r.stops, s.id = id → (f s).id = id) : (r.modify id f).OwnKeys := by
  intro e he
  obtain ⟨e, mem, rfl⟩ := List.mem_map.mp he
  have key := own e mem
  split
  · rename_i here
    exact (hf e.2 (mem_stops_of_mem mem) (key.trans here)).trans here.symm
  · exact key

/-- A change in place that keeps the identity is seen by whoever asks for the stop. -/
theorem find?_modify (own : r.OwnKeys) (id other : StopId) (f : Stop → Stop) :
    (r.modify id f).find? other = (r.find? other).map fun s => if s.id = id then f s else s := by
  rw [Route.find?_modify]
  refine Option.map_congr fun s hs => ?_
  rw [(own.find?_some hs).2]

/-- Where no two stops go by one identity, a stop is found by its own. -/
theorem find?_of_nodup (own : r.OwnKeys) (hn : (r.stops.map Stop.id).Nodup) {s : Stop} (hs : s ∈ r.stops) :
    r.find? s.id = some s := by
  have kept : (r.entries.find? (·.1 == s.id)).isSome :=
    List.find?_isSome.mpr ⟨_, own.mem_entries hs, by simp⟩
  obtain ⟨e, he⟩ := Option.isSome_iff_exists.mp kept
  have found : r.find? s.id = some e.2 := by rw [find?, he, Option.map_some]
  obtain ⟨hm, hid⟩ := own.find?_some found
  rw [found, List.inj_on_of_nodup_map hn hm hs hid]

theorem mem_toList_of_nodup (own : r.OwnKeys) (hn : (r.stops.map Stop.id).Nodup)
    (listed : ∀ s ∈ r.stops, s.id ∈ r.order) {s : Stop} : s ∈ r.toList ↔ s ∈ r.stops := by
  refine List.mem_filterMap.trans ⟨?_, ?_⟩
  · rintro ⟨id, _, hf⟩
    exact (own.find?_some hf).1
  · intro hs
    exact ⟨s.id, listed s hs, own.find?_of_nodup hn hs⟩

private theorem at?_some (own : r.OwnKeys) {index : Nat} {s : Stop} (h : r.at? index = some s) :
    s ∈ r.stops ∧ r.find? s.id = some s := by
  obtain ⟨id, _, hf⟩ := Option.bind_eq_some_iff.mp h
  obtain ⟨hs, rfl⟩ := own.find?_some hf
  exact ⟨hs, hf⟩

end OwnKeys

theorem find?_modify_self {r : Route} {id : StopId} {s : Stop} (h : r.find? id = some s) (f : Stop → Stop) :
    (r.modify id f).find? id = some (f s) := by
  rw [find?_modify, h, Option.map_some, if_pos rfl]

/-- What holds of the route between any two calls: the order names every stop once and nothing else,
every stop is kept under its own identity, and what is known of a stop fits its text. -/
structure WellFormed (r : Route) : Prop where
  order_nodup : r.order.Nodup
  own_keys : r.OwnKeys
  ids_nodup : (r.stops.map Stop.id).Nodup
  mem_order : ∀ id, id ∈ r.order ↔ ∃ s ∈ r.stops, s.id = id
  two_stops : minStops ≤ r.length
  numbered : ∀ s ∈ r.stops, s.id.number < r.nextNumber
  sound : ∀ s ∈ r.stops, s.Sound

variable {r : Route}

private theorem blank_eq : blank = ⟨[⟨1⟩, ⟨2⟩], [(⟨1⟩, .create ⟨1⟩ ""), (⟨2⟩, .create ⟨2⟩ "")], 3⟩ := rfl

theorem mem_blank {s : Stop} : s ∈ blank.stops ↔ s = .create ⟨1⟩ "" ∨ s = .create ⟨2⟩ "" := by
  change s ∈ [Stop.create ⟨1⟩ "", .create ⟨2⟩ ""] ↔ _
  rw [List.mem_pair]

theorem blank_wellFormed : blank.WellFormed where
  order_nodup := by decide
  own_keys e he := by
    rw [blank_eq] at he
    rcases List.mem_pair.mp he with rfl | rfl <;> rfl
  ids_nodup := by
    change [StopId.mk 1, StopId.mk 2].Nodup
    decide
  mem_order id := by
    change id ∈ [StopId.mk 1, StopId.mk 2] ↔ _
    simp [mem_blank, eq_comm]
  two_stops := by decide
  numbered s hs := by
    change s.id.number < 3
    rcases mem_blank.mp hs with rfl | rfl <;> decide
  sound s hs := by
    rcases mem_blank.mp hs with rfl | rfl <;> exact Stop.create_sound _ _

namespace WellFormed

/-- Stops with the same identity are the same stop. -/
theorem eq_of_id (h : r.WellFormed) {s t : Stop} (hs : s ∈ r.stops) (ht : t ∈ r.stops)
    (he : s.id = t.id) : s = t :=
  List.inj_on_of_nodup_map h.ids_nodup hs ht he

theorem find?_of_mem (h : r.WellFormed) {s : Stop} (hs : s ∈ r.stops) : r.find? s.id = some s :=
  h.own_keys.find?_of_nodup h.ids_nodup hs

theorem find?_some (h : r.WellFormed) {id : StopId} {s : Stop} (hs : r.find? id = some s) :
    s ∈ r.stops ∧ s.id = id :=
  h.own_keys.find?_some hs

theorem at?_some (h : r.WellFormed) {index : Nat} {s : Stop} (hs : r.at? index = some s) :
    s ∈ r.stops ∧ r.find? s.id = some s :=
  h.own_keys.at?_some hs

theorem mem_modify (h : r.WellFormed) {id : StopId} {f : Stop → Stop} {t : Stop} :
    t ∈ (r.modify id f).stops ↔ ∃ s ∈ r.stops, (if s.id = id then f s else s) = t :=
  h.own_keys.mem_modify

theorem key_mem_order (h : r.WellFormed) {e : StopId × Stop} (he : e ∈ r.entries) : e.1 ∈ r.order :=
  (h.mem_order _).mpr ⟨e.2, mem_stops_of_mem he, h.own_keys e he⟩

theorem find?_of_mem_order (h : r.WellFormed) {id : StopId} (hid : id ∈ r.order) :
    ∃ s ∈ r.stops, r.find? id = some s ∧ s.id = id := by
  obtain ⟨s, hs, rfl⟩ := (h.mem_order id).mp hid
  exact ⟨s, hs, h.find?_of_mem hs, rfl⟩

/-- The list of the stops in order has every stop. -/
theorem mem_toList (h : r.WellFormed) {s : Stop} : s ∈ r.toList ↔ s ∈ r.stops :=
  h.own_keys.mem_toList_of_nodup h.ids_nodup fun s hs => (h.mem_order _).mpr ⟨s, hs, rfl⟩

/-- The next number is that of no stop. -/
theorem ne_next (h : r.WellFormed) {s : Stop} (hs : s ∈ r.stops) : s.id ≠ ⟨r.nextNumber⟩ := by
  intro he
  have below := h.numbered s hs
  rw [he] at below
  exact absurd below (Nat.lt_irrefl _)

theorem find?_next (h : r.WellFormed) : r.find? ⟨r.nextNumber⟩ = none := by
  refine Option.eq_none_iff_forall_ne_some.mpr fun s hs => ?_
  obtain ⟨mem, own⟩ := h.find?_some hs
  exact h.ne_next mem own

theorem not_contains_next (h : r.WellFormed) : r.contains ⟨r.nextNumber⟩ = false := by
  rw [contains, h.find?_next]
  rfl

end WellFormed

/-- The route with a new stop before the one at `index`. -/
def inserted (r : Route) (index : Nat) (text : String) : Route :=
  ⟨r.order.insertIdx index ⟨r.nextNumber⟩,
    r.entries ++ [(⟨r.nextNumber⟩, .create ⟨r.nextNumber⟩ text)], r.nextNumber + 1⟩

/-- The route with these of its stops in this order. -/
def arranged (r : Route) (order : List StopId) : Route :=
  { r with order, entries := r.entries.filter fun e => e.1 ∈ order }

/-- One change of a route, and the lookups it issues: stops get new texts, a lookup is issued, a
stop is put in, or stops are reordered and left out. -/
inductive Change (r : Route) : List Lookup → Route → Prop
  | retype (id : StopId) (f : Stop → Stop) (hf : ∀ s, f s = s ∨ ∃ text, f s = s.setInput text) :
      Change r [] (r.modify id f)
  | issue {s : Stop} {l : Lookup} (hs : r.find? l.stop = some s) (hl : s.resolve = .issued l) :
      Change r [l] (r.modify l.stop Stop.markPending)
  | insert (index : Nat) (text : String) (h : index ≤ r.length) : Change r [] (r.inserted index text)
  | arrange (order : List StopId) (hn : order.Nodup) (ho : order ⊆ r.order)
      (h2 : minStops ≤ order.length) : Change r [] (r.arranged order)

/-- Changes one after the other, with all the lookups they issue. -/
inductive Changes : Route → List Lookup → Route → Prop
  | refl (r : Route) : Changes r [] r
  | tail {r s t : Route} {ls ms : List Lookup} (h : Changes r ls s) (c : Change s ms t) :
      Changes r (ls ++ ms) t

theorem Change.changes {s : Route} {ls : List Lookup} (c : Change r ls s) : Changes r ls s :=
  .tail (.refl r) c

theorem Changes.trans {s t : Route} {ls ms : List Lookup} (h : Changes r ls s)
    (h' : Changes s ms t) : Changes r (ls ++ ms) t := by
  induction h' with
  | refl => simpa using h
  | tail _ c ih =>
    rw [← List.append_assoc]
    exact .tail ih c

private theorem retype_id {f : Stop → Stop} (hf : ∀ s, f s = s ∨ ∃ text, f s = s.setInput text) (s : Stop) :
    (f s).id = s.id := by
  rcases hf s with h | ⟨text, h⟩ <;> rw [h]
  rfl

namespace OwnKeys

private theorem inserted (own : r.OwnKeys) (index : Nat) (text : String) :
    (r.inserted index text).OwnKeys := by
  intro e he
  rcases List.mem_append.mp he with he | he
  · exact own e he
  · rw [List.mem_singleton.mp he]
    rfl

private theorem arranged (own : r.OwnKeys) (order : List StopId) : (r.arranged order).OwnKeys :=
  fun e he => own e (List.mem_filter.mp he).1

theorem stops_arranged (own : r.OwnKeys) (order : List StopId) :
    (r.arranged order).stops = r.stops.filter fun s => s.id ∈ order := by
  rw [stops, stops, List.filter_map, Route.arranged]
  congr 1
  refine List.filter_congr fun e he => ?_
  rw [Function.comp_apply, own e he]

end OwnKeys

theorem stops_inserted (r : Route) (index : Nat) (text : String) :
    (r.inserted index text).stops = r.stops ++ [.create ⟨r.nextNumber⟩ text] := List.map_append

namespace WellFormed

theorem modify (h : r.WellFormed) (id : StopId) {f : Stop → Stop} (hid : ∀ s, (f s).id = s.id)
    (hs : ∀ s ∈ r.stops, s.id = id → (f s).Sound) : (r.modify id f).WellFormed := by
  have ids (s : Stop) : (if s.id = id then f s else s).id = s.id := by
    by_cases e : s.id = id <;> simp [e, hid]
  refine ⟨h.order_nodup, h.own_keys.modify fun s _ own => (hid s).trans own, ?_, fun other => ?_,
    h.two_stops, fun t ht => ?_, fun t ht => ?_⟩
  · have same : (r.modify id f).stops.map Stop.id = r.stops.map Stop.id := by
      simp [h.own_keys.stops_modify, List.map_map, Function.comp_def, ids]
    rw [same]
    exact h.ids_nodup
  · refine (h.mem_order other).trans ⟨?_, ?_⟩
    · rintro ⟨s, hs, rfl⟩
      exact ⟨_, h.mem_modify.mpr ⟨s, hs, rfl⟩, ids s⟩
    · rintro ⟨t, ht, rfl⟩
      obtain ⟨s, hs, rfl⟩ := h.mem_modify.mp ht
      exact ⟨s, hs, (ids s).symm⟩
  · obtain ⟨s, hs, rfl⟩ := h.mem_modify.mp ht
    rw [ids s]
    exact h.numbered s hs
  · obtain ⟨s, hm, rfl⟩ := h.mem_modify.mp ht
    by_cases e : s.id = id
    · rw [if_pos e]
      exact hs s hm e
    · rw [if_neg e]
      exact h.sound s hm

theorem inserted (h : r.WellFormed) {index : Nat} (hi : index ≤ r.length) (text : String) :
    (r.inserted index text).WellFormed := by
  have placed : (r.order.insertIdx index ⟨r.nextNumber⟩).Perm (⟨r.nextNumber⟩ :: r.order) :=
    List.perm_insertIdx _ _ hi
  have mem {s : Stop} : s ∈ (r.inserted index text).stops ↔
      s ∈ r.stops ∨ s = .create ⟨r.nextNumber⟩ text := by
    rw [stops_inserted, List.mem_append, List.mem_singleton]
  refine ⟨?_, h.own_keys.inserted index text, ?_, fun id => ?_, ?_, fun s hs => ?_, fun s hs => ?_⟩
  · refine placed.nodup_iff.mpr (List.nodup_cons.mpr ⟨fun hm => ?_, h.order_nodup⟩)
    obtain ⟨s, hs, he⟩ := (h.mem_order _).mp hm
    exact h.ne_next hs he
  · rw [stops_inserted, List.map_append, List.map_singleton]
    refine List.nodup_append.mpr ⟨h.ids_nodup, List.nodup_singleton _, ?_⟩
    intro id hid other ho
    obtain ⟨s, hs, rfl⟩ := List.mem_map.mp hid
    rw [List.mem_singleton.mp ho]
    exact h.ne_next hs
  · refine placed.mem_iff.trans ?_
    simp only [List.mem_cons, h.mem_order, mem]
    constructor
    · rintro (rfl | ⟨s, hs, rfl⟩)
      · exact ⟨_, .inr rfl, rfl⟩
      · exact ⟨s, .inl hs, rfl⟩
    · rintro ⟨s, hs | rfl, rfl⟩
      · exact .inr ⟨s, hs, rfl⟩
      · exact .inl rfl
  · have longer : (r.inserted index text).length = r.length + 1 := placed.length_eq
    have := h.two_stops
    omega
  · rcases mem.mp hs with hs | rfl
    · exact Nat.lt_succ_of_lt (h.numbered s hs)
    · exact Nat.lt_succ_self _
  · rcases mem.mp hs with hs | rfl
    · exact h.sound s hs
    · exact Stop.create_sound _ _

/-- A new stop goes by the next number. -/
theorem find?_inserted (h : r.WellFormed) {index : Nat} (hi : index ≤ r.length) (text : String) :
    (r.inserted index text).find? ⟨r.nextNumber⟩ = some (Stop.create ⟨r.nextNumber⟩ text) := by
  have placed : Stop.create ⟨r.nextNumber⟩ text ∈ (r.inserted index text).stops := by
    rw [stops_inserted]
    exact List.mem_append_right _ (List.mem_singleton_self _)
  exact (h.inserted hi text).find?_of_mem placed

private theorem arranged (h : r.WellFormed) {order : List StopId} (hn : order.Nodup)
    (ho : order ⊆ r.order) (h2 : minStops ≤ order.length) : (r.arranged order).WellFormed := by
  have kept {s : Stop} : s ∈ (r.arranged order).stops ↔ s ∈ r.stops ∧ s.id ∈ order := by
    simp [h.own_keys.stops_arranged]
  refine ⟨hn, h.own_keys.arranged order, ?_, fun id => ?_, h2, fun s hs => h.numbered s (kept.mp hs).1,
    fun s hs => h.sound s (kept.mp hs).1⟩
  · rw [h.own_keys.stops_arranged]
    exact h.ids_nodup.sublist (List.filter_sublist.map _)
  · constructor
    · intro hid
      obtain ⟨s, hs, rfl⟩ := (h.mem_order id).mp (ho hid)
      exact ⟨s, kept.mpr ⟨hs, hid⟩, rfl⟩
    · rintro ⟨s, hs, rfl⟩
      exact (kept.mp hs).2

theorem change (h : r.WellFormed) {s : Route} {ls : List Lookup} (c : Change r ls s) :
    s.WellFormed := by
  cases c with
  | retype id f hf =>
    refine h.modify id (retype_id hf) fun s hs _ => ?_
    rcases hf s with he | ⟨text, he⟩ <;> rw [he]
    · exact h.sound s hs
    · exact s.setInput_sound text
  | issue hs hl =>
    refine h.modify _ (fun _ => rfl) fun t ht he => ?_
    obtain ⟨hm, hid⟩ := h.find?_some hs
    rw [h.eq_of_id ht hm (he.trans hid.symm)]
    exact Stop.markPending_sound (h.sound _ hm) hl
  | insert index text hi => exact h.inserted hi text
  | arrange order hn ho h2 => exact h.arranged hn ho h2

theorem changes (h : r.WellFormed) {s : Route} {ls : List Lookup} (c : Changes r ls s) :
    s.WellFormed := by
  induction c with
  | refl => exact h
  | tail _ c ih => exact ih.change c

end WellFormed
end Itinerary.Route

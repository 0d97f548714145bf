import Itinerary.Proofs.Route.Operations
import Itinerary.Proofs.Session.Readiness

/-! The routes that the library can make, and what holds of all of them. A route put together by hand
may be short, and may name one stop at several positions or a stop that it no longer keeps. -/
namespace Itinerary.Route
variable {r t : Route}

/-- What holds of every route: it keeps one stop for an identity, and that under its own, the order
names all it keeps, and what is known of a stop fits its text. -/
structure Keyed (r : Route) : Prop where
  own_keys : r.OwnKeys
  ids_nodup : (r.stops.map Stop.id).Nodup
  listed : ∀ s ∈ r.stops, s.id ∈ r.order
  sound : ∀ s ∈ r.stops, s.Sound

private theorem WellFormed.keyed (h : r.WellFormed) : r.Keyed :=
  ⟨h.own_keys, h.ids_nodup, fun s hs => (h.mem_order _).mpr ⟨s, hs, rfl⟩, h.sound⟩

/-- The routes that the library can make. The stops put into one may be of any making, copies of stops
that it has among them, as long as they are sound; and its stops may be given new texts in place. -/
inductive Made : Route → Prop
  | empty : Made empty
  | mint {r : Route} (h : Made r) (text : String) : Made (r.mint text).2
  | append {r : Route} (h : Made r) {s : Stop} (hs : s.Sound) : Made (r.append s)
  | insert {r t : Route} (h : Made r) {s : Stop} (hs : s.Sound) {index : Nat}
      (ht : r.insert index s = .ok t) : Made t
  | removeAt {r : Route} (h : Made r) (index : Nat) : Made (r.removeAt index).2
  | remove {r : Route} (h : Made r) (id : StopId) : Made (r.remove id).2
  | move {r t : Route} (h : Made r) {origin target : Nat} (ht : r.move origin target = .ok t) : Made t
  | ensureLength {r : Route} (h : Made r) (length : Nat) : Made (r.ensureLength length)
  | truncate {r : Route} (h : Made r) (length : Nat) : Made (r.truncate length)
  | modify {r : Route} (h : Made r) (id : StopId) {f : Stop → Stop} (hid : ∀ s, (f s).id = s.id)
      (hs : ∀ s, s.Sound → (f s).Sound) : Made (r.modify id f)
  | resolve {r t : Route} (h : Made r) {id : StopId} {outcome : ResolveOutcome}
      (ht : r.resolve id = .ok (outcome, t)) : Made t
  | complete {r : Route} (h : Made r) (l : Lookup) (result : LookupResult) : Made (r.complete l result).2
  | session {s : Session} (h : s.Reachable) : Made s.route

private theorem keep_order (r : Route) (s : Stop) : (r.keep s).order = r.order := by
  rw [keep]
  split <;> rfl

namespace Keyed

theorem find?_of_mem (h : r.Keyed) {s : Stop} (hs : s ∈ r.stops) : r.find? s.id = some s :=
  h.own_keys.find?_of_nodup h.ids_nodup hs

theorem find?_some (h : r.Keyed) {id : StopId} {s : Stop} (hs : r.find? id = some s) :
    s ∈ r.stops ∧ s.id = id :=
  h.own_keys.find?_some hs

theorem eq_of_find? (h : r.Keyed) {id : StopId} {s u : Stop} (hs : r.find? id = some s) (hu : u ∈ r.stops)
    (own : u.id = id) : u = s := by
  have found := h.find?_of_mem hu
  rw [own, hs] at found
  exact (Option.some.inj found).symm

private theorem key_mem_order (h : r.Keyed) {e : StopId × Stop} (he : e ∈ r.entries) : e.1 ∈ r.order :=
  h.own_keys e he ▸ h.listed e.2 (mem_stops_of_mem he)

/-- Some of the stops, in an order that names them all. -/
theorem sub (h : r.Keyed) {order : List StopId} {entries : List (StopId × Stop)} (n : Nat)
    (hs : entries.Sublist r.entries) (listed : ∀ e ∈ entries, e.1 ∈ order) : Keyed ⟨order, entries, n⟩ := by
  refine ⟨fun e he => h.own_keys e (hs.subset he), h.ids_nodup.sublist ((hs.map _).map _), fun s mem => ?_,
    fun s mem => h.sound s ((hs.map _).subset mem)⟩
  obtain ⟨e, he, rfl⟩ := List.mem_map.mp mem
  rw [h.own_keys e (hs.subset he)]
  exact listed e he

theorem modify (h : r.Keyed) (id : StopId) {f : Stop → Stop} (hid : ∀ s, s.id = id → (f s).id = id)
    (hs : ∀ s, r.find? id = some s → (f s).Sound) : (r.modify id f).Keyed := by
  have ids (s : Stop) : (if s.id = id then f s else s).id = s.id := by
    split
    · rename_i own
      rw [hid s own, own]
    · rfl
  have same : (r.modify id f).stops.map Stop.id = r.stops.map Stop.id := by
    simp [h.own_keys.stops_modify, List.map_map, Function.comp_def, ids]
  refine ⟨h.own_keys.modify fun s _ => hid s, same ▸ h.ids_nodup, fun t ht => ?_, fun t ht => ?_⟩
  · obtain ⟨s, mem, rfl⟩ := h.own_keys.mem_modify.mp ht
    rw [ids s]
    exact h.listed s mem
  · obtain ⟨s, mem, rfl⟩ := h.own_keys.mem_modify.mp ht
    split
    · rename_i own
      exact hs s (own ▸ h.find?_of_mem mem)
    · exact h.sound s mem

/-- A stop is kept and named, wherever in the order. -/
theorem keep (h : r.Keyed) {s : Stop} (hs : s.Sound) {order : List StopId}
    (placed : order.Perm (s.id :: r.order)) : Keyed { r.keep s with order } := by
  have keyed : Keyed { r with order } := h.sub r.nextNumber (.refl _) fun e he =>
    placed.mem_iff.mpr (List.mem_cons_of_mem _ (h.key_mem_order he))
  rw [Route.keep]
  split
  · exact keyed.modify s.id (fun _ _ => rfl) fun _ _ => hs
  · rename_i absent
    have fresh : s.id ∉ r.stops.map Stop.id := by
      intro mem
      obtain ⟨u, hu, own⟩ := List.mem_map.mp mem
      apply absent
      rw [contains, ← own, h.find?_of_mem hu]
      rfl
    have stops : Route.stops ⟨order, r.entries ++ [(s.id, s)], r.nextNumber⟩ = r.stops ++ [s] :=
      List.map_append
    refine ⟨fun e he => ?_, ?_, fun u hu => ?_, fun u hu => ?_⟩
    · rcases List.mem_append.mp he with he | he
      · exact h.own_keys e he
      · rw [List.mem_singleton.mp he]
    · rw [stops, List.map_append]
      exact h.ids_nodup.append (List.nodup_singleton _) (List.disjoint_singleton.mpr fresh)
    · rcases List.mem_append.mp (stops ▸ hu) with hu | hu
      · exact keyed.listed u hu
      · rw [List.mem_singleton.mp hu]
        exact placed.mem_iff.mpr List.mem_cons_self
    · rcases List.mem_append.mp (stops ▸ hu) with hu | hu
      · exact h.sound u hu
      · rw [List.mem_singleton.mp hu]
        exact hs

private theorem append (h : r.Keyed) {s : Stop} (hs : s.Sound) : (r.append s).Keyed := by
  rw [Route.append, keep_order]
  exact h.keep hs (List.perm_append_singleton _ _)

private theorem insert (h : r.Keyed) {s : Stop} (hs : s.Sound) {index : Nat} (ht : r.insert index s = .ok t) :
    t.Keyed := by
  rw [Route.insert] at ht
  split at ht
  · cases ht
  · rename_i fits
    cases ht
    rw [keep_order]
    exact h.keep hs (List.perm_insertIdx _ _ (Nat.le_of_not_lt fits))

private theorem mint (h : r.Keyed) (text : String) : (r.mint text).2.Keyed :=
  h.sub _ (.refl _) fun _ he => h.key_mem_order he

private theorem removeAt (h : r.Keyed) (index : Nat) : (r.removeAt index).2.Keyed := by
  rw [Route.removeAt]
  cases hid : r.order[index]? with
  | none => exact h
  | some id =>
    dsimp only
    split
    · exact h
    · obtain ⟨hlt, hget⟩ := List.getElem?_eq_some_iff.mp hid
      -- The identity may stand at another position as well, but what is forgotten is its stop.
      have others {e : StopId × Stop} (he : e ∈ r.entries) (apart : e.1 ≠ id) :
          e.1 ∈ r.order.eraseIdx index := by
        have taken : (id :: r.order.eraseIdx index).Perm r.order := by
          rw [← hget]
          exact List.getElem_cons_eraseIdx_perm hlt
        have known := taken.mem_iff.mpr (h.key_mem_order he)
        exact (List.mem_cons.mp known).resolve_left apart
      cases hf : r.find? id with
      | none =>
        refine h.sub _ (.refl _) fun e he => others he fun own => ?_
        rw [← own, ← h.own_keys e he, h.find?_of_mem (mem_stops_of_mem he)] at hf
        cases hf
      | some s =>
        refine h.sub _ List.filter_sublist fun e he => ?_
        obtain ⟨mem, apart⟩ := List.mem_filter.mp he
        exact others mem (by simpa using apart)

private theorem remove (h : r.Keyed) (id : StopId) : (r.remove id).2.Keyed := by
  rw [Route.remove]
  split
  · exact h.removeAt _
  · exact h

private theorem move (h : r.Keyed) {origin target : Nat} (ht : r.move origin target = .ok t) : t.Keyed := by
  obtain ⟨order, moved, rfl⟩ := exists_perm_of_move ht
  exact h.sub _ (.refl _) fun e he => moved.mem_iff.mpr (h.key_mem_order he)

private theorem ensureLength (h : r.Keyed) (length : Nat) : (r.ensureLength length).Keyed := by
  have pushed (texts : List String) (s : Route) (hs : s.Keyed) : (texts.foldl push s).Keyed := by
    induction texts generalizing s with
    | nil => exact hs
    | cons text texts ih => exact ih _ ((hs.mint text).append (Stop.create_sound _ text))
  exact pushed _ r h

private theorem truncate (h : r.Keyed) (length : Nat) : (r.truncate length).Keyed := by
  refine h.sub _ List.filter_sublist fun e he => ?_
  obtain ⟨mem, kept⟩ := List.mem_filter.mp he
  have known := h.key_mem_order mem
  rw [← List.take_append_drop (max length minStops) r.order] at known
  exact (List.mem_append.mp known).resolve_right (by simpa using kept)

private theorem resolve (h : r.Keyed) {id : StopId} {outcome : ResolveOutcome}
    (ht : r.resolve id = .ok (outcome, t)) : t.Keyed := by
  cases hf : r.find? id with
  | none =>
    rw [resolve_of_none hf] at ht
    cases ht
  | some s =>
    rw [h.own_keys.resolve_of_find? hf] at ht
    cases ho : s.resolve with
    | issued l =>
      rw [ho] at ht
      cases ht
      refine h.modify id (fun _ own => own) fun u hu => ?_
      rw [hf] at hu
      cases hu
      exact Stop.markPending_sound (h.sound s (h.find?_some hf).1) ho
    | _ =>
      rw [ho] at ht
      cases ht
      exact h

theorem complete (h : r.Keyed) (l : Lookup) (result : LookupResult) : (r.complete l result).2.Keyed := by
  cases ha : r.awaits l with
  | false =>
    rw [complete_of_not_awaits ha]
    exact h
  | true =>
    obtain ⟨status, applied⟩ := complete_of_awaits ha result
    obtain ⟨s, hs, _, pending⟩ := awaits_iff.mp ha
    rw [applied]
    refine h.modify l.stop (fun u own => (u.resolveWith_id result).trans own) fun u hu => ?_
    rw [hs] at hu
    cases hu
    exact Stop.resolveWith_sound (h.sound s (h.find?_some hs).1) pending result

end Keyed

theorem Made.keyed (h : r.Made) : r.Keyed := by
  induction h with
  | empty =>
    have none (s : Stop) : s ∉ Route.empty.stops := List.not_mem_nil
    exact ⟨fun e he => (List.not_mem_nil he).elim, List.nodup_nil, fun s hs => (none s hs).elim, fun s hs => (none s hs).elim⟩
  | mint _ text ih => exact ih.mint text
  | append _ hs ih => exact ih.append hs
  | insert _ hs ht ih => exact ih.insert hs ht
  | removeAt _ index ih => exact ih.removeAt index
  | remove _ id ih => exact ih.remove id
  | move _ ht ih => exact ih.move ht
  | ensureLength _ length ih => exact ih.ensureLength length
  | truncate _ length ih => exact ih.truncate length
  | modify _ id hid hs ih =>
    refine ih.modify id (fun s own => (hid s).trans own) fun s found => ?_
    exact hs s (ih.sound s (ih.find?_some found).1)
  | resolve _ ht ih => exact ih.resolve ht
  | complete _ l result ih => exact ih.complete l result
  | session h => exact h.settled.wellFormed.keyed

end Itinerary.Route

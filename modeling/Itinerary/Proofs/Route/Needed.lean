import Itinerary.Proofs.Route.Asked
import Itinerary.Proofs.Route.Keyed

/-! Resolving all stops of a route, whatever it is made of: the lookups that are needed are issued, once
each, and after that none is needed. -/
namespace Itinerary

namespace Stop
variable {s : Stop}

/-- There is text to look up, and nothing has come of it. -/
def needsLookup (s : Stop) : Bool := !s.isBlank && (s.status == .unresolved || s.status == .failed)

/-- The text of a sound stop that needs a lookup is no literal, so that the order in which resolving asks
for literals, status and blanks does not matter. -/
theorem Sound.resolve_lookup? (h : s.Sound) :
    s.resolve.lookup? = if s.needsLookup then some s.lookup else none := by
  have literal (hl : s.isLiteral = true) : s.status = .resolved := by
    obtain ⟨c, hc⟩ := Option.isSome_iff_exists.mp hl
    exact (h.of_literal hc).status
  rw [Stop.resolve_lookup?, needsLookup]
  cases hl : s.isLiteral with
  | true => simp [literal hl]
  | false => cases s.isBlank <;> cases s.status <;> rfl

private theorem Sound.asked_eq (h : s.Sound) : s.asked = if s.needsLookup then s.markPending else s := by
  rw [asked, h.resolve_lookup?]
  cases s.needsLookup <;> rfl

private theorem Sound.asked (h : s.Sound) : s.asked.Sound := by
  cases ho : s.resolve with
  | issued l =>
    rw [asked_of_some (show s.resolve.lookup? = some l by rw [ho]; rfl)]
    exact markPending_sound h ho
  | _ => rwa [asked_of_none (by rw [ho]; rfl)]

private theorem eq_lookup {l : Lookup} (h : s.resolve.lookup? = some l) : l = s.lookup := by
  rw [Stop.resolve_lookup?] at h
  split at h <;> cases h
  rfl

/-- A stop that has been asked for is not asked for again. -/
theorem resolve_lookup?_asked (s : Stop) : s.asked.resolve.lookup? = none := by
  cases hs : s.resolve.lookup? with
  | none => rw [asked_of_none hs, hs]
  | some l =>
    rw [asked_of_some hs, Stop.resolve_lookup?, if_neg]
    rintro ⟨_, _, _, idle⟩
    exact idle rfl

private theorem asked_asked (s : Stop) : s.asked.asked = s.asked := asked_of_none s.resolve_lookup?_asked

private theorem ite_asked_id (s : Stop) (id : StopId) : (if s.id = id then s.asked else s).id = s.id := by
  split
  · exact s.asked_id
  · rfl

/-- The stop as it is resolved after these: it has been asked for if it was one of them. -/
def afterTurns (before : List Stop) (s : Stop) : Stop :=
  if s.id ∈ before.map Stop.id then s.asked else s

end Stop

namespace Route
variable {r : Route}

/-- The outcomes of resolving these stops in turn, of which one may come up again. -/
def turns (stops : List Stop) : List ResolveOutcome :=
  stops.mapIdx fun i s => (s.afterTurns (stops.take i)).resolve

/-- A later turn finds the stop of an earlier one asked for. -/
theorem turns_cons (s : Stop) (stops : List Stop) :
    turns (s :: stops) = s.resolve :: turns (stops.map fun u => if u.id = s.id then u.asked else u) := by
  have ids : Stop.id ∘ (fun u : Stop => if u.id = s.id then u.asked else u) = Stop.id := by
    funext u
    exact u.ite_asked_id s.id
  rw [turns, List.mapIdx_cons]
  congr 1
  refine List.mapIdx_eq_iff.mpr fun i => ?_
  rw [turns, List.getElem?_mapIdx, List.getElem?_map, Option.map_map]
  congr 1
  funext u
  rw [Function.comp_apply, List.take_succ_cons, ← List.map_take, Stop.afterTurns, Stop.afterTurns,
    List.map_map, ids, List.map_cons]
  by_cases own : u.id = s.id
  · rw [if_pos own, Stop.asked_asked, ite_self, if_pos (own ▸ List.mem_cons_self)]
  · simp only [own, if_false, List.mem_cons, false_or]

/-- Of stops that may come up again, each is looked up once if it needs to be. -/
private theorem turns_lookups (stops : List Stop) (same : ∀ s ∈ stops, ∀ u ∈ stops, s.id = u.id → s = u) :
    ((turns stops).filterMap ResolveOutcome.lookup?).Nodup ∧
      ∀ l, l ∈ (turns stops).filterMap ResolveOutcome.lookup? ↔
        ∃ s ∈ stops, s.resolve.lookup? = some l := by
  -- By length, as the later stops are changed by the first turn.
  induction hn : stops.length generalizing stops with
  | zero =>
    rw [List.eq_nil_of_length_eq_zero hn]
    exact ⟨List.nodup_nil, fun l => by simp [turns]⟩
  | succ n ih =>
    obtain ⟨s, stops, rfl⟩ := List.exists_cons_of_length_eq_add_one hn
    have asked (u : Stop) (l : Lookup) :
        (if u.id = s.id then u.asked else u).resolve.lookup? = some l ↔
          u.id ≠ s.id ∧ u.resolve.lookup? = some l := by
      split
      · rename_i own
        simp [u.resolve_lookup?_asked, own]
      · rename_i apart
        simp [apart]
    obtain ⟨nodup, mem⟩ := ih (stops.map fun u => if u.id = s.id then u.asked else u) (by
      simp only [List.forall_mem_map, Stop.ite_asked_id]
      intro u hu v hv own
      rw [same u (List.mem_cons_of_mem _ hu) v (List.mem_cons_of_mem _ hv) own]) (by simpa using hn)
    simp only [List.mem_map, exists_exists_and_eq_and, asked] at mem
    have own {u : Stop} {l : Lookup} (issued : u.resolve.lookup? = some l) : l.stop = u.id := by
      rw [Stop.eq_lookup issued]
      rfl
    rw [turns_cons, filterMap_lookup?_cons]
    refine ⟨List.Nodup.append (Option.toList_nodup _) nodup fun l first again => ?_, fun l => ?_⟩
    · obtain ⟨u, _, apart, issued⟩ := (mem l).mp again
      exact apart ((own issued).symm.trans (own (Option.mem_toList.mp first)))
    · rw [List.mem_append, Option.mem_toList, mem, List.exists_mem_cons_iff]
      constructor
      · rintro (first | ⟨u, hu, _, issued⟩)
        · exact .inl first
        · exact .inr ⟨u, hu, issued⟩
      · rintro (first | ⟨u, hu, issued⟩)
        · exact .inl first
        · by_cases again : u.id = s.id
          · rw [same u (List.mem_cons_of_mem _ hu) s List.mem_cons_self again] at issued
            exact .inl issued
          · exact .inr ⟨u, hu, again, issued⟩

/-- The route with each of its stops changed where it is kept. -/
def mapStops (r : Route) (f : Stop → Stop) : Route :=
  { r with entries := r.entries.map fun e => (e.1, f e.2) }

/-- What is done to one stop, or to none. -/
theorem mapStops_congr {f g : Stop → Stop} (h : ∀ s ∈ r.stops, f s = g s) : r.mapStops f = r.mapStops g := by
  rw [mapStops, mapStops]
  congr 1
  exact List.map_congr_left fun e he => congrArg (Prod.mk e.1) (h e.2 (mem_stops_of_mem he))

private theorem mapStops_self (h : ∀ s ∈ r.stops, f s = s) : r.mapStops f = r := by
  rw [mapStops_congr h, mapStops, List.map_id']

private theorem stops_mapStops (r : Route) (f : Stop → Stop) : (r.mapStops f).stops = r.stops.map f := by
  simp only [mapStops, stops, List.map_map]
  rfl

private theorem mapStops_mapStops (r : Route) (f g : Stop → Stop) :
    (r.mapStops f).mapStops g = r.mapStops fun s => g (f s) := by
  simp only [mapStops, List.map_map]
  rfl

private theorem OwnKeys.modify_eq (own : r.OwnKeys) (id : StopId) (f : Stop → Stop) :
    r.modify id f = r.mapStops fun s => if s.id = id then f s else s := by
  rw [Route.modify, mapStops]
  congr 1
  refine List.map_congr_left fun e he => ?_
  rw [own e he]
  split <;> rfl

/-- The route after the stops with these identities have been asked for. -/
def asking (r : Route) (ids : List StopId) : Route :=
  r.mapStops fun s => if s.id ∈ ids then s.asked else s

private theorem OwnKeys.asking_cons (own : r.OwnKeys) (id : StopId) (ids : List StopId) :
    r.asking (id :: ids) = (r.modify id Stop.asked).asking ids := by
  rw [own.modify_eq, asking, asking, mapStops_mapStops]
  refine mapStops_congr fun s _ => ?_
  by_cases here : s.id = id
  · simp [here, Stop.asked_id, Stop.asked_asked]
  · simp [here]

private theorem OwnKeys.filterMap_find?_asked (own : r.OwnKeys) (id : StopId) (ids : List StopId) :
    ids.filterMap (r.modify id Stop.asked).find? =
      (ids.filterMap r.find?).map fun s => if s.id = id then s.asked else s := by
  rw [List.map_filterMap]
  congr 1
  funext other
  exact own.find?_modify id other Stop.asked

/-- Resolving all stops of the route issues nothing, and changes neither it nor what is counted. -/
structure Needless (r : Route) : Prop where
  silent : r.resolveAll.1.filterMap ResolveOutcome.lookup? = []
  kept : r.resolveAll.2 = r
  uncounted : ∀ stats : LookupStats, r.resolveAll.1.foldl LookupStats.countIssued stats = stats

namespace Keyed

/-- Resolving a stop asks for it. -/
private theorem resolve_eq (h : r.Keyed) {id : StopId} {s : Stop} (hs : r.find? id = some s) :
    r.resolve id = .ok (s.resolve, r.modify id Stop.asked) := by
  have alone (f : Stop → Stop) (hf : f s = s.asked) :
      (r.mapStops fun u => if u.id = id then f u else u) = r.modify id Stop.asked := by
    rw [h.own_keys.modify_eq]
    refine mapStops_congr fun u hu => ?_
    split
    · rename_i own
      rw [h.eq_of_find? hs hu own, hf]
    · rfl
  rw [h.own_keys.resolve_of_find? hs]
  cases ho : s.resolve.lookup? with
  | none =>
    rw [← alone (fun u => u) (Stop.asked_of_none ho).symm, mapStops_self fun u _ => ite_self _]
    rfl
  | some l =>
    rw [← alone _ (Stop.asked_of_some ho).symm, ← h.own_keys.modify_eq]
    rfl

private theorem asked (h : r.Keyed) (id : StopId) : (r.modify id Stop.asked).Keyed :=
  h.modify id (fun s own => s.asked_id.trans own) fun s hs => (h.sound s (h.find?_some hs).1).asked

/-- Resolving stops in turn asks for them all. -/
theorem resolveEach_eq (h : r.Keyed) (ids : List StopId) :
    r.resolveEach ids = (turns (ids.filterMap r.find?), r.asking ids) := by
  induction ids generalizing r with
  | nil =>
    rw [Route.asking, mapStops_self fun s _ => if_neg List.not_mem_nil]
    rfl
  | cons id ids ih =>
    rw [resolveEach]
    cases hs : r.find? id with
    | none =>
      have absent : r.modify id Stop.asked = r := by
        rw [h.own_keys.modify_eq]
        refine mapStops_self fun s hm => if_neg fun own => ?_
        rw [← own, h.find?_of_mem hm] at hs
        cases hs
      rw [resolve_of_none hs, h.own_keys.asking_cons, absent, List.filterMap_cons_none hs]
      exact ih h
    | some s =>
      obtain ⟨_, rfl⟩ := h.find?_some hs
      rw [h.resolve_eq hs, h.own_keys.asking_cons, List.filterMap_cons_some hs, turns_cons,
        ← h.own_keys.filterMap_find?_asked]
      dsimp only
      rw [ih (h.asked s.id)]

private theorem mem_toList (h : r.Keyed) {s : Stop} : s ∈ r.toList ↔ s ∈ r.stops :=
  h.own_keys.mem_toList_of_nodup h.ids_nodup h.listed

private theorem asking (h : r.Keyed) (ids : List StopId) : (r.asking ids).Keyed := by
  induction ids generalizing r with
  | nil =>
    rw [Route.asking, mapStops_self fun s _ => if_neg List.not_mem_nil]
    exact h
  | cons id ids ih =>
    rw [h.own_keys.asking_cons]
    exact ih (h.asked id)

/-- Resolving all stops leaves pending those that needed a lookup. -/
theorem resolveAll_route (h : r.Keyed) : r.resolveAll.2 =
    r.mapStops fun s => if s.needsLookup then s.markPending else s := by
  rw [resolveAll, h.resolveEach_eq]
  dsimp only [Route.asking]
  refine mapStops_congr fun s hs => ?_
  rw [if_pos (h.listed s hs), (h.sound s hs).asked_eq]

/-- The lookups issued are those of the stops that need one. -/
theorem resolveAll_lookups (h : r.Keyed) : (r.resolveAll.1.filterMap ResolveOutcome.lookup?).Perm
    ((r.stops.filter Stop.needsLookup).map Stop.lookup) := by
  have same : ∀ s ∈ r.toList, ∀ u ∈ r.toList, s.id = u.id → s = u := by
    intro s hs u hu own
    exact h.eq_of_find? (h.find?_of_mem (h.mem_toList.mp hu)) (h.mem_toList.mp hs) own
  obtain ⟨nodup, mem⟩ := turns_lookups r.toList same
  rw [resolveAll, h.resolveEach_eq]
  refine (List.perm_ext_iff_of_nodup nodup ?_).mpr fun l => (mem l).trans ?_
  · have ids : ((r.stops.filter Stop.needsLookup).map Stop.id).Nodup :=
      h.ids_nodup.sublist (List.filter_sublist.map _)
    refine List.Nodup.of_map Lookup.stop ?_
    rwa [List.map_map]
  · simp only [List.mem_map, List.mem_filter, h.mem_toList]
    refine exists_congr fun s => ?_
    constructor
    · rintro ⟨hs, issued⟩
      refine ⟨⟨hs, ?_⟩, (Stop.eq_lookup issued).symm⟩
      by_contra idle
      rw [(h.sound s hs).resolve_lookup?, if_neg idle] at issued
      cases issued
    · rintro ⟨⟨hs, needed⟩, rfl⟩
      exact ⟨hs, by rw [(h.sound s hs).resolve_lookup?, if_pos needed]⟩

private theorem needless (h : r.Keyed) (none : ∀ s ∈ r.stops, s.needsLookup = false) : r.Needless := by
  have issued := h.resolveAll_lookups
  rw [List.filter_eq_nil_iff.mpr fun s hs => by simp [none s hs]] at issued
  refine ⟨issued.eq_nil, ?_, fun stats => ?_⟩
  · rw [h.resolveAll_route, mapStops_self fun s hs => if_neg (by simp [none s hs])]
  · rw [Session.foldl_countIssued, issued.eq_nil]
    rfl

end Keyed

/-- Applies answers one after the other. -/
def completeEach (r : Route) (answers : List (Lookup × LookupResult)) : Route :=
  answers.foldl (fun r a => (r.complete a.1 a.2).2) r

/-- An answer with a place leaves no need of a lookup. -/
private theorem complete_found (own : r.OwnKeys) (none : ∀ s ∈ r.stops, s.needsLookup = false) (l : Lookup)
    (top : Candidate) (others : List Candidate) :
    ∀ s ∈ (r.complete l (.ok (top :: others))).2.stops, s.needsLookup = false := by
  cases ha : r.awaits l with
  | false =>
    rw [complete_of_not_awaits ha]
    exact none
  | true =>
    obtain ⟨status, applied⟩ := complete_of_awaits ha (.ok (top :: others))
    rw [applied]
    intro t ht
    obtain ⟨s, hs, rfl⟩ := own.mem_modify.mp ht
    split
    · simp [Stop.needsLookup, Stop.resolveWith, Stop.choose]
    · exact none s hs

private theorem Keyed.needless_completeEach (h : r.Keyed) (none : ∀ s ∈ r.stops, s.needsLookup = false)
    (answers : List (Lookup × LookupResult))
    (found : ∀ a ∈ answers, ∃ top others, a.2 = .ok (top :: others)) :
    (r.completeEach answers).Needless := by
  induction answers generalizing r with
  | nil => exact h.needless none
  | cons a answers ih =>
    obtain ⟨top, others, ha⟩ := found a List.mem_cons_self
    have later : ∀ s ∈ (r.complete a.1 a.2).2.stops, s.needsLookup = false := by
      rw [ha]
      exact complete_found h.own_keys none a.1 top others
    exact ih (h.complete a.1 a.2) later fun b hb => found b (List.mem_cons_of_mem _ hb)

/-- Resolving all stops of any route, whatever has been counted before: every stop has its outcome in
route order; a lookup is issued for the stops that need one, which are pending from then on, and the
others are left alone. Doing so again issues nothing and changes nothing, whether all these lookups are
still under way or some have been answered with a place. -/
theorem Made.resolveAll_issues_needed (h : r.Made) (stats : LookupStats) :
    r.resolveAll.1 = turns r.toList ∧
    (r.resolveAll.1.filterMap ResolveOutcome.lookup?).Perm
      ((r.stops.filter Stop.needsLookup).map Stop.lookup) ∧
    r.resolveAll.2 = (r.mapStops fun s => if s.needsLookup then s.markPending else s) ∧
    r.resolveAll.1.foldl LookupStats.countIssued stats =
      { stats with issued := stats.issued + (r.stops.filter Stop.needsLookup).length } ∧
    ∀ answers : List (Lookup × LookupResult), (∀ a ∈ answers, ∃ top others, a.2 = .ok (top :: others)) →
      (r.resolveAll.2.completeEach answers).Needless := by
  have keyed := h.keyed
  have issued := keyed.resolveAll_lookups
  have all := keyed.resolveEach_eq r.order
  refine ⟨?_, issued, keyed.resolveAll_route, ?_, fun answers found => ?_⟩
  · rw [resolveAll, all]
    rfl
  · rw [Session.foldl_countIssued, issued.length_eq, List.length_map]
  · refine Keyed.needless_completeEach ?_ (fun t ht => ?_) answers found
    · rw [resolveAll, all]
      exact keyed.asking r.order
    · rw [keyed.resolveAll_route, stops_mapStops] at ht
      obtain ⟨s, _, rfl⟩ := List.mem_map.mp ht
      split
      · simp [Stop.needsLookup, Stop.markPending]
      · simp_all

/-- A stop that has yet to be looked up, put in twice. -/
def doubled : Route := (empty.append (.create ⟨1⟩ "Bonn")).append (.create ⟨1⟩ "Bonn")

/-- One stop at two positions is looked up once. -/
theorem resolveAll_issues_doubled_once : doubled.Made ∧
    doubled.resolveAll.1 = [.issued ⟨⟨1⟩, "Bonn", 0⟩, .alreadyPending] ∧
    doubled.resolveAll.2.Needless := by
  have sound := Stop.create_sound ⟨1⟩ "Bonn"
  have made : doubled.Made := (Made.empty.append sound).append sound
  obtain ⟨outcomes, -, -, -, again⟩ := made.resolveAll_issues_needed {}
  refine ⟨made, outcomes.trans (by decide +kernel), again [] fun a ha => ?_⟩
  exact (List.not_mem_nil ha).elim

end Route
end Itinerary

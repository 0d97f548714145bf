import Itinerary.Proofs.Session.Deliveries
import Mathlib.Data.List.Perm.Subperm

/-! The counts of lookups. A stop is pending only by a lookup that was issued for it, and an answer that is
applied takes one stop off, so that what was issued covers what was applied and what is pending. -/
namespace Itinerary

namespace Route
variable {r t : Route} {ls : List Lookup}

/-- The stops that are being looked up, in route order. -/
def pending (r : Route) : List StopId := (r.toList.filter (·.status == .pending)).map Stop.id

private theorem WellFormed.pending_eq (h : r.WellFormed) :
    r.pending = r.order.filter fun id => (r.find? id).any (·.status == .pending) := by
  rw [pending, toList, List.filter_filterMap, List.map_filterMap, ← List.filterMap_eq_filter]
  congr 1
  funext id
  cases hf : r.find? id with
  | none => simp [Option.guard, hf]
  | some s =>
    obtain ⟨_, rfl⟩ := h.find?_some hf
    by_cases hp : s.status = .pending <;> simp [Option.guard, hf, hp]

private theorem WellFormed.pending_nodup (h : r.WellFormed) : r.pending.Nodup := by
  rw [h.pending_eq]
  exact h.order_nodup.filter _

private theorem WellFormed.mem_pending (h : r.WellFormed) {id : StopId} :
    id ∈ r.pending ↔ ∃ s ∈ r.stops, s.status = .pending ∧ s.id = id := by
  simp [pending, h.mem_toList, and_assoc]

/-- A change leaves no more stops pending than were before, and one for each lookup that it issues. -/
theorem Change.pending_le (h : r.WellFormed) (c : Change r ls t) :
    t.pending.length ≤ r.pending.length + ls.length := by
  have known : t.pending ⊆ ls.map Lookup.stop ++ r.pending := by
    intro id hid
    obtain ⟨s, hs, hp, rfl⟩ := (h.change c).mem_pending.mp hid
    cases c.origin h hs with
    | kept hm _ => exact List.mem_append_right _ (h.mem_pending.mpr ⟨s, hm, hp, rfl⟩)
    | retyped _ text => exact absurd hp (Stop.setInput_status_ne_pending _ text)
    | created text => exact absurd hp (Stop.create_status_ne_pending _ text)
    | pending _ _ => exact List.mem_append_left _ List.mem_cons_self
  have within := (List.subperm_of_subset (h.change c).pending_nodup known).length_le
  rw [List.length_append, List.length_map] at within
  omega

private theorem Changes.pending_le (h : r.WellFormed) (c : Changes r ls t) :
    t.pending.length ≤ r.pending.length + ls.length := by
  induction c with
  | refl => exact Nat.le_refl _
  | tail first c ih =>
    have next := c.pending_le (h.changes first)
    rw [List.length_append]
    omega

/-- An answer that is waited for takes its stop off the pending ones, and no other. -/
theorem WellFormed.pending_answered (h : r.WellFormed) {l : Lookup} (ha : r.awaits l = true)
    (result : LookupResult) :
    r.pending.Perm (l.stop :: (r.modify l.stop (·.resolveWith result)).pending) := by
  obtain ⟨s, hs, _, hp⟩ := awaits_iff.mp ha
  have kept := h.find?_some hs
  have mem : l.stop ∈ r.pending := h.mem_pending.mpr ⟨s, kept.1, hp, kept.2⟩
  have rest : (r.modify l.stop (·.resolveWith result)).pending = r.pending.erase l.stop := by
    rw [h.pending_nodup.erase_eq_filter, (h.answered ha result).pending_eq, h.pending_eq,
      List.filter_filter]
    refine List.filter_congr fun id _ => ?_
    rw [find?_modify]
    cases hf : r.find? id with
    | none => simp
    | some u =>
      obtain ⟨_, rfl⟩ := h.find?_some hf
      have settled : (u.resolveWith result).status ≠ .pending := u.resolveWith_status_ne_pending result
      by_cases own : u.id = l.stop <;> simp [own, settled]
  rw [rest]
  exact List.perm_cons_erase mem

end Route

namespace Session
variable {s : Session}

/-- What was issued covers what was applied and what is pending. -/
def Tallied (s : Session) : Prop := s.stats.applied + s.route.pending.length ≤ s.stats.issued

/-- The changes of the route's stops are counted by the lookups issued for them. -/
private theorem Tallied.changed (h : s.Tallied) (w : s.route.WellFormed) {t : Session} {ls : List Lookup}
    (hc : Route.Changes s.route ls t.route)
    (hs : t.stats = { s.stats with issued := s.stats.issued + ls.length }) : t.Tallied := by
  have more := hc.pending_le w
  have before : s.stats.applied + s.route.pending.length ≤ s.stats.issued := h
  rw [Tallied, hs]
  dsimp only
  omega

private theorem Tallied.evaluate (h : s.Tallied) (always : Bool) : (s.evaluate always).Tallied := by
  rw [Tallied, evaluate_route, (evaluate_rest _ _).2.2]
  exact h

private theorem Tallied.answered (h : s.Tallied) (w : s.route.WellFormed) {l : Lookup}
    (ha : s.route.awaits l = true) (result : LookupResult) : (s.answered l result).Tallied := by
  have fewer := (w.pending_answered ha result).length_eq
  have before : s.stats.applied + s.route.pending.length ≤ s.stats.issued := h
  rw [List.length_cons] at fewer
  change s.stats.applied + 1 + (s.route.modify l.stop (·.resolveWith result)).pending.length ≤ s.stats.issued
  omega

private theorem Tallied.after (h : s.Tallied) (w : s.route.WellFormed) (e : Event) : (s.after e).Tallied := by
  cases turn w e with
  | kept _ hr _ hst _ _ _ _ _ =>
    rw [Tallied, hr, hst]
    exact h
  | stale l result _ _ ha =>
    rw [ha]
    exact h
  | shown link _ _ route ls focusOn es hc _ ha =>
    rw [ha]
    have arrived : (s.arrived link route ls).Tallied := h.changed w hc rfl
    exact arrived
  | edited x _ _ route ls hc ha =>
    rw [ha]
    have revised : ((s.revised x route ls).refreshMarkers.withDirect false).Tallied := h.changed w hc rfl
    exact revised.evaluate true
  | navigated link _ _ route ls hc ha =>
    rw [ha]
    have arrived : ((s.arrived link route ls).refreshMarkers.withDirect true).Tallied := h.changed w hc rfl
    exact arrived.evaluate true
  | answered l result _ hw focusOn es _ _ ha =>
    rw [ha]
    have answered : ((s.answered l result).shown focusOn es).refreshMarkers.Tallied := h.answered w hw result
    exact answered.evaluate false

private theorem Reachable.tallied (h : s.Reachable) : s.Tallied := by
  induction h with
  | start config historyAvailable clock =>
    have none : Route.blank.pending = [] := by decide +kernel
    rw [Tallied]
    change 0 + Route.blank.pending.length ≤ 0
    rw [none]
    exact Nat.le_refl _
  | after h e ih => exact ih.after h.settled.wellFormed e

/-- In every run, whatever answers come in it, to lookups that were issued or not, once or again, what was
issued covers what was applied and what is still pending. And an answer to any lookup is counted once: as
applied, and then the lookup's stop was pending and is not any more, while all others stay pending; or as
discarded, and then the route is as before. -/
theorem lookups_tallied (config : SessionConfig) (historyAvailable : Bool) (clock : Instant)
    (es : List Event) :
    let s := (start config historyAvailable clock).play es
    s.stats.applied + s.route.pending.length ≤ s.stats.issued ∧
    ∀ l result,
      let u := (s.completeLookup l result).2
      ((∃ status, (s.completeLookup l result).1 = .applied status) ∧
        u.stats = { s.stats with applied := s.stats.applied + 1 } ∧
        s.route.pending.Perm (l.stop :: u.route.pending)) ∨
      ((s.completeLookup l result).1 = .stale ∧
        u.stats = { s.stats with discarded := s.stats.discarded + 1 } ∧ u.route = s.route) := by
  intro s
  have reachable : s.Reachable := (Reachable.start config historyAvailable clock).play es
  refine ⟨reachable.tallied, fun l result => ?_⟩
  cases hw : s.route.awaits l with
  | false =>
    rw [completeLookup_stale hw]
    exact .inr ⟨rfl, rfl, rfl⟩
  | true =>
    obtain ⟨status, focusOn, effects, _, applied⟩ := completeLookup_applied hw result
    rw [applied]
    refine .inl ⟨⟨status, rfl⟩, (evaluate_rest _ _).2.2, ?_⟩
    dsimp only
    rw [evaluate_route]
    exact reachable.settled.wellFormed.pending_answered hw result

-- An answer is taken by its stop and revision, whatever text it says it is for.
example : ((start {} false ⟨0, 0⟩).play
    [.edit (.setInput 0 "Bonn"), .completeLookup ⟨⟨1⟩, "Ulm", 1⟩ (.ok [])]).stats = ⟨1, 1, 0⟩ := by
  decide +kernel

end Session
end Itinerary

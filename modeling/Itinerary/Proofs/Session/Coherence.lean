import Itinerary.Proofs.Session.Readiness

/-! The route of a session never contradicts itself: order and stops name the same identities, and
what a stop says of itself fits together. -/
namespace Itinerary

/-- The order names every identity that a stop is kept under once, and nothing else; the stop kept under
an identity is the one that goes by it; there is an origin and a destination; and every stop is coherent. -/
structure Route.Coherent (r : Route) : Prop where
  order_nodup : r.order.Nodup
  order_perm : r.order.Perm (r.entries.map Prod.fst)
  kept_under_own : ∀ e ∈ r.entries, e.2.id = e.1
  two_stops : minStops ≤ r.length
  stops_coherent : ∀ e ∈ r.entries, e.2.Coherent

private theorem Route.WellFormed.coherent {r : Route} (h : r.WellFormed) : r.Coherent where
  order_nodup := h.order_nodup
  order_perm := by
    rw [← h.own_keys.map_id]
    apply (List.perm_ext_iff_of_nodup h.order_nodup h.ids_nodup).mpr
    intro id
    rw [h.mem_order, List.mem_map]
  kept_under_own := h.own_keys
  two_stops := h.two_stops
  stops_coherent e he := (h.sound e.2 (mem_stops_of_mem he)).coherent

/-- Whatever happens to a session, its route stays coherent. -/
theorem Session.coherent_throughout (config : SessionConfig) (historyAvailable : Bool)
    (clock : Instant) (es : List Event) :
    ((start config historyAvailable clock).play es).route.Coherent := by
  have reachable := (Reachable.start config historyAvailable clock).play es
  exact reachable.settled.wellFormed.coherent

end Itinerary

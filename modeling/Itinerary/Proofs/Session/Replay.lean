import Itinerary.Proofs.Coordinate
import Itinerary.Proofs.Payload
import Itinerary.Proofs.Route.Sync
import Itinerary.Proofs.Session.Deliveries
import Itinerary.Proofs.Session.Steering

/-! Navigating to a link that a session has pushed asks for what was to be asked for when it was
pushed. -/
namespace Itinerary

namespace Route
variable {r t : Route}

/-- A route that is given literals has their coordinates, and all its stops are literals. -/
theorem WellFormed.syncStops_literals (h : r.WellFormed) {cs : List Coordinate}
    (h2 : minStops ≤ cs.length) (range : ∀ c ∈ cs, c.inRange = true) :
    let synced := Session.syncStops r (cs.map Coordinate.literal)
    synced.length = cs.length ∧ synced.coordinates = .ok cs ∧
      ∀ s ∈ synced.stops, s.isLiteral = true := by
  intro synced
  have formed : synced.WellFormed := h.changes (syncStops_changes h _)
  have length : synced.length = cs.length := by
    rw [h.length_syncStops, List.length_map]
    exact Nat.max_eq_left h2
  have known (i : Nat) (s : Stop) (hs : synced.at? i = some s) :
      ∃ c, cs[i]? = some c ∧ s.isLiteral = true ∧ s.coordinate = some c := by
    have inside : i < cs.length := length ▸ lt_of_at? hs
    have text : (cs.map Coordinate.literal)[i]? = some cs[i].literal := by
      rw [List.getElem?_map, List.getElem?_eq_getElem inside]
      rfl
    have typed : s.input = cs[i].literal := (h.syncStops_texts hs).1 _ text
    have read : Coordinate.parse? s.input = some cs[i] := by
      rw [typed]
      exact Coordinate.parse?_literal (range _ (List.getElem_mem inside))
    have shows := (formed.sound s (formed.at?_some hs).1).of_literal read
    refine ⟨cs[i], List.getElem?_eq_getElem inside, ?_, ?_⟩
    · rw [Stop.isLiteral, read]
      rfl
    · exact shows.coordinate
  refine ⟨length, ?_, ?_⟩
  · rw [coordinates_ok_iff]
    apply List.ext_getElem?
    intro i
    rw [List.getElem?_map, List.getElem?_map, formed.getElem?_toList]
    cases hs : synced.at? i with
    | none =>
      have beyond : cs.length ≤ i := by
        by_contra inside
        obtain ⟨s, hs'⟩ := formed.exists_at? (length ▸ Nat.lt_of_not_le inside)
        rw [hs] at hs'
        cases hs'
      rw [List.getElem?_eq_none beyond]
      rfl
    | some s =>
      obtain ⟨c, hc, _, coordinate⟩ := known i s hs
      rw [hc, Option.map_some, Option.map_some, coordinate]
  · intro s hs
    obtain ⟨i, hi⟩ := formed.exists_position hs
    obtain ⟨c, _, literal, _⟩ := known i s hi
    exact literal

/-- Stops that are literals need no lookup. -/
private theorem resolveEach_of_literal (h : ∀ s ∈ r.stops, s.isLiteral = true) (ids : List StopId) :
    ∃ outcomes, r.resolveEach ids = (outcomes, r) ∧
      outcomes.filterMap ResolveOutcome.lookup? = [] := by
  induction ids with
  | nil => exact ⟨[], rfl, rfl⟩
  | cons id ids ih =>
    obtain ⟨outcomes, rest, none⟩ := ih
    rw [resolveEach]
    cases hs : r.find? id with
    | none =>
      refine ⟨outcomes, ?_, none⟩
      rw [resolve]
      rw [hs]
      exact rest
    | some s =>
      have literal : s.resolve = .immediate := by
        rw [Stop.resolve, if_pos (h s (mem_stops_of_find? hs))]
      refine ⟨.immediate :: outcomes, ?_, ?_⟩
      · rw [resolve]
        rw [hs]
        dsimp only
        rw [literal]
        dsimp only
        rw [rest]
      · exact none

end Route

private theorem map_of_map_eq_some {α β γ : Type} {f : α → Option β} {g : α → γ} {k : β → γ}
    (hg : ∀ a b, f a = some b → g a = k b) {as : List α} {bs : List β} (h : as.map f = bs.map some) :
    as.map g = bs.map k := by
  induction as generalizing bs with
  | nil =>
    cases List.map_eq_nil_iff.mp h.symm
    rfl
  | cons a as ih =>
    cases bs with
    | nil => cases h
    | cons b bs =>
      obtain ⟨first, rest⟩ := List.cons.inj h
      rw [List.map_cons, List.map_cons, hg a b first, ih rest]

private theorem Link.points_capture {r : Route} {cs : List Coordinate} (h : r.coordinates = .ok cs)
    (options : Options) (zoom : Bool) :
    (Link.capture r options zoom).points = cs.map Coordinate.literal := by
  change r.toList.map _ = _
  refine map_of_map_eq_some ?_ (Route.coordinates_ok_iff.mp h)
  intro s c hc
  rw [hc]

namespace Session
variable {s : Session} {e : Event} {link : Link}

/-- What is pushed is the journey as it is after the event, for which a request can be built. -/
private theorem pushed_cases (h : s.Settled) (hp : .push link ∈ s.actions e) :
    ∃ payload zoom token, link = { Link.capture (s.after e).route (s.after e).options zoom with token } ∧
      Payload.build (s.after e).route (s.after e).options (s.after e).clock = .ok payload := by
  cases (h.decided hp).2 with
  | push built zoom token => exact ⟨_, zoom, some token, rfl, built⟩

/-- A link with the literals of two or more coordinates needs no lookup, and is evaluated. -/
private theorem navigate_literals (h : s.route.WellFormed) {cs : List Coordinate}
    (hp : link.points = cs.map Coordinate.literal) (h2 : minStops ≤ cs.length)
    (range : ∀ c ∈ cs, c.inRange = true) :
    s.navigate link = ((s.arrived link (syncStops s.route link.points) []).refreshMarkers.withDirect
      true).evaluate true := by
  obtain ⟨_, _, literals⟩ := h.syncStops_literals h2 range
  rw [← hp] at literals
  obtain ⟨outcomes, resolved, none⟩ := Route.resolveEach_of_literal literals
    (syncStops s.route link.points).order
  have many : 2 ≤ link.nonBlankPoints := by
    have all : link.nonBlankPoints = link.points.length := by
      rw [Link.nonBlankPoints, List.countP_eq_length, hp]
      intro p hm
      obtain ⟨c, hc, rfl⟩ := List.mem_map.mp hm
      have read := Coordinate.parse?_literal (range c hc)
      cases blank : Text.allBlank c.literal with
      | false => rfl
      | true =>
        rw [Coordinate.parse?_of_allBlank blank] at read
        cases read
    rw [all, hp, List.length_map]
    exact h2
  have same (t : Session) (ht : t.route = syncStops s.route link.points) :
      t.resolveAll = t.issue t.route [] := by
    rw [resolveAll, Route.resolveAll, ht, resolved]
    simp only [foldl_countIssued, none, issue]
  rw [navigate]
  dsimp only
  split
  · omega
  · omega
  · rw [same _ rfl]
    rfl

/-- A ready route that is evaluated past the history is asked for. -/
private theorem dispatched_of_direct {t : Session} {payload : Payload} (hq : Quiet s t)
    (he : s.after e = t.evaluate true) (ready : t.route.isReady = true)
    (direct : t.dispatcher.direct = true)
    (hb : Payload.build t.route t.options t.clock = .ok payload) :
    s.actions e = [.dispatch ⟨t.dispatcher.lastNumber + 1, payload, t.dispatcher.zoom⟩] ∧
      s.newRequests e = [⟨t.dispatcher.lastNumber + 1, payload, t.dispatcher.zoom⟩] := by
  have decision : (t.dispatcher.evaluate t.route t.options t.clock true).1 =
      .dispatch ⟨t.dispatcher.lastNumber + 1, payload, t.dispatcher.zoom⟩ := by
    have due : t.dispatcher.due t.route true = true := by
      rw [Dispatcher.due, ready]
      rfl
    cases t.dispatcher.evaluate_cases t.route t.options t.clock true with
    | idle notDue =>
      rw [due] at notDue
      cases notDue
    | rejected _ _ refused => cases hb.symm.trans refused
    | pushed _ _ _ way => simp [direct] at way
    | dispatched _ _ built _ hd =>
      cases hb.symm.trans built
      rw [hd]
  constructor
  · rw [actions, he, decided_evaluate hq, decision]
    rfl
  · rw [newRequests, he, evaluate_requests, decision, hq.1, List.drop_left]
    rfl

/-- A link made of a journey for which a request can be built asks for that request, wherever it is
navigated to at the same time. -/
private theorem replay (h : s.route.WellFormed) {r : Route} {cs : List Coordinate} {payload : Payload}
    (hr : r.WellFormed) (hc : r.coordinates = .ok cs) (range : ∀ c ∈ cs, c.inRange = true)
    (hp : link.points = cs.map Coordinate.literal)
    (hb : Payload.build r link.options s.clock = .ok payload) :
    ∃ d, s.newLookups (.navigate link) = [] ∧ s.actions (.navigate link) = [.dispatch d] ∧
      s.newRequests (.navigate link) = [d] ∧ d.payload = payload ∧ d.zoom = link.zoom := by
  have count : r.length = cs.length := by
    rw [← hr.whole.length_toList, ← List.length_map Stop.coordinate, Route.coordinates_ok_iff.mp hc,
      List.length_map]
  have enough : minStops ≤ cs.length := count ▸ hr.two_stops
  obtain ⟨length, coordinates, literals⟩ := h.syncStops_literals enough range
  rw [← hp] at length coordinates literals
  have formed : (syncStops s.route link.points).WellFormed := h.changes (Route.syncStops_changes h _)
  have ready : (syncStops s.route link.points).isReady = true := by
    refine formed.isReady_iff.mpr fun stop hs => ?_
    obtain ⟨c, read⟩ := Option.isSome_iff_exists.mp (literals stop hs)
    exact ((formed.sound stop hs).of_literal read).status
  have build : Payload.build (syncStops s.route link.points) link.options s.clock = .ok payload := by
    rw [Payload.build_congr (length.trans count.symm) (coordinates.trans hc.symm), hb]
  have quiet : Quiet s ((s.arrived link (syncStops s.route link.points) []).withDirect true) := .refl s
  have whole := navigate_literals h hp enough range
  obtain ⟨decided, queued⟩ := dispatched_of_direct (e := .navigate link) quiet.refreshMarkers whole ready
    rfl build
  exact ⟨_, newLookups_of_evaluate whole rfl, decided, queued, rfl, rfl⟩

/-- What a session pushes to its history asks, when it is navigated to at the same time, for the very
request that was due when it was pushed, without a lookup and without being pushed again, be it in
the same session or in one just started; provided that all coordinates are in range. -/
theorem pushed_link_replays (h : s.Reachable) (hp : .push link ∈ s.actions e)
    (range : ∀ stop ∈ (s.after e).route.toList, ∀ c, stop.coordinate = some c → c.inRange = true)
    (config : SessionConfig) :
    let u := s.after e
    ∀ t, t = u ∨ t = start { config with historyEnabled := true } true u.clock →
      ∃ d, t.newLookups (.navigate link) = [] ∧ t.actions (.navigate link) = [.dispatch d] ∧
        t.newRequests (.navigate link) = [d] ∧
        Payload.build u.route u.options u.clock = .ok d.payload ∧ d.zoom = link.zoom := by
  intro u t ht
  have reachable : u.Reachable := h.after e
  obtain ⟨payload, zoom, token, captured, built⟩ := pushed_cases h.settled hp
  obtain ⟨cs, coordinates⟩ := Payload.coordinates_of_build built
  have inside : ∀ c ∈ cs, c.inRange = true := by
    intro c hc
    have member : some c ∈ u.route.toList.map Stop.coordinate := by
      rw [Route.coordinates_ok_iff.mp coordinates]
      exact List.mem_map_of_mem hc
    obtain ⟨stop, hs, known⟩ := List.mem_map.mp member
    exact range stop hs c known
  have points : link.points = cs.map Coordinate.literal := by
    rw [captured]
    exact Link.points_capture coordinates u.options zoom
  have options : link.options = u.options := by
    rw [captured]
    rfl
  have settled : t.Settled ∧ t.clock = u.clock := by
    rcases ht with rfl | rfl
    · exact ⟨reachable.settled, rfl⟩
    · exact ⟨start_settled _ _ _, rfl⟩
  rw [← settled.2, ← options] at built
  obtain ⟨d, noLookup, decided, queued, same, follows⟩ := replay settled.1.wellFormed reachable.wellFormed
    coordinates inside points built
  refine ⟨d, noLookup, decided, queued, ?_, follows⟩
  rw [same, ← options, ← settled.2]
  exact built

/-- The origin is typed as a coordinate. -/
def placed : Session := (start {} true ⟨0, 0⟩).after (.edit (.setInput 0 "50.7,7.1"))

/-- So is the destination, and what is pushed then asks in a new session for the request between the
two. -/
theorem placed_replays :
    let e : Event := .edit (.setInput 1 "50.9,7")
    let u := placed.after e
    ∃ link, .push link ∈ placed.actions e ∧
      (∀ stop ∈ u.route.toList, ∀ c, stop.coordinate = some c → c.inRange = true) ∧
      ∃ d, (start {} true u.clock).actions (.navigate link) = [.dispatch d] ∧
        Payload.build u.route u.options u.clock = .ok d.payload := by
  intro e u
  have reachable : placed.Reachable := (Reachable.start {} true ⟨0, 0⟩).after _
  have pushes : (placed.actions e).any (fun | .push _ => true | _ => false) = true := by decide +kernel
  have pushed : ∃ link, .push link ∈ placed.actions e := by
    obtain ⟨a, ha, kind⟩ := List.any_eq_true.mp pushes
    cases a with
    | push link => exact ⟨link, ha⟩
    | _ => cases kind
  have inside : u.route.toList.all (fun stop => stop.coordinate.all Coordinate.inRange) = true := by
    decide +kernel
  have range : ∀ stop ∈ u.route.toList, ∀ c, stop.coordinate = some c → c.inRange = true := by
    intro stop hs c hc
    have all := List.all_eq_true.mp inside stop hs
    rw [hc] at all
    exact all
  obtain ⟨link, hp⟩ := pushed
  obtain ⟨d, _, decided, _, built, _⟩ := pushed_link_replays reachable hp range {} _ (.inr rfl)
  exact ⟨link, hp, range, d, decided, built⟩

end Session
end Itinerary

import Itinerary.Proofs.Session.Mirror
import Itinerary.Proofs.Session.Replies

/-! What the display is told to look at. Of a link with just one text the stop is shown, once, as soon as
it is not being looked up; no other link has anything shown, and neither asks for a route. -/
namespace Itinerary

/-- The place that the display is told to look at. -/
def Effect.focus? : Effect → Option Coordinate
  | .focus c => some c
  | _ => none

namespace Route
variable {r : Route} {id : StopId}

def isPending (r : Route) (id : StopId) : Bool := (r.find? id).any (·.status == .pending)

/-- The place of a stop, if it is known. -/
def placeOf (r : Route) (id : StopId) : Option Coordinate := (r.find? id).bind Stop.coordinate

/-- The stop is in the route, resolved, and at this place. -/
structure Places (r : Route) (id : StopId) (c : Coordinate) : Prop where
  mem : id ∈ r.order
  resolved : ∃ stop, r.find? id = some stop ∧ stop.status = .resolved ∧ stop.coordinate = some c

private theorem WellFormed.places (h : r.WellFormed) {c : Coordinate} (hc : r.placeOf id = some c) :
    r.Places id c := by
  obtain ⟨stop, found, known⟩ := Option.bind_eq_some_iff.mp hc
  have kept := h.find?_some found
  refine ⟨(h.mem_order id).mpr ⟨stop, kept⟩, stop, found, ?_, known⟩
  exact (h.sound stop kept.1).coordinate_isSome_iff.mp (Option.isSome_of_eq_some known)

end Route

namespace Session
variable {s t u : Session} {e : Event} {target : Option StopId}

/-- The places that the display is told to look at, each with the session as the event leaves it. -/
def sights (s : Session) (e : Event) : List (Session × Coordinate) :=
  ((s.told e).filterMap Effect.focus?).map (s.after e, ·)

/-- The session as an answer to a lookup leaves it, if the answer is applied. -/
def answers (s : Session) : Event → List Session
  | .completeLookup l result =>
    match s.completeLookup l result with
    | (.applied _, t) => [t]
    | (.stale, _) => []
  | _ => []

/-- The first of these sessions in which the stop is not being looked up, and the place of the stop, if
it is known there. -/
def firstSight (id : StopId) (looks : List Session) : Option (Session × Coordinate) :=
  (looks.find? fun t => !t.route.isPending id).bind fun t => (t.route.placeOf id).map (t, ·)

/-- From one session to the other the display is told to look at these places. -/
def Looks (s t : Session) (places : List Coordinate) : Prop :=
  ∃ told, t.outbox = s.outbox ++ told ∧ told.filterMap Effect.focus? = places

/-- From one session to the other nothing is looked at, and what is to be shown stays. -/
def Steady (s t : Session) : Prop := t.focusOn = s.focusOn ∧ Looks s t []

/-- From one session to the other the stop that was to be shown, if there was one, was looked for: it is
still to be shown if it is being looked up, and else it is shown if its place is known. -/
inductive Sought (s t : Session) : Option StopId → Prop
  | nothing (hf : t.focusOn = none) (hl : Looks s t []) : Sought s t none
  | awaited {id : StopId} (hp : t.route.isPending id = true) (hf : t.focusOn = some id)
      (hl : Looks s t []) : Sought s t (some id)
  | settled {id : StopId} (hp : t.route.isPending id = false) (hf : t.focusOn = none)
      (hl : Looks s t (t.route.placeOf id).toList) : Sought s t (some id)

private theorem Looks.refl (s : Session) : Looks s s [] := ⟨[], (List.append_nil _).symm, rfl⟩

private theorem Looks.trans {before later : List Coordinate} (h : Looks s t before) (h' : Looks t u later) :
    Looks s u (before ++ later) := by
  obtain ⟨es, ho, hes⟩ := h
  obtain ⟨fs, ho', hfs⟩ := h'
  refine ⟨es ++ fs, ?_, ?_⟩
  · rw [ho', ho, List.append_assoc]
  · rw [List.filterMap_append, hes, hfs]

private theorem Looks.sights {places : List Coordinate} (h : Looks s (s.after e) places) :
    s.sights e = places.map (s.after e, ·) := by
  obtain ⟨es, ho, hes⟩ := h
  rw [Session.sights, told, ho, List.drop_left, hes]

namespace Steady

private theorem refl (s : Session) : Steady s s := ⟨rfl, .refl s⟩

private theorem trans (h : Steady s t) (h' : Steady t u) : Steady s u :=
  ⟨h'.1.trans h.1, h.2.trans h'.2⟩

private theorem refreshMarkers (s : Session) : Steady s s.refreshMarkers := by
  refine ⟨rfl, .clearMarkers :: s.markers.map .placeMarker, rfl, ?_⟩
  rw [List.filterMap_eq_nil_iff]
  intro effect he
  rcases List.mem_cons.mp he with rfl | he
  · rfl
  · obtain ⟨m, _, rfl⟩ := List.mem_map.mp he
    rfl

private theorem perform (s : Session) (a : Action) : Steady s (s.perform a) := by
  cases a with
  | idle => exact refl s
  | push link => exact ⟨rfl, [.pushLink link], rfl, rfl⟩
  | dispatch d => exact ⟨rfl, .refl s⟩
  | reject error => exact ⟨rfl, [.showRejection error], rfl, rfl⟩

private theorem evaluate (s : Session) (always : Bool) : Steady s (s.evaluate always) :=
  perform { s with dispatcher := (s.dispatcher.evaluate s.route s.options s.clock always).2 } _

private theorem refreshed (s : Session) (direct always : Bool) :
    Steady s ((s.refreshMarkers.withDirect direct).evaluate always) := by
  apply trans (t := s.refreshMarkers.withDirect direct)
  · exact refreshMarkers s
  · exact evaluate _ always

private theorem edit (h : s.route.WellFormed) (x : Edit) : Steady s (s.edit x).2 := by
  cases edit_cases h x with
  | refused error he =>
    rw [he]
    exact refl s
  | skipped hs he =>
    rw [he]
    exact refl s
  | done hs route ls hc he =>
    rw [he]
    exact refreshed (s.revised x route ls) false true

private theorem selectAlternative (s : Session) (index : Nat) : Steady s (s.selectAlternative index).2 := by
  unfold Session.selectAlternative
  dsimp only
  split
  · exact refl s
  · apply trans (t := { s with selected := index }.emit [.highlight index])
    · exact ⟨rfl, [.highlight index], rfl, rfl⟩
    · exact refreshMarkers _

private theorem reportFailure (s : Session) (id : StopId) : Steady s (s.reportFailure id) := by
  unfold Session.reportFailure
  split
  · exact ⟨rfl, [.showLookupFailure _ _], rfl, rfl⟩
  · exact refl s

private theorem showDetails (s : Session) (response : Response) : Steady s (s.showDetails response) := by
  unfold Session.showDetails
  split
  · exact refl s
  · split
    · exact ⟨rfl, [.showDetails _], rfl, rfl⟩
    · exact refl s

private theorem display (s : Session) (response : Response) (zoom : Bool) :
    Steady s (s.display response zoom) := by
  have shown : Steady s ({ s with selected := 0 }.emit [.showPaths response.paths 0 zoom]) :=
    ⟨rfl, [.showPaths response.paths 0 zoom], rfl, rfl⟩
  unfold Session.display
  dsimp only
  refine trans ?_ (refreshMarkers _)
  split
  · exact shown.trans (showDetails _ response)
  · exact shown

private theorem completeRequest (s : Session) (number : Nat) (result : RoutingResult) :
    Steady s (s.completeRequest number result).2 := by
  by_cases ha : s.accepts number
  · rw [completeRequest_eq_present ha]
    cases result with
    | ok response => exact display (s.settle number) response (s.zoomOf number)
    | error failure => exact ⟨rfl, [.showFailure failure], rfl, rfl⟩
  · rw [completeRequest_refused ha]
    exact refl s

end Steady

namespace Sought

private theorem after (h : Looks s t []) (h' : Sought t u target) : Sought s u target := by
  cases h' with
  | nothing hf hl => exact .nothing hf (h.trans hl)
  | awaited hp hf hl => exact .awaited hp hf (h.trans hl)
  | settled hp hf hl => exact .settled hp hf (h.trans hl)

private theorem steady (h : Sought s t target) (h' : Steady t u) (hr : u.route = t.route) :
    Sought s u target := by
  cases h with
  | nothing hf hl => exact .nothing (h'.1.trans hf) (hl.trans h'.2)
  | awaited hp hf hl =>
    rw [← hr] at hp
    exact .awaited hp (h'.1.trans hf) (hl.trans h'.2)
  | settled hp hf hl =>
    have looks := hl.trans h'.2
    rw [List.append_nil, ← hr] at looks
    rw [← hr] at hp
    exact .settled hp (h'.1.trans hf) looks

private theorem tryFocus (h : s.route.WellFormed) : Sought s s.tryFocus s.focusOn := by
  unfold Session.tryFocus
  cases hf : s.focusOn with
  | none => exact .nothing hf (.refl s)
  | some id =>
    dsimp only
    cases found : s.route.find? id with
    | none =>
      have pending : s.route.isPending id = false := by rw [Route.isPending, found]; rfl
      have place : s.route.placeOf id = none := by rw [Route.placeOf, found]; rfl
      refine .settled pending rfl ?_
      rw [place]
      exact .refl s
    | some stop =>
      have pending : s.route.isPending id = (stop.status == .pending) := by rw [Route.isPending, found]; rfl
      have place : s.route.placeOf id = stop.coordinate := by rw [Route.placeOf, found]; rfl
      dsimp only
      split
      · rename_i c resolved known
        refine .settled ?_ rfl ⟨[.focus c], rfl, ?_⟩
        · exact pending.trans (by rw [resolved]; rfl)
        · exact congrArg Option.toList (place.trans known).symm
      · rename_i waiting
        exact .awaited (pending.trans (by rw [waiting]; rfl)) hf (.refl s)
      · rename_i notWaiting unresolved
        have unknown : stop.coordinate = none := by
          cases known : stop.coordinate with
          | none => rfl
          | some c =>
            have sound := h.sound stop (h.find?_some found).1
            have resolved := sound.coordinate_isSome_iff.mp (Option.isSome_of_eq_some known)
            exact (unresolved c resolved known).elim
        refine .settled ?_ rfl ?_
        · exact pending.trans (beq_eq_false_iff_ne.mpr notWaiting)
        · change Looks s s (s.route.placeOf id).toList
          rw [place, unknown]
          exact .refl s

/-- An answer that is applied has the stop looked for. -/
theorem completeLookup (w : s.route.WellFormed) {l : Lookup} (h : s.route.awaits l = true)
    (result : LookupResult) :
    ∃ status t, s.completeLookup l result = (.applied status, t) ∧ Sought s t s.focusOn := by
  obtain ⟨status, hc⟩ := Route.complete_of_awaits h result
  obtain ⟨u, hu⟩ : ∃ u, u = if status = .failed then (s.answered l result).reportFailure l.stop
    else s.answered l result := ⟨_, rfl⟩
  have reported : Steady s u := by
    rw [hu]
    split
    · exact Steady.reportFailure (s.answered l result) l.stop
    · exact .refl s
  refine ⟨status, (u.tryFocus.refreshMarkers).evaluate false, ?_, ?_⟩
  · rw [Session.completeLookup, hu]
    rw [hc]
    rfl
  · have wellFormed : u.route.WellFormed := by
      rw [hu]
      split
      · obtain ⟨es, _, shown⟩ := reportFailure_eq_shown (s.answered l result) l.stop
        exact shown ▸ w.answered h result
      · exact w.answered h result
    have sought : Sought s u.tryFocus s.focusOn := reported.1 ▸ after reported.2 (tryFocus wellFormed)
    exact (sought.steady (.refreshMarkers _) rfl).steady (.evaluate _ false) (evaluate_route _ _)

/-- Of a link with just one text the stop at the place of the text is looked for. -/
private theorem focusSingle (h : s.route.WellFormed) {points : List String} {j : Nat} {id : StopId}
    (hj : (points.findIdx? fun p => !Text.allBlank p) = some j) (hid : s.route.order[j]? = some id) :
    Sought s (s.focusSingle points) (some id) := by
  obtain ⟨stop, _, found, _⟩ := h.find?_of_mem_order (List.mem_of_getElem? hid)
  obtain ⟨route, ls, changes, resolved⟩ := resolve_eq_issue (s := { s with focusOn := some id }) h found
  unfold Session.focusSingle
  rw [hj]
  dsimp only [Option.getD_some]
  rw [hid]
  dsimp only
  rw [resolved]
  exact after (t := issue { s with focusOn := some id } route ls) (.refl s) (tryFocus (h.changes changes))

end Sought

/-- After a link with just one text the stop that has it was looked for. -/
private theorem sought_of_one (h : s.route.WellFormed) {link : Link} (one : link.nonBlankPoints = 1) :
    ∃ (j : Nat) (stop : Stop), link.points[j]? = some stop.input ∧ stop.isBlank = false ∧
      (s.navigate link).route.at? j = some stop ∧ Sought s (s.navigate link) (some stop.id) := by
  have synced := h.changes (Route.syncStops_changes h link.points)
  obtain ⟨j, hj, below, _⟩ := exists_single one
  obtain ⟨_, filled, _⟩ := List.findIdx?_eq_some_iff_getElem.mp hj
  have typed : link.points[j]? = some link.points[j] := List.getElem?_eq_getElem below
  obtain ⟨stop, placed, input⟩ := (mirrors_of_wellFormed h link).texts j _ typed
  have named : (s.mirrored link).route.order[j]? = some stop.id := by
    obtain ⟨ls, asks, _⟩ := navigate_asks h link
    exact asks.order ▸ asks.wellFormed.order_of_at? placed
  refine ⟨j, stop, by rw [input, typed], ?_, placed, ?_⟩
  · rw [Stop.isBlank, input]
    simpa using filled
  · have sought := Sought.focusSingle (s := s.mirrored link) synced hj named
    rw [navigate_one one]
    exact (Sought.after (t := s.mirrored link) (.refl s) sought).steady
      (Steady.refreshMarkers (observe _)) rfl

/-- After any other link there is nothing to look for. -/
private theorem sought_of_ne_one (h : s.route.WellFormed) {link : Link} (other : link.nonBlankPoints ≠ 1) :
    Sought s (s.navigate link) none := by
  rcases Nat.lt_or_ge 1 link.nonBlankPoints with many | few
  · obtain ⟨route, ls, _, arrived⟩ := navigate_many h many
    rw [arrived]
    exact Sought.steady (t := s.arrived link route ls) (.nothing rfl (.refl s)) (.refreshed _ true true)
      (evaluate_route _ _)
  · have none : link.nonBlankPoints = 0 := by omega
    rw [navigate_none none]
    exact Sought.steady (t := s.mirrored link) (.nothing rfl (.refl s))
      (Steady.refreshMarkers (s.mirrored link).observe) rfl

/-- How an event that is no link stands to the stop that is to be shown: it applies an answer, and the
stop is looked for, or it lets the matter rest. -/
inductive Regard (s : Session) (e : Event) : Prop
  | looked (ha : s.answers e = [s.after e]) (hs : Sought s (s.after e) s.focusOn)
  | rested (ha : s.answers e = []) (hf : (s.after e).focusOn = s.focusOn) (hs : s.sights e = [])

private theorem rested_of_steady (ha : s.answers e = []) (h : Steady s (s.after e)) : Regard s e :=
  .rested ha h.1 h.2.sights

private theorem regard_completeLookup (h : s.route.WellFormed) (l : Lookup) (result : LookupResult) :
    Regard s (.completeLookup l result) := by
  cases hw : s.route.awaits l with
  | false =>
    have stale := completeLookup_stale hw result
    refine rested_of_steady ?_ ?_
    · rw [answers, stale]
    · rw [after, stale]
      exact .refl s
  | true =>
    obtain ⟨status, t, applied, sought⟩ := Sought.completeLookup h hw result
    refine .looked ?_ ?_
    · rw [answers, after, applied]
    · rw [after, applied]
      exact sought

private theorem regard (h : s.route.WellFormed) (apart : ∀ link, ¬ s.asksFor link e) : Regard s e := by
  cases e with
  | edit x => exact rested_of_steady rfl (.edit h x)
  | selectAlternative index => exact rested_of_steady rfl (.selectAlternative s index)
  | navigate link => exact absurd rfl (apart link)
  | navigateText text =>
    rcases navigateText_cases s text with ⟨error, he⟩ | ⟨link, asked, _⟩
    · refine rested_of_steady rfl ?_
      rw [after, he]
      exact .refl s
    · exact absurd asked (apart link)
  | takeLookups => exact rested_of_steady rfl (.refl s)
  | takeRequests => exact rested_of_steady rfl (.refl s)
  | completeLookup l result => exact regard_completeLookup h l result
  | completeRequest number result => exact rested_of_steady rfl (.completeRequest s number result)
  | setClock now => exact rested_of_steady rfl (.refl s)
  | collect =>
    refine .rested rfl rfl ?_
    rw [sights, told, show (s.after .collect).outbox = [] from rfl, List.drop_nil]
    rfl
  | geocode queries =>
    refine rested_of_steady rfl ⟨rfl, queries.map .geocode, rfl, ?_⟩
    rw [List.filterMap_map]
    exact List.filterMap_eq_nil_iff.mpr fun _ _ => rfl
  | findRoute payload => exact rested_of_steady rfl ⟨rfl, [.findRoute payload], rfl, rfl⟩

section
variable {id : StopId} {looks : List Session}

private theorem firstSight_of_isPending (h : t.route.isPending id = true) :
    firstSight id (t :: looks) = firstSight id looks := by
  rw [firstSight, List.find?_cons, h]
  rfl

private theorem firstSight_of_not_isPending (h : t.route.isPending id = false) :
    firstSight id (t :: looks) = (t.route.placeOf id).map (t, ·) := by
  rw [firstSight, List.find?_cons, h]
  rfl

private theorem firstSight_eq_some {c : Coordinate} (h : firstSight id looks = some (t, c)) :
    t ∈ looks ∧ t.route.placeOf id = some c := by
  obtain ⟨u, found, placed⟩ := Option.bind_eq_some_iff.mp h
  obtain ⟨_, known, same⟩ := Option.map_eq_some_iff.mp placed
  cases same
  exact ⟨List.mem_of_find?_eq_some found, known⟩

end

/-- What is seen from an event on that has a stop looked for. -/
theorem record_of_sought {fs : List Event} {looks : List Session} (h : Sought s (s.after e) target)
    (later : record sights (s.after e) fs =
      ((s.after e).focusOn.bind fun id => firstSight id looks).toList) :
    record sights s (e :: fs) = (target.bind fun id => firstSight id (s.after e :: looks)).toList := by
  rw [record, later]
  cases h with
  | nothing hf hl =>
    rw [hl.sights, hf]
    rfl
  | awaited hp hf hl =>
    rw [hl.sights, hf, Option.bind_some, Option.bind_some, firstSight_of_isPending hp]
    rfl
  | settled hp hf hl =>
    rw [hl.sights, hf, Option.bind_some, firstSight_of_not_isPending hp]
    cases (s.after e).route.placeOf _ <;> rfl

/-- As long as no link comes, only the stop that is to be shown may be seen, where it is first looked for
without its being looked up. -/
private theorem record_sights (h : s.Settled) {fs : List Event}
    (hf : ∀ link, .navigated link ∉ record course s fs) :
    record sights s fs = (s.focusOn.bind fun id => firstSight id (record answers s fs)).toList := by
  induction fs generalizing s with
  | nil => cases s.focusOn <;> rfl
  | cons f fs ih =>
    have apart (link : Link) : ¬ s.asksFor link f := fun asked => hf link <| by
      rw [record, course_of_asksFor asked]
      exact List.mem_cons_self
    have later := ih (h.after f) fun link mem => hf link (List.mem_append_right _ mem)
    cases regard h.wellFormed apart with
    | looked ha hs =>
      rw [record_of_sought hs later, record, ha]
      rfl
    | rested ha hfo hs =>
      rw [record, hs, later, hfo, record, ha]
      rfl

/-- The sessions in which a stop is looked for are reachable. -/
private theorem Reachable.of_mem_answers (h : s.Reachable) {fs : List Event} (mem : t ∈ record answers s fs) :
    t.Reachable := by
  obtain ⟨past, f, _, ht⟩ := mem_record mem
  have after : t = (s.play past).after f := by
    cases f with
    | completeLookup l result =>
      rw [answers] at ht
      split at ht
      · rename_i answered
        rw [Session.after, answered]
        exact List.mem_singleton.mp ht
      · cases ht
    | _ => cases ht
  rw [after]
  exact (h.play past).after f

/-- What a link has the display look at until the next link comes, and what it asks for until the next
change of course. Unless it has just one text, nothing is looked at. If it has, then from the link on, and
at every answer that is applied, the stop at the place of the text is looked for, until it is not being
looked up: where that is so first the stop is shown, if it is in the route and resolved, at the place that
it has then; and else it is never shown. And a link with at most one text asks for no route, nor does
anything before the next change of course. -/
theorem link_shown_once (h : s.Reachable) {link : Link} (asked : s.asksFor link e) :
    (link.nonBlankPoints ≠ 1 → ∀ fs, (∀ other, .navigated other ∉ record course (s.after e) fs) →
      record sights s (e :: fs) = []) ∧
    (link.nonBlankPoints = 1 → ∃ (j : Nat) (stop : Stop),
      link.points[j]? = some stop.input ∧ stop.isBlank = false ∧ (s.after e).route.at? j = some stop ∧
      ∀ fs, (∀ other, .navigated other ∉ record course (s.after e) fs) →
        record sights s (e :: fs) =
          (firstSight stop.id (s.after e :: record answers (s.after e) fs)).toList ∧
        (record sights s (e :: fs)).length ≤ 1 ∧
        ∀ t c, (t, c) ∈ record sights s (e :: fs) → t.route.Places stop.id c) ∧
    (link.nonBlankPoints ≤ 1 → ∀ fs, record course (s.after e) fs = [] →
      record actions s (e :: fs) = []) := by
  have settled := h.settled
  have next := settled.after e
  refine ⟨fun other fs apart => ?_, fun one => ?_, fun few fs same => ?_⟩
  · have sought : Sought s (s.after e) none :=
      after_of_asksFor asked ▸ sought_of_ne_one settled.wellFormed other
    exact record_of_sought sought (record_sights next apart)
  · obtain ⟨j, stop, typed, filled, placed, sought⟩ := sought_of_one settled.wellFormed one
    rw [← after_of_asksFor asked] at placed sought
    refine ⟨j, stop, typed, filled, placed, fun fs apart => ?_⟩
    have seen : record sights s (e :: fs) =
        (firstSight stop.id (s.after e :: record answers (s.after e) fs)).toList :=
      record_of_sought sought (record_sights next apart)
    refine ⟨seen, ?_, fun t c mem => ?_⟩
    · rw [seen]
      exact Option.length_toList_le
    · rw [seen, Option.mem_toList] at mem
      obtain ⟨looked, known⟩ := firstSight_eq_some mem
      have reachable : t.Reachable := by
        rcases List.mem_cons.mp looked with rfl | later
        · exact h.after e
        · exact (h.after e).of_mem_answers later
      exact reachable.wellFormed.places known
  · have blank : (s.after e).route.HasBlank :=
      after_of_asksFor asked ▸ hasBlank_navigate settled.wellFormed few
    rw [record, actions_of_not_ready settled (blank.not_ready next.wellFormed)]
    exact Spent.record_actions next (.inr blank) same

/-- The one text of a link is found: its stop is shown, and no route is asked for. -/
theorem link_shown_once_found :
    let s := start {} false ⟨0, 0⟩
    let link : Link := { points := ["", "Bonn"], options := {}, zoom := true, token := none }
    let fs : List Event := [.completeLookup ⟨⟨2⟩, "Bonn", 0⟩ (.ok []),
      .completeLookup ⟨⟨2⟩, "Bonn", 1⟩ (.ok [⟨50.7, 7.1, "Bonn"⟩])]
    s.Reachable ∧ s.asksFor link (.navigate link) ∧ link.nonBlankPoints = 1 ∧
    record course (s.after (.navigate link)) fs = [] ∧
    (∃ t c id, record sights s (.navigate link :: fs) = [(t, c)] ∧ t.route.Places id c) ∧
    record actions s (.navigate link :: fs) = [] := by
  intro s link fs
  have reachable : s.Reachable := .start {} false ⟨0, 0⟩
  have asked : s.asksFor link (.navigate link) := rfl
  have one : link.nonBlankPoints = 1 := by decide +kernel
  have same : record course (s.after (.navigate link)) fs = [] := rfl
  obtain ⟨_, shown, silent⟩ := link_shown_once reachable asked
  obtain ⟨j, stop, _, _, _, seen⟩ := shown one
  obtain ⟨_, _, places⟩ := seen fs (by simp [same])
  have length : (record sights s (.navigate link :: fs)).length = 1 := by decide +kernel
  obtain ⟨⟨t, c⟩, single⟩ := List.length_eq_one_iff.mp length
  refine ⟨reachable, asked, one, same, ⟨t, c, stop.id, single, places t c ?_⟩,
    silent (Nat.le_of_eq one) fs same⟩
  rw [single]
  exact List.mem_singleton_self _

end Session
end Itinerary

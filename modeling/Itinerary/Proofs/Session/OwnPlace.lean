import Itinerary.Proofs.Payload
import Itinerary.Proofs.Route.Moving

/-! Moving a stop onto the place where it is. The route stays as it is whichever way the stop is moved, but
only one of the three ways ends there: the other two go on as after any edit, and the request is asked for
once more if it can be built. -/
namespace Itinerary

namespace Dispatcher
variable {d : Dispatcher} {route : Route} {options : Options}

/-- Without a request that can be built, an evaluation comes to nothing or to a refusal, and uses neither a
number nor a token up. -/
private theorem evaluate_of_not_buildable (paired : route.Paired) (h : ¬ Payload.Buildable route options)
    (now : Instant) (always : Bool) :
    ∃ action next, d.evaluate route options now always = (action, next) ∧
      (action = .idle ∨ ∃ error, action = .reject error) ∧
      next.lastNumber = d.lastNumber ∧ next.token = d.token := by
  cases d.evaluate_cases route options now always with
  | idle _ he => exact ⟨_, _, he, .inl rfl, rfl, rfl⟩
  | rejected error _ _ he => exact ⟨_, _, he, .inr ⟨error, rfl⟩, rfl, rfl⟩
  | pushed payload _ built | dispatched payload _ built =>
    exact absurd ((Payload.exists_build_iff paired).mp ⟨payload, built⟩) h

end Dispatcher

namespace Session
variable {s t : Session}

/-- From one session to a later one, the route with the revisions of its stops, both queues, the number of
the newest request and the token of the newest state of the history are as they were, and no state was
pushed. -/
structure Undisturbed (s t : Session) : Prop where
  route : t.route = s.route
  lookups : t.lookups = s.lookups
  requests : t.requests = s.requests
  lastNumber : t.dispatcher.lastNumber = s.dispatcher.lastNumber
  token : t.dispatcher.token = s.dispatcher.token
  unpushed : ∀ link, .push link ∉ decided s t

/-- How a request is asked for after an edit: by way of the history, if there is one. -/
def renewed (s : Session) (payload : Payload) : Action :=
  if s.dispatcher.keepsHistory then
    .push { s.link with token := some (s.dispatcher.token + 1) }
  else .dispatch ⟨s.dispatcher.lastNumber + 1, payload, s.dispatcher.zoom⟩

private theorem afterEdit_undisturbed (paired : s.route.Paired) (h : ¬ Payload.Buildable s.route s.options) :
    Undisturbed s s.afterEdit := by
  have quiet : Quiet s (s.refreshMarkers.withDirect false) := (Quiet.refl s).refreshMarkers
  obtain ⟨action, next, evaluated, kind, lastNumber, token⟩ :=
    Dispatcher.evaluate_of_not_buildable (d := { s.dispatcher with direct := false }) paired h s.clock true
  have after : s.afterEdit =
      { s.refreshMarkers.withDirect false with dispatcher := next }.perform action := by
    rw [afterEdit_eq]
    exact congrArg (fun p : Action × Dispatcher =>
      { s.refreshMarkers.withDirect false with dispatcher := p.2 }.perform p.1) evaluated
  have noted : Quiet s { s.refreshMarkers.withDirect false with dispatcher := next } := quiet
  have decides := decided_perform noted action
  rw [← after] at decides
  refine ⟨s.afterEdit_route, ?_, ?_, ?_, ?_, ?_⟩
  · rw [after, perform_lookups]
    rfl
  · rw [after, perform_requests]
    rcases kind with rfl | ⟨error, rfl⟩ <;> exact List.append_nil _
  · rw [after, perform_dispatcher, lastNumber]
  · rw [after, perform_dispatcher, token]
  · intro link
    rw [decides]
    rcases kind with rfl | ⟨error, rfl⟩ <;> simp [Action.asked]

private theorem decided_afterEdit (paired : s.route.Paired) {payload : Payload}
    (built : Payload.build s.route s.options s.clock = .ok payload) :
    decided s s.afterEdit = [s.renewed payload] := by
  have quiet : Quiet s (s.refreshMarkers.withDirect false) := (Quiet.refl s).refreshMarkers
  obtain ⟨enough, resolved, _⟩ := (Payload.exists_build_iff paired).mp ⟨payload, built⟩
  have ready : s.route.isReady = true :=
    paired.isReady_iff_coordinates.mpr ⟨enough, paired.exists_coordinates_iff.mpr resolved⟩
  have due : ({ s.dispatcher with direct := false } : Dispatcher).due s.route true = true := by
    rw [Dispatcher.due, ready]
    rfl
  rw [afterEdit_eq, decided_evaluate quiet]
  change (Dispatcher.evaluate { s.dispatcher with direct := false } s.route s.options s.clock true).1.asked = _
  cases Dispatcher.evaluate_cases { s.dispatcher with direct := false } s.route s.options s.clock true with
  | idle notDue =>
    rw [due] at notDue
    cases notDue
  | rejected _ _ refused => cases built.symm.trans refused
  | pushed _ _ _ way he =>
    rw [he, renewed, if_pos (by simpa using way)]
    rfl
  | dispatched _ _ again way he =>
    cases built.symm.trans again
    rw [he, renewed, if_neg (by simpa using way)]
    rfl

/-- What is asked for disturbs. -/
private theorem Undisturbed.not_renewed (h : Undisturbed s t) (payload : Payload) :
    s.renewed payload ∉ decided s t := by
  intro asked
  rw [renewed] at asked
  split at asked
  · exact h.unpushed _ asked
  · rw [decided, h.requests, List.drop_length, List.map_nil, List.append_nil] at asked
    obtain ⟨effect, _, said⟩ := List.mem_filterMap.mp asked
    cases effect <;> cases said

private theorem undisturbed_afterEdit_iff (paired : s.route.Paired) :
    Undisturbed s s.afterEdit ↔ ¬ Payload.Buildable s.route s.options := by
  refine ⟨fun undisturbed buildable => ?_, afterEdit_undisturbed paired⟩
  obtain ⟨payload, built⟩ : ∃ payload, Payload.build s.route s.options s.clock = .ok payload :=
    (Payload.exists_build_iff paired).mpr buildable
  apply undisturbed.not_renewed payload
  rw [decided_afterEdit paired built]
  exact List.mem_singleton_self _

/-- Moving the first stop to the start, or the last to the end, is an edit that changes nothing. -/
private theorem edit_own_place (w : s.route.WellFormed) {x : Edit}
    (hx : x = .moveToStart 0 ∨ x = .moveToEnd (s.route.length - 1)) : s.edit x = (.ok (), s.afterEdit) := by
  have two : 2 ≤ s.route.length := w.two_stops
  rcases hx with rfl | rfl
  · have first : 0 < s.route.length := by omega
    simp only [edit, moveToStart, Route.move_self first]
    rfl
  · have last : s.route.length - 1 < s.route.length := by omega
    simp only [edit, moveToEnd, Route.moveToEnd, Route.move_self last]
    rfl

/-- In every reachable session, moving a stop from its position to the same one leaves the session as it is,
and moving another stop to the start or to the end is the same as moving it to the first or the last
position. But to move the first stop to the start, or the last to the end, is an edit of a route that stays
as it is: it leaves the queues, the counters and the history alone if and only if no request can be built,
and else the request is asked for anew. -/
theorem own_place_undisturbed_iff (h : s.Reachable) :
    (∀ i, s.moveStop i i = (.ok (), s)) ∧
    (∀ i, i ≠ 0 → s.moveToStart i = s.moveStop i 0) ∧
    (∀ i, i ≠ s.route.length - 1 → s.moveToEnd i = s.moveStop i (s.route.length - 1)) ∧
    ∀ x, x = .moveToStart 0 ∨ x = .moveToEnd (s.route.length - 1) →
      s.edit x = (.ok (), s.afterEdit) ∧ (s.edit x).2.route = s.route ∧
      (Undisturbed s (s.edit x).2 ↔ ¬ Payload.Buildable s.route s.options) ∧
      ∀ payload, Payload.build s.route s.options s.clock = .ok payload →
        decided s (s.edit x).2 = [s.renewed payload] := by
  refine ⟨fun i => if_pos rfl, fun i other => ?_, fun i other => ?_, fun x hx => ?_⟩
  · rw [moveStop, if_neg other]
    rfl
  · rw [moveStop, if_neg other]
    rfl
  · have paired := h.settled.wellFormed.paired
    have edited := edit_own_place h.settled.wellFormed hx
    rw [edited]
    exact ⟨rfl, s.afterEdit_route, undisturbed_afterEdit_iff paired, fun payload => decided_afterEdit paired⟩

/-- Two places, between which the way has been asked for. -/
def twoPlaces : Session :=
  (start {} false ⟨0, 0⟩).play [.edit (.setInput 0 "50.7,7.1"), .edit (.setInput 1 "50.9,7")]

/-- Moving the origin to the start asks for the way a second time. -/
theorem twoPlaces_disturbed : twoPlaces.Reachable ∧ twoPlaces.requests.length = 1 ∧
    twoPlaces.moveStop 0 0 = (.ok (), twoPlaces) ∧
    (twoPlaces.edit (.moveToStart 0)).2.route = twoPlaces.route ∧
    (twoPlaces.edit (.moveToStart 0)).2.requests.length = 2 ∧
    ¬ Undisturbed twoPlaces (twoPlaces.edit (.moveToStart 0)).2 := by
  have reachable : twoPlaces.Reachable := (Reachable.start {} false ⟨0, 0⟩).play _
  have once : twoPlaces.requests.length = 1 := by decide +kernel
  have twice : (twoPlaces.edit (.moveToStart 0)).2.requests.length = 2 := by decide +kernel
  have built : (Payload.build twoPlaces.route twoPlaces.options twoPlaces.clock).isOk = true := by
    decide +kernel
  obtain ⟨kept, -, -, asks⟩ := own_place_undisturbed_iff reachable
  obtain ⟨-, route, undisturbed, -⟩ := asks (.moveToStart 0) (.inl rfl)
  refine ⟨reachable, once, kept 0, route, twice, fun h => undisturbed.mp h ?_⟩
  cases hp : Payload.build twoPlaces.route twoPlaces.options twoPlaces.clock with
  | ok payload =>
    exact (Payload.exists_build_iff reachable.settled.wellFormed.paired).mp ⟨payload, hp⟩
  | error _ =>
    rw [hp] at built
    cases built

end Session
end Itinerary

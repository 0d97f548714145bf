import Itinerary.Proofs.Session.Turn

/-! Requests are asked for exactly when they are due: the dispatcher's note of whether the route was
ready never lags behind the route. -/
namespace Itinerary

/-- A well-formed route is ready when all its stops are resolved. -/
theorem Route.WellFormed.isReady_iff {r : Route} (h : r.WellFormed) :
    r.isReady = true ↔ ∀ s ∈ r.stops, s.status = .resolved := by
  have enough : minStops ≤ r.length := h.two_stops
  simp only [isReady, isFullyResolved, enough, decide_true, Bool.true_and, List.all_eq_true,
    h.mem_toList, Stop.isResolved, beq_iff_eq]

/-- A route that waits for an answer is not ready. -/
theorem Route.WellFormed.not_ready_of_awaits {r : Route} (h : r.WellFormed) {l : Lookup}
    (ha : r.awaits l = true) : r.isReady = false := by
  obtain ⟨s, hs, _, hp⟩ := Route.awaits_iff.mp ha
  refine Bool.eq_false_iff.mpr fun hr => ?_
  have resolved := h.isReady_iff.mp hr s (h.find?_some hs).1
  rw [hp] at resolved
  cases resolved

namespace Session

/-- Between two calls the route is well formed and the dispatcher has noted whether it is ready. -/
structure Settled (s : Session) : Prop where
  wellFormed : s.route.WellFormed
  noted : s.dispatcher.wasReady = s.isReady

theorem start_settled (config : SessionConfig) (historyAvailable : Bool) (clock : Instant) :
    (start config historyAvailable clock).Settled where
  wellFormed := Route.blank_wellFormed
  noted := by
    have blank : Stop.create ⟨1⟩ "" ∈ Route.blank.stops := List.mem_cons_self
    refine (Bool.eq_false_iff.mpr fun hr => ?_).symm
    have resolved := (Route.blank_wellFormed.isReady_iff).mp hr _ blank
    revert resolved
    simp [Stop.create, Stop.applyInput, Coordinate.parse?, Text.splitFirst]

private theorem evaluate_settled {s : Session} (h : s.route.WellFormed) (always : Bool) :
    (s.evaluate always).Settled := by
  refine ⟨?_, ?_⟩
  · rw [evaluate_route]
    exact h
  · rw [isReady, evaluate_route, evaluate_dispatcher]
    exact Dispatcher.evaluate_wasReady _ _ _ _ _

/-- An event decides nothing, or it ends with an evaluation of the route: one that always asks, or one
of a route that was not ready before. -/
inductive Outcome (s : Session) (e : Event) : Prop
  | idle (ht : ¬ s.triggers e) (hs : (s.after e).Settled) (ha : s.actions e = [])
  | evaluated (ht : s.triggers e) (t : Session) (always : Bool) (hq : Quiet s t)
      (hw : t.route.WellFormed) (hd : always = true ∨ t.dispatcher.wasReady = false)
      (he : s.after e = t.evaluate always)

variable {s : Session}

private theorem triggers_of_asksFor {e : Event} {link : Link} (h : s.asksFor link e) :
    s.triggers e ↔ 2 ≤ link.nonBlankPoints := by
  cases e with
  | navigate other => exact h ▸ Iff.rfl
  | navigateText text =>
    constructor
    · rintro ⟨other, ho, h2⟩
      cases ho.symm.trans h
      exact h2
    · exact fun h2 => ⟨link, h, h2⟩
  | _ => exact h.elim

private theorem outcome (h : s.Settled) (e : Event) : Outcome s e := by
  have quiet : Quiet s s := .refl s
  cases turn h.wellFormed e with
  | kept ht hr _ _ _ hd _ _ ha =>
    refine .idle ht ⟨?_, ?_⟩ ha
    · rw [hr]
      exact h.wellFormed
    · rw [hd, isReady, hr]
      exact h.noted
  | stale l result he hw ha =>
    refine .idle ?_ ?_ ?_
    · rw [he]
      rintro ⟨status, applied⟩
      rw [completeLookup_stale hw] at applied
      cases applied
    · rw [ha]
      exact ⟨h.wellFormed, h.noted⟩
    · rw [actions, ha]
      exact decided_of_quiet quiet
  | shown link he hn route ls focusOn es hc hes ha =>
    have arrived : Quiet s (s.arrived link route ls) := quiet
    have observed : Quiet s ((s.arrived link route ls).shown focusOn es).observe :=
      arrived.shown focusOn hes
    refine .idle ?_ ?_ ?_
    · rw [triggers_of_asksFor he]
      omega
    · rw [ha]
      exact ⟨h.wellFormed.changes hc, rfl⟩
    · rw [actions, ha]
      exact decided_of_quiet observed.refreshMarkers
  | edited x he hx route ls hc ha =>
    have revised : Quiet s (s.revised x route ls) := quiet
    refine .evaluated (he ▸ hx) _ true ?_ ?_ (.inl rfl) ha
    · exact revised.refreshMarkers
    · exact h.wellFormed.changes hc
  | navigated link he hn route ls hc ha =>
    have arrived : Quiet s (s.arrived link route ls) := quiet
    refine .evaluated ((triggers_of_asksFor he).mpr hn) _ true ?_ ?_ (.inl rfl) ha
    · exact arrived.refreshMarkers
    · exact h.wellFormed.changes hc
  | answered l result he hw focusOn es hes ht ha =>
    have answered : Quiet s (s.answered l result) := quiet
    refine .evaluated ht _ false (answered.shown focusOn hes).refreshMarkers ?_ (.inr ?_) ha
    · exact h.wellFormed.answered hw result
    · change s.dispatcher.wasReady = false
      rw [h.noted]
      exact h.wellFormed.not_ready_of_awaits hw

theorem Settled.after (h : s.Settled) (e : Event) : (s.after e).Settled := by
  cases outcome h e with
  | idle _ hs _ => exact hs
  | evaluated _ t always _ hw _ he =>
    rw [he]
    exact evaluate_settled hw always

theorem Reachable.settled (h : s.Reachable) : s.Settled := by
  induction h with
  | start config historyAvailable clock => exact start_settled config historyAvailable clock
  | after _ e ih => exact ih.after e

/-- An event leads to one decision if it asks for a request and the route is ready after it, and to
none otherwise. -/
theorem Settled.actions_length (h : s.Settled) (e : Event) : (s.actions e).length ≤ 1 ∧
    ((s.actions e).length = 1 ↔ (s.after e).isReady = true ∧ s.triggers e) := by
  cases outcome h e with
  | idle ht _ ha =>
    rw [ha]
    exact ⟨Nat.zero_le _, fun hl => absurd hl (by simp), fun hr => absurd hr.2 ht⟩
  | evaluated ht t always hq _ hd he =>
    have due : t.dispatcher.due t.route always = (s.after e).isReady := by
      rw [he, isReady, evaluate_route]
      rcases hd with hd | hd <;> simp [Dispatcher.due, hd]
    have count : (s.actions e).length = if (s.after e).isReady then 1 else 0 := by
      rw [actions, ← due]
      conv_lhs => rw [he]
      exact decided_evaluate_length hq always
    rw [count]
    cases hr : (s.after e).isReady with
    | true => exact ⟨Nat.le_refl _, fun _ => ⟨rfl, ht⟩, fun _ => rfl⟩
    | false => exact ⟨Nat.zero_le _, fun hl => absurd hl (by simp), fun hr => absurd hr.1 (by simp)⟩

theorem Settled.actions_of_not_triggers (h : s.Settled) {e : Event} (ht : ¬ s.triggers e) :
    s.actions e = [] := by
  obtain ⟨atMost, one⟩ := h.actions_length e
  refine List.eq_nil_of_length_eq_zero ?_
  by_contra some
  exact ht (one.mp (by omega)).2

/-- A decision is about the session as the event leaves it, with its route ready. -/
theorem Settled.decided (h : s.Settled) {e : Event} {a : Action} (ha : a ∈ s.actions e) :
    (s.after e).isReady = true ∧
      a.Answers (s.after e).route (s.after e).options (s.after e).clock := by
  have one : (s.actions e).length = 1 :=
    Nat.le_antisymm (h.actions_length e).1 (List.length_pos_of_mem ha)
  have ready := ((h.actions_length e).2.mp one).1
  refine ⟨ready, ?_⟩
  cases outcome h e with
  | idle _ _ none =>
    rw [none] at ha
    cases ha
  | evaluated _ t always hq _ hd he =>
    have due : t.dispatcher.due t.route always = true := by
      rw [isReady, he, evaluate_route] at ready
      rcases hd with hd | hd <;> simp [Dispatcher.due, ready, hd]
    obtain ⟨options, clock, _⟩ := evaluate_rest t always
    rw [← evaluated_of_mem hq he ha, he, evaluate_route, options, clock]
    exact t.dispatcher.evaluate_answers t.route t.options t.clock due

/-- Every event leads to at most one decision, and to one exactly when it is of the kind that asks
for a request and the route is ready after it; a session that runs by itself does no more than the
events it is made of. -/
theorem one_request_per_trigger (h : s.Reachable) :
    (∀ e : Event, (s.actions e).length ≤ 1 ∧
      ((s.actions e).length = 1 ↔ (s.after e).isReady = true ∧ s.triggers e)) ∧
    (∀ geocoder : Geocoder, s.runLookups geocoder = s.play (s.lookupEvents geocoder)) ∧
    ∀ {σ : Type} (geocoder : Geocoder) (service : Payload → σ → RoutingResult × σ) (memory : σ),
      (runRequests service memory s).2 =
        s.play (.takeRequests :: requestEvents service memory s.requests) ∧
      ∃ es : List Event, (∀ e ∈ es, e.ofRun) ∧ (run geocoder service memory s).2 = s.play es := by
  refine ⟨fun e => h.settled.actions_length e, s.runLookups_eq_play, fun geocoder service memory => ?_⟩
  exact ⟨runRequests_eq_play service memory s, exists_play_run geocoder service memory s⟩

/-- Two texts are typed, and the first of them is found. -/
def halfFound : Session := (start {} false ⟨0, 0⟩).play
  [.edit (.setInput 0 "Bonn"), .edit (.setInput 1 "Köln"),
    .completeLookup ⟨⟨1⟩, "Bonn", 1⟩ (.ok [⟨50.7, 7.1, "Bonn"⟩])]

/-- Finding the second text completes the route, and a request goes out. -/
theorem one_request_when_found :
    let e : Event := .completeLookup ⟨⟨2⟩, "Köln", 1⟩ (.ok [⟨50.9, 7.0, "Köln"⟩])
    halfFound.Reachable ∧ (halfFound.after e).isReady = true ∧ (halfFound.actions e).length = 1 := by
  intro e
  have reachable : halfFound.Reachable := (Reachable.start {} false ⟨0, 0⟩).play _
  have ready : (halfFound.after e).isReady = true := by decide +kernel
  have applied : halfFound.triggers e := ⟨.resolved, rfl⟩
  exact ⟨reachable, ready, ((one_request_per_trigger reachable).1 e).2.mpr ⟨ready, applied⟩⟩

end Session
end Itinerary

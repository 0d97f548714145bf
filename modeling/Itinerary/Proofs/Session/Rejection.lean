import Itinerary.Proofs.Payload
import Itinerary.Proofs.Session.Readiness

/-! What a session shows a request to be refused for. A request is asked for only once the route is
ready, so that it is never for the stops, but for what the options ask of them. -/
namespace Itinerary.Session
variable {s : Session} {e : Event}

/-- The options refuse the request: they ask for transit through stops between, or have a custom model
that is none. -/
inductive RefusedFor (s : Session) : RequestError → Prop
  | via (hp : s.options.profile = .publicTransit) (many : minStops < s.route.length) :
      RefusedFor s (.transitViaStops s.route.length)
  | malformed {text : String} {fault : CustomModel.Fault} (hp : s.options.profile ≠ .publicTransit)
      (hm : s.options.customModel = some text) (refused : CustomModel.parse text = .error fault) :
      RefusedFor s (.malformedCustomModel fault)

private theorem refusedFor_of_ready (w : s.route.WellFormed) (ready : s.isReady = true) {error : RequestError}
    (refused : Payload.build s.route s.options s.clock = .error error) : s.RefusedFor error := by
  obtain ⟨enough, cs, hc⟩ := w.paired.isReady_iff_coordinates.mp ready
  have count : cs.length = s.route.length :=
    (Route.length_of_coordinates hc).trans w.whole.length_toList
  rw [Payload.build_of_coordinates enough hc, count] at refused
  have case := Payload.planned s.options s.clock s.route.length
  generalize Payload.plan? s.options s.clock s.route.length = result at refused case
  cases case with
  | transit | plain | custom => cases refused
  | via hp hn =>
    cases refused
    exact .via hp (Nat.lt_of_le_of_ne enough (Ne.symm hn))
  | malformed hp hm none =>
    cases refused
    exact .malformed hp hm none

/-- What is shown to be refused was decided so. -/
private theorem reject_of_told {error : RequestError} (ht : .showRejection error ∈ s.told e) :
    .reject error ∈ s.actions e :=
  List.mem_append_left _ (List.mem_filterMap.mpr ⟨_, ht, rfl⟩)

/-- For a route whose stops have coordinates just when they are resolved, a request can be built just if
it has two or more stops, all of them resolved, and the options allow for it; the request then says what
the route and the options say. A place of the order that has lost its stop counts among the places that a
route must have two of, and in a route without such there are as many stops as places. As a dispatcher
finds such a route ready just when it has enough places and all coordinates are there, no session ever
shows that a request was refused for too few stops or for one that is not resolved, but only for what its
options say. -/
theorem refused_only_for_options :
    (∀ (r : Route) (options : Options) (now : Instant),
      (r.Paired → ((∃ p, Payload.build r options now = .ok p) ↔ Payload.Buildable r options)) ∧
      (∀ p, Payload.build r options now = .ok p → p.Says r options now) ∧
      (r.Paired → (r.isReady = true ↔ minStops ≤ r.length ∧ ∃ cs, r.coordinates = .ok cs)) ∧
      (r.Whole → r.toList.length = r.length)) ∧
    ∀ s : Session, s.Reachable → s.route.Whole ∧
      ∀ e error, .showRejection error ∈ s.told e →
        (∀ count, error ≠ .tooFewStops count) ∧ (∀ id, error ≠ .unresolved id) ∧
          (s.after e).RefusedFor error := by
  constructor
  · intro r options now
    exact ⟨Payload.exists_build_iff, fun p => Payload.says_of_build, Route.Paired.isReady_iff_coordinates,
      Route.Whole.length_toList⟩
  · intro s h
    refine ⟨h.settled.wellFormed.whole, fun e error ht => ?_⟩
    obtain ⟨ready, answers⟩ := h.settled.decided (reject_of_told ht)
    cases answers with
    | reject refused =>
      have options := refusedFor_of_ready (h.settled.after e).wellFormed ready refused
      refine ⟨?_, ?_, options⟩
      · rintro count rfl
        cases options
      · rintro id rfl
        cases options

/-- Transit goes from an origin to a destination; through a stop between them it is refused, though all
three are there and resolved. -/
theorem transit_through_refused :
    let r := Route.ofInputs ["50.7,7.1", "50.8,7.05", "50.9,7"]
    let through : Options := { profile := .publicTransit }
    r.Paired ∧ r.isReady = true ∧ r.Whole ∧ r.toList.length = 3 ∧
      ¬ ∃ p, Payload.build r through ⟨0, 0⟩ = .ok p := by
  intro r through
  have paired : r.Paired := by
    unfold Route.Paired
    decide +kernel
  have ready : r.isReady = true := by decide +kernel
  have whole : r.Whole := by
    unfold Route.Whole
    decide +kernel
  obtain ⟨buildable, -, -, complete⟩ := refused_only_for_options.1 r through ⟨0, 0⟩
  refine ⟨paired, ready, whole, (complete whole).trans rfl, fun built => ?_⟩
  obtain ⟨-, -, ⟨-, two⟩ | ⟨street, -⟩⟩ := (buildable paired).mp built
  · exact absurd two (by decide +kernel)
  · exact street rfl

end Itinerary.Session

import Itinerary.Proofs.Session.Event
import Itinerary.Proofs.Session.Steps

/-! The calls of the services. A session calls none while it applies an answer. -/
namespace Itinerary

/-- The effect is a call of a service. -/
def Effect.isCall : Effect → Bool
  | .geocode _ | .findRoute _ => true
  | _ => false

namespace Session
variable {s t u : Session}

/-- The calls of the services at an event. -/
def calls (s : Session) (e : Event) : List Effect := (s.told e).filter Effect.isCall

/-- From one session to the other no service was called. -/
def Uncalled (s t : Session) : Prop :=
  ∃ told, t.outbox = s.outbox ++ told ∧ ∀ e ∈ told, e.isCall = false

namespace Uncalled

theorem refl (s : Session) : Uncalled s s := ⟨[], (List.append_nil _).symm, by simp⟩

private theorem trans (h : Uncalled s t) (h' : Uncalled t u) : Uncalled s u := by
  obtain ⟨es, ho, hes⟩ := h
  obtain ⟨fs, ho', hfs⟩ := h'
  refine ⟨es ++ fs, ?_, List.forall_mem_append.mpr ⟨hes, hfs⟩⟩
  rw [ho', ho, List.append_assoc]

private theorem emit (s : Session) {e : Effect} (h : e.isCall = false) : Uncalled s (s.emit [e]) :=
  ⟨[e], rfl, List.forall_mem_singleton.mpr h⟩

private theorem refreshMarkers (s : Session) : Uncalled s s.refreshMarkers := by
  refine ⟨.clearMarkers :: s.markers.map .placeMarker, rfl, List.forall_mem_cons.mpr ⟨rfl, ?_⟩⟩
  exact List.forall_mem_map.mpr fun _ _ => rfl

private theorem perform (s : Session) (a : Action) : Uncalled s (s.perform a) := by
  cases a with
  | idle => exact refl s
  | push link => exact emit s rfl
  | dispatch d => exact refl s
  | reject error => exact emit s rfl

private theorem tryFocus (s : Session) : Uncalled s s.tryFocus := by
  unfold Session.tryFocus
  split
  · exact refl s
  · split
    · exact refl s
    · split
      · exact emit s rfl
      · exact refl s
      · exact refl s

private theorem reportFailure (s : Session) (id : StopId) : Uncalled s (s.reportFailure id) := by
  unfold Session.reportFailure
  split
  · exact emit s rfl
  · exact refl s

private theorem completeLookup (s : Session) (l : Lookup) (result : LookupResult) :
    Uncalled s (s.completeLookup l result).2 := by
  unfold Session.completeLookup
  dsimp only
  split
  · exact refl s
  · refine trans ?_ (perform _ _)
    refine trans ?_ (refreshMarkers _)
    refine trans ?_ (tryFocus _)
    split
    · exact reportFailure _ l.stop
    · exact refl s

private theorem showDetails (s : Session) (response : Response) : Uncalled s (s.showDetails response) := by
  unfold Session.showDetails
  split
  · exact refl s
  · split
    · exact emit s rfl
    · exact refl s

private theorem display (s : Session) (response : Response) (zoom : Bool) :
    Uncalled s (s.display response zoom) := by
  have shown : Uncalled s ({ s with selected := 0 }.emit [.showPaths response.paths 0 zoom]) :=
    emit s rfl
  unfold Session.display
  dsimp only
  refine trans ?_ (refreshMarkers _)
  split
  · exact shown.trans (showDetails _ response)
  · exact shown

private theorem completeRequest (s : Session) (number : Nat) (result : RoutingResult) :
    Uncalled s (s.completeRequest number result).2 := by
  by_cases ha : s.accepts number
  · rw [completeRequest_eq_present ha]
    cases result with
    | ok response => exact display (s.settle number) response (s.zoomOf number)
    | error failure => exact emit s rfl
  · rw [completeRequest_refused ha]
    exact refl s

theorem calls {e : Event} (h : Uncalled s (s.after e)) : s.calls e = [] := by
  obtain ⟨es, ho, hes⟩ := h
  rw [Session.calls, told, ho, List.drop_left, List.filter_eq_nil_iff]
  intro effect he
  simp [hes effect he]

end Uncalled

theorem calls_completeLookup (s : Session) (l : Lookup) (result : LookupResult) :
    s.calls (.completeLookup l result) = [] :=
  Uncalled.calls (.completeLookup s l result)

theorem calls_completeRequest (s : Session) (number : Nat) (result : RoutingResult) :
    s.calls (.completeRequest number result) = [] :=
  Uncalled.calls (.completeRequest s number result)

theorem calls_geocode (s : Session) (queries : List String) :
    s.calls (.geocode queries) = queries.map .geocode := by
  have told : s.told (.geocode queries) = queries.map .geocode := List.drop_left
  rw [calls, told, List.filter_eq_self]
  exact List.forall_mem_map.mpr fun _ _ => rfl

theorem calls_findRoute (s : Session) (payload : Payload) :
    s.calls (.findRoute payload) = [.findRoute payload] := by
  have told : s.told (.findRoute payload) = [.findRoute payload] := List.drop_left
  rw [calls, told]
  rfl

end Session
end Itinerary

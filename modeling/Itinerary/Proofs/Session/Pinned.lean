import Itinerary.Proofs.Session.Attended

/-! Stops that are put to a place on the map. The place goes through the stop's text, so it must be in
range for the stop to be resolved there; the stop is looked up in neither case. -/
namespace Itinerary

private theorem Resolution.ofInput_literal (c : Coordinate) :
    ofInput c.literal = if c.inRange then .literal c else .unresolved := by
  rw [ofInput, Coordinate.parse?_literal_eq]
  cases c.inRange <;> rfl

namespace Stop
variable {s : Stop} {c : Coordinate}

/-- What is known of a stop whose text is a place on the map: that place if it is in range, and
nothing else, though the text is not blank. -/
private theorem placed_iff (input : s.input = c.literal) (shows : s.Shows (.ofInput c.literal)) :
    (s.status = .resolved ∧ s.coordinate = some c ↔ c.inRange = true) ∧
      (s.Attended ↔ c.inRange = true) := by
  have filled : s.isBlank = false := by
    rw [isBlank, input, Text.allBlank, List.all_eq_false]
    exact ⟨',', c.comma_mem_literal, by decide⟩
  rw [Resolution.ofInput_literal] at shows
  rw [Attended, filled, shows.status, shows.coordinate]
  cases c.inRange <;> simp [Resolution.status, Resolution.coordinate]

end Stop

namespace Session
variable {s : Session}

/-- The stop that an edit puts to a place on the map. -/
def pinned? (s : Session) : Edit → Option StopId
  | .setStart _ => s.route.order[0]?
  | .setEnd _ => s.route.order[s.route.length - 1]?
  | .setCoordinate index _ => s.route.order[index]?
  | .addIntermediate _ => some ⟨s.route.nextNumber⟩
  | .dragMarker id _ => some id
  | _ => none

/-- In the later session the stop has the place for its text, and nothing was put into the queue. -/
structure Pins (s t : Session) (id : StopId) (c : Coordinate) : Prop where
  lookups : t.lookups = s.lookups
  placed : ∃ stop, t.route.find? id = some stop ∧ stop.input = c.literal ∧
    stop.Shows (.ofInput c.literal)

private theorem afterEdit_lookups (s : Session) : s.afterEdit.lookups = s.lookups := by
  rw [afterEdit_eq, evaluate_lookups]
  rfl

private theorem exists_of_forgetId {e : Edited StopId} (done : (forgetId e).1 = .ok ()) :
    ∃ id, e.1 = .ok id := by
  rcases e with ⟨error | id, t⟩
  · cases done
  · exact ⟨id, rfl⟩

/-- Typing the place into a stop and going on from there. -/
theorem Pins.retyped {id : StopId} {stop : Stop} (hf : s.route.find? id = some stop) (c : Coordinate)
    {t : Session} (hr : t.route = s.route.modify id (·.setCoordinate c)) (hl : t.lookups = s.lookups) :
    Pins s t.afterEdit id c where
  lookups := (afterEdit_lookups t).trans hl
  placed := by
    refine ⟨stop.setCoordinate c, ?_, rfl, stop.setInput_shows _⟩
    rw [afterEdit_route, hr]
    exact Route.find?_modify_self hf _

private theorem Pins.setCoordinate (w : s.route.WellFormed) {index : Nat} {c : Coordinate}
    (done : (s.setCoordinate index c).1 = .ok ()) :
    ∃ id, s.route.order[index]? = some id ∧ Pins s (s.setCoordinate index c).2 id c := by
  rw [Session.setCoordinate] at done ⊢
  cases hs : s.route.at? index with
  | none =>
    rw [hs] at done
    cases done
  | some stop =>
    have here := w.order_of_at? hs
    refine ⟨stop.id, here, .retyped (w.at?_some hs).2 c ?_ rfl⟩
    exact w.modifyAt_eq hs _

private theorem Pins.dragMarker {id : StopId} {c : Coordinate} (done : (s.dragMarker id c).1 = .ok ()) :
    Pins s (s.dragMarker id c).2 id c := by
  rw [Session.dragMarker] at done ⊢
  split at done
  · rename_i known
    obtain ⟨stop, hf⟩ := Option.isSome_iff_exists.mp known
    rw [if_pos known]
    exact .retyped hf c rfl rfl
  · cases done

/-- A new stop has a number of its own, and its text from the start. -/
theorem Pins.addIntermediate (w : s.route.WellFormed) {c : Coordinate} {new : StopId}
    (done : (s.addIntermediate c).1 = .ok new) :
    new = ⟨s.route.nextNumber⟩ ∧ Pins s (s.addIntermediate c).2 new c := by
  rw [Session.addIntermediate, addClicked] at done ⊢
  generalize (s.indexOnPath c).getD (max (s.route.length - 1) 1) = index at done ⊢
  rcases Nat.lt_or_ge s.route.length index with hi | hi
  · rw [Route.insertInput_of_lt hi] at done
    cases done
  · rw [Route.insertInput_of_le w hi] at done ⊢
    cases done
    refine ⟨rfl, afterEdit_lookups _, .create ⟨s.route.nextNumber⟩ c.literal, ?_, rfl, Stop.create_shows _ _⟩
    dsimp only
    rw [afterEdit_route]
    exact w.find?_inserted hi c.literal

/-- Each edit that goes through pins its stop. -/
theorem Pins.edit (w : s.route.WellFormed) {x : Edit} {c : Coordinate} (hx : x.pins = [c])
    (done : (s.edit x).1 = .ok ()) : ∃ id, s.pinned? x = some id ∧ Pins s (s.edit x).2 id c := by
  cases x with
  | setStart d | setEnd d | setCoordinate _ d =>
    cases hx
    exact Pins.setCoordinate w done
  | dragMarker id d =>
    cases hx
    exact ⟨id, rfl, .dragMarker done⟩
  | addIntermediate d =>
    cases hx
    obtain ⟨new, hn⟩ := exists_of_forgetId done
    obtain ⟨rfl, pins⟩ := Pins.addIntermediate w hn
    rw [Session.edit, forgetId_snd]
    exact ⟨_, rfl, pins⟩
  | _ => cases hx

/-- In every reachable session, an edit that goes through and puts a stop to a place on the map leaves
that stop resolved with exactly this place if and only if the place is in range. If it is not, the stop is
left with a text that nothing is done about: it is not resolved, and in no case is a lookup issued. The
stop is the one at the edit's position, the one of the marker, or the new one. -/
theorem pinned_resolved_iff (h : s.Reachable) {x : Edit} {c : Coordinate} (hx : x.pins = [c])
    (done : (s.edit x).1 = .ok ()) :
    ∃ id stop, s.pinned? x = some id ∧ (s.edit x).2.route.find? id = some stop ∧
      (x = .addIntermediate c → (s.addIntermediate c).1 = .ok id) ∧
      (stop.status = .resolved ∧ stop.coordinate = some c ↔ c.inRange = true) ∧
      (stop.Attended ↔ c.inRange = true) ∧ (s.edit x).2.lookups = s.lookups := by
  obtain ⟨id, hid, lookups, stop, found, input, shows⟩ := Pins.edit h.settled.wellFormed hx done
  obtain ⟨resolved, attended⟩ := Stop.placed_iff input shows
  refine ⟨id, stop, hid, found, ?_, resolved, attended, lookups⟩
  rintro rfl
  obtain ⟨new, hn⟩ := exists_of_forgetId done
  obtain ⟨rfl, -⟩ := Pins.addIntermediate h.settled.wellFormed hn
  cases hid
  exact hn

/-- A place east of the date line, as a map that goes on there gives it, leaves the destination with a
text that nothing is done about. -/
theorem beyondDateLine_unattended :
    let s := start {} false ⟨0, 0⟩
    let x : Edit := .setEnd ⟨50.7, 187.1⟩
    s.Reachable ∧ x.pins = [⟨50.7, 187.1⟩] ∧ (s.edit x).1 = .ok () ∧
      ∃ stop, (s.edit x).2.route.find? ⟨2⟩ = some stop ∧ ¬ stop.Attended ∧
        (s.edit x).2.lookups = [] := by
  intro s x
  have reachable : s.Reachable := .start {} false ⟨0, 0⟩
  have done : (s.edit x).1 = .ok () := rfl
  have out : Coordinate.inRange ⟨50.7, 187.1⟩ = false := by decide +kernel
  obtain ⟨id, stop, hid, found, -, -, attended, lookups⟩ := pinned_resolved_iff reachable rfl done
  cases hid
  refine ⟨reachable, rfl, done, stop, found, ?_, lookups⟩
  rw [attended, out]
  exact Bool.false_ne_true

end Session
end Itinerary

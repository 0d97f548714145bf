import Itinerary.Proofs.Geodesy
import Itinerary.Proofs.Route.Sync
import Itinerary.Proofs.Session.Readiness

/-! Calls that fail: which ones they are, and that each of them leaves the session as it was. -/
namespace Itinerary

namespace Route
variable {r : Route}

/-- What is wrong with a position, if no stop is there. -/
def outside? (r : Route) (index : Nat) : Option RouteError :=
  if index < r.length then none else some (.indexOutOfBounds index r.length)

private theorem outside?_eq_none {index : Nat} : r.outside? index = none ↔ index < r.length := by
  rw [outside?]
  split <;> simp [*]

private theorem outside?_eq_some {index : Nat} {error : RouteError} :
    r.outside? index = some error ↔ r.length ≤ index ∧ error = .indexOutOfBounds index r.length := by
  rw [outside?]
  split
  · rename_i inside
    simp [Nat.not_le.mpr inside]
  · rename_i out
    simp [Nat.not_lt.mp out, eq_comm]

private theorem checkIndex_eq (r : Route) (index : Nat) :
    r.checkIndex index = (r.outside? index).elim (.ok ()) .error := by
  rw [checkIndex, outside?]
  split <;> rfl

/-- A move fails at the first of its positions where no stop is. -/
private theorem move_of_outside {origin target : Nat} {error : RouteError}
    (h : (r.outside? origin).or (r.outside? target) = some error) :
    r.move origin target = .error error := by
  rw [move, checkIndex_eq, checkIndex_eq]
  cases ho : r.outside? origin with
  | some other =>
    rw [ho] at h
    cases h
    rfl
  | none =>
    rw [ho, Option.none_or] at h
    rw [h]
    rfl

private theorem exists_move {origin target : Nat}
    (h : (r.outside? origin).or (r.outside? target) = none) : ∃ t, r.move origin target = .ok t := by
  obtain ⟨ho, ht⟩ := Option.or_eq_none_iff.mp h
  have found : origin < r.order.length := outside?_eq_none.mp ho
  exact ⟨_, move_of_inside (List.getElem?_eq_getElem found) (outside?_eq_none.mp ht)⟩

private theorem WellFormed.contains_iff (h : r.WellFormed) {id : StopId} :
    r.contains id = true ↔ id ∈ r.order := by
  constructor
  · intro known
    obtain ⟨s, hs⟩ := Option.isSome_iff_exists.mp known
    obtain ⟨mem, same⟩ := h.find?_some hs
    exact (h.mem_order id).mpr ⟨s, mem, same⟩
  · intro ordered
    obtain ⟨s, _, hs, _⟩ := h.find?_of_mem_order ordered
    exact Option.isSome_iff_exists.mpr ⟨s, hs⟩

/-- The origin and the destination are there. -/
theorem WellFormed.ends_inside (h : r.WellFormed) :
    r.outside? 0 = none ∧ r.outside? (r.length - 1) = none := by
  have two : 2 ≤ r.length := h.two_stops
  exact ⟨outside?_eq_none.mpr (by omega), outside?_eq_none.mpr (by omega)⟩

private theorem removeAt_of_outside {index : Nat} (h : r.length ≤ index) :
    r.removeAt index = (.error (.indexOutOfBounds index r.length), r) := by
  have absent : r.order[index]? = none := List.getElem?_eq_none h
  rw [removeAt, absent]

private theorem removeAt_of_few {index : Nat} (hi : index < r.length) (few : r.length ≤ minStops) :
    r.removeAt index = (.error .minimumStops, r) := by
  have here : r.order[index]? = some r.order[index] := List.getElem?_eq_getElem hi
  rw [removeAt, here]
  exact if_pos few

private theorem exists_removeAt (h : r.WellFormed) {index : Nat} (hi : index < r.length)
    (many : ¬ r.length ≤ minStops) : ∃ s t, r.removeAt index = (.ok s, t) := by
  have here : r.order[index]? = some r.order[index] := List.getElem?_eq_getElem hi
  obtain ⟨s, _, hf, _⟩ := h.find?_of_mem_order (List.getElem_mem hi)
  rw [removeAt, here]
  dsimp only
  rw [if_neg many, hf]
  exact ⟨s, _, rfl⟩

end Route

namespace Session
variable {s : Session}

/-- Why an edit is refused, if it is: no stop is where it says, the stop is not of the route, or too
few stops would be left. -/
def refusal (s : Session) : Edit → Option RouteError
  | .setInput index _ | .setCoordinate index _ => s.route.outside? index
  | .moveToStart index | .moveToEnd index => s.route.outside? index
  | .insertInput index _ =>
    if index ≤ s.route.length then none else some (.indexOutOfBounds index s.route.length)
  | .dragMarker id _ => if id ∈ s.route.order then none else some (.unknownStop id)
  | .moveStop origin target =>
    if origin = target then none else (s.route.outside? origin).or (s.route.outside? target)
  | .removeStop index =>
    (s.route.outside? index).or (if s.route.length ≤ minStops then some .minimumStops else none)
  | _ => none

/-- Why a path cannot be selected, if it cannot. -/
def pathRefusal (s : Session) (index : Nat) : Option RouteError :=
  let count := (s.response.map (·.paths.length)).getD 0
  if index < count then none else some (.indexOutOfBounds index count)

/-- Why a text cannot be navigated to, if it cannot. -/
def textRefusal (s : Session) (text : String) : Option LinkError :=
  match Link.ofText text s.defaultProfile with
  | .ok _ => none
  | .error error => some error

/-- The call fails if there is a reason, and with just this one; and when it fails, the session is as
it was. -/
def FailsUnchanged {ε α : Type} (s : Session) (call : Except ε α × Session) (why : Option ε) : Prop :=
  ∀ error, (call.1 = .error error ↔ why = some error) ∧ (call.1 = .error error → call.2 = s)

private theorem FailsUnchanged.of_cases {ε α : Type} {call : Except ε α × Session} {why : Option ε}
    (refused : ∀ error, why = some error → call = (.error error, s))
    (allowed : why = none → ∃ a, call.1 = .ok a) : s.FailsUnchanged call why := by
  intro error
  cases why with
  | none =>
    obtain ⟨a, ok⟩ := allowed rfl
    simp [ok]
  | some reason =>
    rw [refused reason rfl]
    simp

private theorem FailsUnchanged.of_forgetId {call : Edited StopId} {why : Option RouteError}
    (h : s.FailsUnchanged (forgetId call) why) : s.FailsUnchanged call why := by
  obtain ⟨outcome, t⟩ := call
  intro error
  cases outcome <;> simpa [forgetId] using h error

private theorem exists_resolve {id : StopId} {stop : Stop} (hs : s.route.find? id = some stop) :
    ∃ t, s.resolve id = (.ok (), t) := by
  rw [resolve, Route.resolve, hs]
  dsimp only
  cases stop.resolve <;> exact ⟨_, rfl⟩

/-- A stop with a new text is there to be resolved. -/
theorem resolve_of_retyped (h : s.route.WellFormed) {index : Nat} {stop : Stop}
    (hs : s.route.at? index = some stop) (text : String) : ∃ t,
      { s with route := s.route.modifyAt index (·.setInput text) }.resolve stop.id = (.ok (), t) := by
  apply exists_resolve (s := { s with route := s.route.modifyAt index (·.setInput text) })
  rw [h.modifyAt_eq hs]
  exact Route.find?_modify_self (h.at?_some hs).2 _

/-- So is a stop that was put in. -/
theorem resolve_of_inserted (h : s.route.WellFormed) {index : Nat} {text : String} {id : StopId}
    {route : Route} (hi : s.route.insertInput index text = .ok (id, route)) :
    ∃ t, { s with route }.resolve id = (.ok (), t) := by
  rcases Nat.lt_or_ge s.route.length index with out | fits
  · rw [Route.insertInput_of_lt out] at hi
    cases hi
  · rw [Route.insertInput_of_le h fits] at hi
    cases hi
    exact exists_resolve (h.find?_inserted fits text)

/-- A path that shows all the stops has the click between the first of them and the last. -/
private theorem indexOnPath_bounds {click : Coordinate} {index : Nat} (h : s.indexOnPath click = some index) :
    1 ≤ index ∧ index < s.route.length := by
  simp only [indexOnPath, Option.bind_eq_bind, Option.bind_eq_some_iff] at h
  obtain ⟨path, _, geometry, _, stops, _, h⟩ := h
  split at h
  · simp at h
  · rename_i same
    rw [← not_not.mp same]
    exact Geodesy.insertIndex_bounds (by simpa using h)

/-- So has any click, whatever is displayed. -/
theorem clicked_bounds (h : s.route.WellFormed) (click : Coordinate) :
    1 ≤ (s.indexOnPath click).getD (max (s.route.length - 1) 1) ∧
      (s.indexOnPath click).getD (max (s.route.length - 1) 1) < s.route.length := by
  have two : 2 ≤ s.route.length := h.two_stops
  cases on : s.indexOnPath click with
  | some index => exact indexOnPath_bounds on
  | none =>
    rw [Option.getD_none]
    omega

/-- Edits that are refused fail before anything is changed. -/
private theorem edit_of_refusal (h : s.route.WellFormed) {e : Edit} {error : RouteError}
    (hr : s.refusal e = some error) : s.edit e = (.error error, s) := by
  have placed {index : Nat} (c : Coordinate) (out : s.route.outside? index = some error) :
      s.setCoordinate index c = (.error error, s) := by
    obtain ⟨beyond, rfl⟩ := Route.outside?_eq_some.mp out
    rw [setCoordinate, Route.at?_of_outside beyond]
  cases e with
  | setInput index text =>
    obtain ⟨beyond, rfl⟩ := Route.outside?_eq_some.mp hr
    rw [edit, setInput, Route.at?_of_outside beyond]
  | insertInput index text =>
    rw [refusal] at hr
    split at hr
    · cases hr
    · rename_i beyond
      cases hr
      rw [edit, insertInput, Route.insertInput_of_lt (Nat.not_le.mp beyond)]
      rfl
  | setCoordinate index c => exact placed c hr
  | dragMarker id c =>
    rw [refusal] at hr
    split at hr
    · cases hr
    · rename_i unknown
      cases hr
      have absent : s.route.contains id = false :=
        Bool.eq_false_iff.mpr fun known => unknown (h.contains_iff.mp known)
      simp only [edit, dragMarker, absent, Bool.false_eq_true, if_false]
  | moveToStart index =>
    have refused : s.route.move index 0 = .error error := by
      apply Route.move_of_outside
      rw [h.ends_inside.1, Option.or_none]
      exact hr
    rw [edit, moveToStart, refused]
    rfl
  | moveToEnd index =>
    have refused : s.route.moveToEnd index = .error error := by
      apply Route.move_of_outside
      rw [h.ends_inside.2, Option.or_none]
      exact hr
    rw [edit, moveToEnd, refused]
    rfl
  | moveStop origin target =>
    rw [refusal] at hr
    split at hr
    · cases hr
    · rename_i apart
      rw [edit, moveStop, if_neg apart, Route.move_of_outside hr]
      rfl
  | removeStop index =>
    rw [refusal] at hr
    cases ho : s.route.outside? index with
    | some other =>
      rw [ho] at hr
      cases hr
      obtain ⟨beyond, rfl⟩ := Route.outside?_eq_some.mp ho
      rw [edit, removeStop, Route.removeAt_of_outside beyond]
    | none =>
      rw [ho, Option.none_or] at hr
      split at hr
      · rename_i few
        cases hr
        rw [edit, removeStop, Route.removeAt_of_few (Route.outside?_eq_none.mp ho) few]
      · cases hr
  | _ => cases hr

/-- All other edits go through. -/
private theorem edit_of_allowed (h : s.route.WellFormed) {e : Edit} (hr : s.refusal e = none) :
    (s.edit e).1 = .ok () := by
  have placed {index : Nat} (c : Coordinate) (inside : s.route.outside? index = none) :
      (s.setCoordinate index c).1 = .ok () := by
    obtain ⟨stop, hs⟩ := h.exists_at? (Route.outside?_eq_none.mp inside)
    rw [setCoordinate, hs]
  cases e with
  | setInput index text =>
    obtain ⟨stop, hs⟩ := h.exists_at? (Route.outside?_eq_none.mp hr)
    rw [edit, setInput, hs]
    dsimp only
    split
    · rfl
    · obtain ⟨after, resolved⟩ := resolve_of_retyped h hs text
      rw [resolved]
  | insertInput index text =>
    rw [refusal] at hr
    split at hr
    · rename_i fits
      have put := Route.insertInput_of_le h fits text
      obtain ⟨after, resolved⟩ := resolve_of_inserted h put
      rw [edit, insertInput, put]
      dsimp only
      rw [resolved]
      rfl
    · cases hr
  | setStart c => exact placed c h.ends_inside.1
  | setEnd c => exact placed c h.ends_inside.2
  | setCoordinate index c => exact placed c hr
  | addIntermediate c =>
    simp only [edit, addIntermediate, addClicked, Route.insertInput_of_le h (Nat.le_of_lt (clicked_bounds h c).2)]
    rfl
  | dragMarker id c =>
    rw [refusal] at hr
    split at hr
    · rename_i known
      simp only [edit, dragMarker, h.contains_iff.mpr known, if_true]
    · cases hr
  | moveToStart index =>
    obtain ⟨route, moved⟩ : ∃ t, s.route.move index 0 = .ok t := by
      apply Route.exists_move
      rw [h.ends_inside.1, Option.or_none]
      exact hr
    rw [edit, moveToStart, moved]
    rfl
  | moveToEnd index =>
    obtain ⟨route, moved⟩ : ∃ t, s.route.moveToEnd index = .ok t := by
      apply Route.exists_move
      rw [h.ends_inside.2, Option.or_none]
      exact hr
    rw [edit, moveToEnd, moved]
    rfl
  | moveStop origin target =>
    rw [refusal] at hr
    split at hr
    · rename_i same
      rw [edit, moveStop, if_pos same]
    · rename_i apart
      obtain ⟨route, moved⟩ := Route.exists_move hr
      rw [edit, moveStop, if_neg apart, moved]
      rfl
  | removeStop index =>
    rw [refusal] at hr
    obtain ⟨inside, enough⟩ := Option.or_eq_none_iff.mp hr
    split at enough
    · cases enough
    · rename_i many
      obtain ⟨stop, route, removed⟩ := Route.exists_removeAt h (Route.outside?_eq_none.mp inside) many
      rw [edit, removeStop, removed]
  | setProfile profile => rfl
  | setUnits units => rfl
  | setOptions options => rfl
  | submit => rfl

private theorem edit_failsUnchanged (h : s.route.WellFormed) (e : Edit) :
    s.FailsUnchanged (s.edit e) (s.refusal e) :=
  .of_cases (fun _ => edit_of_refusal h) fun allowed => ⟨(), edit_of_allowed h allowed⟩

private theorem selectAlternative_failsUnchanged (s : Session) (index : Nat) :
    s.FailsUnchanged (s.selectAlternative index) (s.pathRefusal index) := by
  rw [selectAlternative, pathRefusal]
  apply FailsUnchanged.of_cases
  · intro error refused
    split at refused
    · cases refused
    · rename_i beyond
      cases refused
      exact if_pos (Nat.not_lt.mp beyond)
  · intro allowed
    split at allowed
    · rename_i inside
      rw [if_neg (Nat.not_le.mpr inside)]
      exact ⟨(), rfl⟩
    · cases allowed

private theorem navigateText_failsUnchanged (s : Session) (text : String) :
    s.FailsUnchanged (s.navigateText text) (s.textRefusal text) := by
  rw [navigateText, textRefusal]
  apply FailsUnchanged.of_cases
  · intro error refused
    cases hl : Link.ofText text s.defaultProfile with
    | ok link => simp [hl] at refused
    | error other =>
      rw [hl] at refused
      cases refused
      rfl
  · intro allowed
    cases hl : Link.ofText text s.defaultProfile with
    | ok link => exact ⟨(), rfl⟩
    | error other => simp [hl] at allowed

/-- Whatever fails in a session fails for a reason that is known beforehand, and leaves all of the
session as it was. In particular a stop that has just got its text is always there to be resolved. -/
theorem failures_change_nothing (h : s.Reachable) :
    (∀ e, s.FailsUnchanged (s.edit e) (s.refusal e)) ∧
    (∀ index text, s.FailsUnchanged (s.insertInput index text) (s.refusal (.insertInput index text))) ∧
    (∀ c, s.FailsUnchanged (s.addIntermediate c) none) ∧
    (∀ index, s.FailsUnchanged (s.selectAlternative index) (s.pathRefusal index)) ∧
    (∀ text, s.FailsUnchanged (s.navigateText text) (s.textRefusal text)) ∧
    (∀ index stop text, s.route.at? index = some stop →
      ({ s with route := s.route.modifyAt index (·.setInput text) }.resolve stop.id).1 = .ok ()) ∧
    ∀ index text id route, s.route.insertInput index text = .ok (id, route) →
      ({ s with route }.resolve id).1 = .ok () := by
  have whole : s.route.WellFormed := h.settled.wellFormed
  refine ⟨edit_failsUnchanged whole, ?_, ?_, s.selectAlternative_failsUnchanged,
    s.navigateText_failsUnchanged, ?_, ?_⟩
  · intro index text
    apply FailsUnchanged.of_forgetId
    exact edit_failsUnchanged whole (.insertInput index text)
  · intro c
    apply FailsUnchanged.of_forgetId
    exact edit_failsUnchanged whole (.addIntermediate c)
  · intro index stop text hs
    obtain ⟨after, resolved⟩ := resolve_of_retyped whole hs text
    rw [resolved]
  · intro index text id route put
    obtain ⟨after, resolved⟩ := resolve_of_inserted whole put
    rw [resolved]

/-- While one of two texts is found and the other is being looked up, the stop of neither can be taken
out, no path can be selected, and nothing happens. -/
theorem halfFound_fails_unchanged :
    halfFound.Reachable ∧ halfFound.edit (.removeStop 1) = (.error .minimumStops, halfFound) ∧
      halfFound.selectAlternative 0 = (.error (.indexOutOfBounds 0 0), halfFound) := by
  have reachable : halfFound.Reachable := (Reachable.start {} false ⟨0, 0⟩).play _
  obtain ⟨edits, _, _, paths, _⟩ := failures_change_nothing reachable
  have few : halfFound.refusal (.removeStop 1) = some .minimumStops := by decide +kernel
  have none : halfFound.pathRefusal 0 = some (.indexOutOfBounds 0 0) := by decide +kernel
  have removal := edits (.removeStop 1) .minimumStops
  have selection := paths 0 (.indexOutOfBounds 0 0)
  refine ⟨reachable, Prod.ext ?_ ?_, Prod.ext ?_ ?_⟩
  · exact removal.1.mpr few
  · exact removal.2 (removal.1.mpr few)
  · exact selection.1.mpr none
  · exact selection.2 (selection.1.mpr none)

end Session
end Itinerary

import Itinerary.Proofs.Session.Fault
import Itinerary.Proofs.Session.Refusal

/-! A stop clicked on the map is put between the origin and the destination, whatever path is
displayed, unless reading that path stops the program. -/
namespace Itinerary

namespace Route
variable {r : Route}

/-- The stop is new and stands at this position, between the origin and the destination; all the stops
that there were are as they were, and in the order that they had. -/
structure Between (r : Route) (index : Nat) (stop : Stop) (t : Route) : Prop where
  pos : 1 ≤ index
  le : index ≤ r.length - 1
  fresh : stop.id ∉ r.order
  placed : t.at? index = some stop
  order : t.order.eraseIdx index = r.order
  origin : t.order.head? = r.order.head?
  destination : t.order.getLast? = r.order.getLast?
  kept : ∀ id ∈ r.order, t.find? id = r.find? id

private theorem WellFormed.between_inserted (h : r.WellFormed) {index : Nat} (pos : 1 ≤ index)
    (inside : index < r.length) (text : String) :
    r.Between index (.create ⟨r.nextNumber⟩ text) (r.inserted index text) where
  pos := pos
  le := Nat.le_sub_one_of_lt inside
  fresh mem := by
    obtain ⟨stop, hs, same⟩ := (h.mem_order _).mp mem
    exact h.ne_next hs same
  placed := by
    have here : (r.inserted index text).order[index]? = some ⟨r.nextNumber⟩ :=
      List.getElem?_insertIdx_self.trans (if_pos (Nat.le_of_lt inside))
    rw [at?, here]
    exact h.find?_inserted (Nat.le_of_lt inside) text
  order := List.eraseIdx_insertIdx_self _
  origin := by
    rw [List.head?_eq_getElem?, List.head?_eq_getElem?]
    exact List.getElem?_insertIdx_of_lt pos
  destination := by
    have longer : (r.inserted index text).order.length = r.order.length + 1 :=
      List.length_insertIdx_of_le_length (Nat.le_of_lt inside) _
    rw [List.getLast?_eq_getElem?, List.getLast?_eq_getElem?, longer, Nat.add_sub_cancel]
    exact List.getElem?_insertIdx_of_gt inside
  kept id mem := by
    obtain ⟨stop, _, found, _⟩ := h.find?_of_mem_order mem
    obtain ⟨e, he, rfl⟩ := Option.map_eq_some_iff.mp found
    rw [found, find?, Route.inserted, List.find?_append, he]
    rfl

end Route

namespace Session
variable {s : Session}

/-- A click puts its stop where the displayed path has it, or else right before the destination. -/
theorem addIntermediate_between (h : s.route.WellFormed) (click : Coordinate) :
    ∃ stop t, s.addIntermediate click = (.ok stop.id, t) ∧
      s.route.Between ((s.indexOnPath click).getD (max (s.route.length - 1) 1)) stop t.route := by
  obtain ⟨pos, inside⟩ := clicked_bounds h click
  rw [addIntermediate, addClicked]
  generalize (s.indexOnPath click).getD (max (s.route.length - 1) 1) = index at pos inside ⊢
  rw [Route.insertInput_of_le h (Nat.le_of_lt inside)]
  refine ⟨.create ⟨s.route.nextNumber⟩ click.literal, _, rfl, ?_⟩
  rw [afterEdit_route]
  exact h.between_inserted pos inside click.literal

/-- Whatever response is displayed, a stop clicked on the map is put between the origin and the
destination, where the displayed path has it or right before the destination, and changes nothing else of
the route; unless reading the displayed path has a sum that no word holds, which stops the program. Nothing
else does: on the way neither a suffix of the path nor the bounds of the position are ever a fault. -/
theorem clicked_between (h : s.Reachable) (response : Option Response) (selected : Nat)
    (click : Coordinate) :
    let t := { s with response, selected }
    (t.ClickOverflows → t.addIntermediateOrFault click = .error .overflow) ∧
    (¬ t.ClickOverflows → ∃ stop u, t.addIntermediateOrFault click = .ok (.ok stop.id, u) ∧
      s.route.Between ((t.indexOnPath click).getD (max (s.route.length - 1) 1)) stop u.route) ∧
    ∀ geometry stops, Geodesy.insertIndexOrFault geometry stops click =
      .ok (Geodesy.insertIndex geometry stops click) := by
  intro t
  refine ⟨fun overflows => addIntermediateOrFault_of_overflows overflows click, fun clear => ?_,
    fun geometry stops => Geodesy.insertIndexOrFault_eq_ok geometry stops click⟩
  have wellFormed : t.route.WellFormed := h.settled.wellFormed
  obtain ⟨stop, u, put, between⟩ := addIntermediate_between wellFormed click
  refine ⟨stop, u, ?_, between⟩
  rw [addIntermediateOrFault_of_clear clear, put]

/-- Between two stops there is only one place, also on a path that shows where they are. A path that goes
three times as far south as one number can say stops the program. -/
theorem clicked_between_two :
    let line : Geometry := .lineString [[7.1, 50.7], [7.0, 50.9]]
    let path (points : Geometry) : Path := {
      distance := 25000, time := 1200000, ascend := 0, descend := 0
      points := some points, snapped := some line, bounds := none, order := none
      details := [], legs := [], fare := none, description := none }
    let shown (points : Geometry) := { halfFound with response := some ⟨[path points]⟩, selected := 0 }
    halfFound.Reachable ∧
    (∃ stop t, (shown line).addIntermediateOrFault ⟨50.8, 7.05⟩ = .ok (.ok stop.id, t) ∧
      t.route.at? 1 = some stop ∧ t.route.order.eraseIdx 1 = [⟨1⟩, ⟨2⟩]) ∧
    (shown (.text "~~~~~~~~~~~~F?~~~~~~~~~~~~F?~~~~~~~~~~~~F?")).addIntermediateOrFault ⟨50.8, 7.05⟩ =
      .error .overflow := by
  intro line path shown
  have reachable : halfFound.Reachable := (Reachable.start {} false ⟨0, 0⟩).play _
  have order : halfFound.route.order = [⟨1⟩, ⟨2⟩] := by decide +kernel
  have clear : ¬ (shown line).ClickOverflows := by
    rintro ⟨_, ⟨⟩, ⟨_, ⟨⟩, none⟩ | ⟨_, _, ⟨⟩, none⟩⟩ <;> exact none
  obtain ⟨-, goes, -⟩ := clicked_between reachable (some ⟨[path line]⟩) 0 ⟨50.8, 7.05⟩
  obtain ⟨stops, -, -⟩ := clicked_between reachable (some ⟨[path (.text _)]⟩) 0 ⟨50.8, 7.05⟩
  obtain ⟨stop, t, put, between⟩ := goes clear
  generalize ((shown line).indexOnPath ⟨50.8, 7.05⟩).getD (max (halfFound.route.length - 1) 1) = index
    at between
  obtain rfl : index = 1 := by
    have le := between.le
    rw [Route.length, order] at le
    exact Nat.le_antisymm le between.pos
  refine ⟨reachable, ⟨stop, t, put, between.placed, between.order.trans order⟩,
    stops ⟨_, rfl, .inl ⟨_, rfl, ?_, ?_⟩⟩⟩
  · decide
  · decide +kernel

end Session
end Itinerary

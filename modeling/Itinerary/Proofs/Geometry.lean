import Itinerary.Geometry
import Itinerary.Proofs.Json.Record

/-! A geometry is read back from its text, whichever form it has. -/
namespace Itinerary

namespace Json
variable {room : Nat}

private theorem isSome_usableItems? {js : List Json} (h : ∀ j ∈ js, (j.usable? room).isSome = true) :
    (usableItems? room js).isSome = true := by
  induction js with
  | nil => rfl
  | cons j js ih =>
    obtain ⟨k, hk⟩ := Option.isSome_iff_exists.mp (h j List.mem_cons_self)
    obtain ⟨ks, hks⟩ := Option.isSome_iff_exists.mp (ih fun i hi => h i (List.mem_cons_of_mem j hi))
    rw [usableItems?, hk, hks]
    rfl

private theorem isSome_usable?_arr {js : List Json} (h : ∀ j ∈ js, (j.usable? room).isSome = true) :
    ((arr js).usable? (room + 1)).isSome = true := by
  rw [usable?, Option.isSome_map]
  exact isSome_usableItems? h

private theorem isSome_usable?_member (k : String) {j : Json} (h : (j.usable? room).isSome = true) :
    ((obj [(k, j)]).usable? (room + 1)).isSome = true := by
  obtain ⟨i, hi⟩ := Option.isSome_iff_exists.mp h
  rw [usable?, usableMembers?, usableMembers?, hi]
  rfl

/-- What is read as a number is usable. -/
private theorem isSome_usable?_number {j : Json} {x : Float} (h : j.float? = some x) (room : Nat) :
    (j.usable? room).isSome = true := by
  cases j with
  | int n => rfl
  | float y => rfl
  | _ => cases h

end Json

namespace Geometry

/-- The numbers of a line string. -/
def floats : Geometry → List Float
  | .text _ => []
  | .lineString tuples => tuples.flatten

theorem ofJson?_reread {g : Geometry} (numbers : ∀ x ∈ g.floats, Json.Survives x) (room : Nat) :
    ofJson? (room + 3) g.toJson.reread = some g := by
  cases g with
  | text s => rfl
  | lineString tuples =>
    have survive : ∀ t ∈ tuples, ∀ x ∈ t, Json.Survives x := fun t ht x hx =>
      numbers x (List.mem_flatten_of_mem ht hx)
    have lists : (Json.arr (tuples.map fun t => .arr (t.map Json.ofFloat))).reread.list?
        (Json.list? Json.float?) = some tuples :=
      Json.list?_reread fun t ht => Json.list?_reread fun x hx => (survive t ht x hx).float?_reread
    have record : (toJson (.lineString tuples)).reread.object? ["coordinates"] =
        some (.written [.arr (tuples.map fun t => .arr (t.map Json.ofFloat))]) :=
      Json.object?_reread rfl (by decide) rfl
    have usable : ((toJson (.lineString tuples)).reread.usable? (room + 3)).isSome = true := by
      rw [toJson, Json.reread_obj]
      refine Json.isSome_usable?_member "coordinates" ?_
      rw [Json.reread_arr, List.map_map]
      refine Json.isSome_usable?_arr fun j hj => ?_
      obtain ⟨t, ht, rfl⟩ := List.mem_map.mp hj
      rw [Function.comp_apply, Json.reread_arr, List.map_map]
      refine Json.isSome_usable?_arr fun j hj => ?_
      obtain ⟨x, hx, rfl⟩ := List.mem_map.mp hj
      exact Json.isSome_usable?_number (survive t ht x hx).float?_reread room
    rw [ofJson?, Option.isNone_eq_false_iff.mpr usable, if_neg Bool.false_ne_true]
    · change ((toJson (.lineString tuples)).reread.object? ["coordinates"]).bind _ = _
      rw [record, Option.bind_some, Json.Record.required_written rfl, lists]
      rfl
    · intro s text
      cases text

end Geometry
end Itinerary

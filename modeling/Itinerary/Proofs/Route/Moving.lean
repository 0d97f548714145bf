import Itinerary.Proofs.Session.Confluence

/-! Moving a stop to another position. The stop keeps its identity and all that is known of it, so that
an answer on its way finds it wherever it stands. -/
namespace Itinerary.Route
open Session (Delivery deliver)
variable {r : Route} {origin target : Nat} {id : StopId}

theorem move_self (inside : origin < r.length) : r.move origin origin = .ok r := by
  obtain ⟨id, hid⟩ : ∃ id, r.order[origin]? = some id := ⟨_, List.getElem?_eq_getElem inside⟩
  obtain ⟨_, here⟩ := List.getElem?_eq_some_iff.mp hid
  rw [move_of_inside hid inside, ← here, List.insertIdx_eraseIdx_getElem]

/-- Putting the stop back restores the order. -/
private theorem move_back (hid : r.order[origin]? = some id) (inside : target < r.length) :
    { r with order := (r.order.eraseIdx origin).insertIdx target id }.move target origin = .ok r := by
  obtain ⟨found, here⟩ := List.getElem?_eq_some_iff.mp hid
  have shorter := le_length_eraseIdx found inside
  have there : ((r.order.eraseIdx origin).insertIdx target id)[target]? = some id := by
    rw [List.getElem?_insertIdx_self, if_pos shorter]
  have back : origin < ((r.order.eraseIdx origin).insertIdx target id).length := by
    rw [List.length_insertIdx_of_le_length shorter, List.length_eraseIdx_of_lt found]
    exact Nat.lt_add_one_of_le (Nat.le_sub_one_of_lt found)
  rw [move_of_inside there back]
  dsimp only
  rw [List.eraseIdx_insertIdx_self, ← here, List.insertIdx_eraseIdx_getElem found]

private theorem complete_order (r : Route) (l : Lookup) (result : LookupResult) :
    (r.complete l result).2.order = r.order := by
  rw [complete]
  split
  · rfl
  · split <;> rfl

/-- Whether an answer counts and what it changes does not depend on the order. -/
theorem complete_reordered (r : Route) (order : List StopId) (l : Lookup) (result : LookupResult) :
    { r with order }.complete l result =
      ((r.complete l result).1, { (r.complete l result).2 with order }) := by
  have same : { r with order }.find? l.stop = r.find? l.stop := rfl
  rw [complete, complete, same]
  cases r.find? l.stop with
  | none => rfl
  | some s =>
    dsimp only
    split <;> rfl

private theorem deliver_reordered (r : Route) (order : List StopId) (stats : LookupStats) (d : Delivery) :
    deliver ({ r with order }, stats) d =
      ({ (deliver (r, stats) d).1 with order }, (deliver (r, stats) d).2) := by
  simp only [deliver, complete_reordered]

/-- Moving the stop at one position of a route to another, be they the same, puts it there, leaves the
other positions in their order and all stops as they are, and is undone by moving it back. An answer to any
lookup, be it waited for or not, comes to the same before the move and after it: the same route, the same
outcome and the same counts. -/
theorem move_keeps_identity (found : origin < r.length) (inside : target < r.length) :
    ∃ t, r.move origin target = .ok t ∧
      t.order[target]? = r.order[origin]? ∧
      t.order.eraseIdx target = r.order.eraseIdx origin ∧
      t.entries = r.entries ∧ t.nextNumber = r.nextNumber ∧
      t.move target origin = .ok r ∧
      ∀ (d : Delivery) (stats : LookupStats), ∃ u,
        (deliver (r, stats) d).1.move origin target = .ok u ∧
        deliver (t, stats) d = (u, (deliver (r, stats) d).2) ∧
        (t.complete d.1 d.2).1 = (r.complete d.1 d.2).1 := by
  obtain ⟨id, hid⟩ : ∃ id, r.order[origin]? = some id := ⟨_, List.getElem?_eq_getElem found⟩
  refine ⟨_, move_of_inside hid inside, ?_, List.eraseIdx_insertIdx_self id, rfl, rfl,
    move_back hid inside, fun d stats => ⟨_, ?_, deliver_reordered r _ stats d, ?_⟩⟩
  · rw [hid, List.getElem?_insertIdx_self, if_pos (le_length_eraseIdx found inside)]
  · have order : (deliver (r, stats) d).1.order = r.order := complete_order r d.1 d.2
    have still : target < (deliver (r, stats) d).1.length := by rwa [length, order]
    rw [move_of_inside (by rw [order]; exact hid) still, order]
  · rw [complete_reordered]

/-- Three stops that are being looked up. -/
def underWay : Route := (ofInputs ["Bonn", "Ulm", "Trier"]).resolveAll.2

/-- The stop that is moved to the end gets the answer that was asked for while it was the first. -/
theorem answer_finds_moved : 0 < underWay.length ∧ 2 < underWay.length ∧
    ∃ t, underWay.move 0 2 = .ok t ∧ t.order[2]? = some ⟨1⟩ ∧ t.order.eraseIdx 2 = [⟨2⟩, ⟨3⟩] ∧
      t.move 2 0 = .ok underWay ∧
      (t.complete ⟨⟨1⟩, "Bonn", 0⟩ (.ok [⟨50.7, 7.1, "Bonn"⟩])).1 = .applied .resolved := by
  have first : 0 < underWay.length := by decide +kernel
  have last : 2 < underWay.length := by decide +kernel
  have order : underWay.order = [⟨1⟩, ⟨2⟩, ⟨3⟩] := by decide +kernel
  have answered : (underWay.complete ⟨⟨1⟩, "Bonn", 0⟩ (.ok [⟨50.7, 7.1, "Bonn"⟩])).1 = .applied .resolved := by
    decide +kernel
  obtain ⟨t, moved, there, others, -, -, back, answers⟩ := move_keeps_identity first last
  rw [order] at there others
  obtain ⟨-, -, -, same⟩ := answers (⟨⟨1⟩, "Bonn", 0⟩, .ok [⟨50.7, 7.1, "Bonn"⟩]) {}
  exact ⟨first, last, t, moved, there, others, back, same.trans answered⟩

end Itinerary.Route

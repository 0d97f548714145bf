import Itinerary.Response.Path

/-! The joins between the legs of a path, and what is read off them: the changes between vehicles, and
whether every connection can be made. -/
namespace Itinerary

namespace Instant

/-- This instant comes before the other; a leap second comes at the end of the second it is counted to. -/
def Before (a b : Instant) : Prop := a.seconds < b.seconds ∨ a.seconds = b.seconds ∧ a.nanos < b.nanos

private theorem le_eq_false_iff {a b : Instant} : a.le b = false ↔ b.Before a := by
  simp only [le, Before, Bool.or_eq_false_iff, Bool.and_eq_false_iff, decide_eq_false_iff_not, beq_eq_false_iff_ne]
  omega

end Instant

namespace Waypoint

/-- The join of one leg with the next, of which the one or the other may be missing. -/
def between (previous next : Option Leg) : Waypoint where
  arrival := previous.bind Leg.arrival
  departure := next.bind Leg.departure
  previous := previous.map Leg.mode
  next := next.map Leg.mode

/-- A connection cannot be made if the next leg is known to leave before the previous one arrives. -/
private theorem isPossible_between_eq_false {previous next : Option Leg} :
    (between previous next).isPossible = false ↔
      ∃ a b arrival departure, previous = some a ∧ next = some b ∧
        a.arrival = some arrival ∧ b.departure = some departure ∧ departure.Before arrival := by
  constructor
  · intro missed
    rw [isPossible] at missed
    split at missed
    · rename_i arrival departure arrives departs
      obtain ⟨a, ha, arrives⟩ := Option.bind_eq_some_iff.mp arrives
      obtain ⟨b, hb, departs⟩ := Option.bind_eq_some_iff.mp departs
      exact ⟨a, b, arrival, departure, ha, hb, arrives, departs, Instant.le_eq_false_iff.mp missed⟩
    · cases missed
  · rintro ⟨a, b, arrival, departure, rfl, rfl, arrives, departs, early⟩
    simp only [isPossible, between, Option.bind_some, arrives, departs]
    exact Instant.le_eq_false_iff.mpr early

/-- Once a vehicle has been boarded, each boarding is one more change. -/
private theorem foldl_transfers_some (ws : List Waypoint) (made : Nat) :
    ws.foldl transfers (some made) = some (made + ws.countP boards) := by
  induction ws generalizing made with
  | nil => rfl
  | cons w ws ih =>
    rw [List.foldl_cons, transfers, List.countP_cons]
    cases w.boards with
    | true =>
      refine (ih (made + 1)).trans (congrArg some ?_)
      rw [if_pos rfl]
      omega
    | false => exact ih made

/-- The first boarding is no change. -/
private theorem foldl_transfers_none (ws : List Waypoint) : ws.foldl transfers none =
    if ws.countP boards = 0 then none else some (ws.countP boards - 1) := by
  induction ws with
  | nil => rfl
  | cons w ws ih =>
    rw [List.foldl_cons, transfers, List.countP_cons]
    cases w.boards with
    | true => simp [foldl_transfers_some]
    | false => exact ih

end Waypoint

namespace Leg

private theorem length_waypointsAfter (previous : Leg) (legs : List Leg) :
    (waypointsAfter previous legs).length = legs.length + 1 := by
  induction legs generalizing previous with
  | nil => rfl
  | cons l ls ih => rw [waypointsAfter, List.length_cons, ih, List.length_cons]

private theorem getElem?_waypointsAfter (previous : Leg) (legs : List Leg) {k : Nat} (hk : k ≤ legs.length) :
    (waypointsAfter previous legs)[k]? = some (.between (previous :: legs)[k]? legs[k]?) := by
  induction legs generalizing previous k with
  | nil =>
    obtain rfl := Nat.le_zero.mp hk
    rfl
  | cons l ls ih =>
    cases k with
    | zero => rfl
    | succ k => exact ih l (Nat.le_of_succ_le_succ hk)

private theorem countP_waypointsAfter (previous : Leg) (legs : List Leg) :
    (waypointsAfter previous legs).countP Waypoint.boards = legs.countP (·.mode == .transit) := by
  induction legs generalizing previous with
  | nil => rfl
  | cons l ls ih =>
    rw [waypointsAfter, List.countP_cons, ih, List.countP_cons]
    rfl

private theorem countP_waypoints (legs : List Leg) :
    (waypoints legs).countP Waypoint.boards = legs.countP (·.mode == .transit) := by
  cases legs with
  | nil => rfl
  | cons l ls =>
    rw [waypoints, List.countP_cons, countP_waypointsAfter, List.countP_cons]
    rfl

private theorem waypoints_eq_nil {legs : List Leg} : waypoints legs = [] ↔ legs = [] := by
  cases legs <;> simp [waypoints]

private theorem length_waypoints {legs : List Leg} (filled : legs ≠ []) :
    (waypoints legs).length = legs.length + 1 := by
  obtain ⟨l, ls, rfl⟩ := List.exists_cons_of_ne_nil filled
  rw [waypoints, List.length_cons, length_waypointsAfter, List.length_cons]

private theorem getElem?_waypoints_zero {legs : List Leg} (filled : legs ≠ []) :
    (waypoints legs)[0]? = some (.between none legs[0]?) := by
  obtain ⟨l, ls, rfl⟩ := List.exists_cons_of_ne_nil filled
  rfl

private theorem getElem?_waypoints_succ {legs : List Leg} {k : Nat} (hk : k < legs.length) :
    (waypoints legs)[k + 1]? = some (.between legs[k]? legs[k + 1]?) := by
  cases legs with
  | nil => exact absurd hk (Nat.not_lt_zero k)
  | cons l ls => exact getElem?_waypointsAfter l ls (Nat.le_of_lt_succ hk)

/-- A connection that is missed lies between two legs. -/
private theorem exists_missed_iff (legs : List Leg) : (∃ w ∈ waypoints legs, w.isPossible = false) ↔
    ∃ k : Nat, ∃ a b arrival departure, legs[k]? = some a ∧ legs[k + 1]? = some b ∧
      a.arrival = some arrival ∧ b.departure = some departure ∧ departure.Before arrival := by
  constructor
  · rintro ⟨w, hw, missed⟩
    have filled : legs ≠ [] := by
      rintro rfl
      exact List.not_mem_nil hw
    obtain ⟨k, hk⟩ := List.mem_iff_getElem?.mp hw
    cases k with
    | zero =>
      rw [getElem?_waypoints_zero filled] at hk
      cases hk
      obtain ⟨a, _, _, _, none, _⟩ := Waypoint.isPossible_between_eq_false.mp missed
      cases none
    | succ k =>
      have inside : k < legs.length := by
        have bound := (List.getElem?_eq_some_iff.mp hk).1
        rw [length_waypoints filled] at bound
        exact Nat.lt_of_succ_lt_succ bound
      rw [getElem?_waypoints_succ inside] at hk
      cases hk
      exact ⟨k, Waypoint.isPossible_between_eq_false.mp missed⟩
  · rintro ⟨k, a, b, arrival, departure, ha, hb, early⟩
    have inside : k < legs.length := (List.getElem?_eq_some_iff.mp ha).1
    refine ⟨.between legs[k]? legs[k + 1]?, List.mem_of_getElem? (getElem?_waypoints_succ inside), ?_⟩
    exact Waypoint.isPossible_between_eq_false.mpr ⟨a, b, arrival, departure, ha, hb, early⟩

end Leg

private theorem transferCount_eq (legs : List Leg) : transferCount legs =
    if legs.countP (·.mode == .transit) = 0 then none else some (legs.countP (·.mode == .transit) - 1) := by
  rw [transferCount, Waypoint.foldl_transfers_none, Leg.countP_waypoints]

namespace Path
variable (p : Path)

private theorem transferCount_eq_none_iff : p.transferCount = none ↔ ∀ l ∈ p.legs, l.mode ≠ .transit := by
  rw [transferCount, transferCount_eq, ite_eq_left_iff]
  simp [List.countP_eq_zero]

private theorem transferCount_eq_some_iff (n : Nat) :
    p.transferCount = some n ↔ p.legs.countP (·.mode == .transit) = n + 1 := by
  rw [transferCount, transferCount_eq]
  split
  · rename_i none
    simp [none]
  · simp only [Option.some.injEq]
    omega

private theorem isPossible_eq_false_iff :
    p.isPossible = false ↔ ∃ w ∈ p.waypoints, w.isPossible = false := by
  rw [isPossible, List.all_eq_false]
  simp

/-- The joins of a path are there just if it has legs, and then one more than legs: the first opens the
path, and each other one joins a leg to the next, or to nothing at the end. So the changes are counted if
there is a transit leg, one less than there are such legs, and legs of other modes put in anywhere do not
count; and the path is impossible just if one leg is known to arrive after the next one leaves. -/
theorem joins_read_off :
    (p.waypoints = [] ↔ p.legs = []) ∧
    (p.legs ≠ [] → p.waypoints.length = p.legs.length + 1 ∧
      p.waypoints[0]? = some (.between none p.legs[0]?) ∧
      ∀ k < p.legs.length, p.waypoints[k + 1]? = some (.between p.legs[k]? p.legs[k + 1]?)) ∧
    (p.transferCount = none ↔ ∀ l ∈ p.legs, l.mode ≠ .transit) ∧
    (∀ n, p.transferCount = some n ↔ p.legs.countP (·.mode == .transit) = n + 1) ∧
    (∀ before new after, p.legs = before ++ after → (∀ l ∈ new, l.mode ≠ .transit) →
      { p with legs := before ++ new ++ after }.transferCount = p.transferCount) ∧
    (p.isPossible = false ↔
      ∃ k : Nat, ∃ a b arrival departure, p.legs[k]? = some a ∧ p.legs[k + 1]? = some b ∧
        a.arrival = some arrival ∧ b.departure = some departure ∧ departure.Before arrival) := by
  refine ⟨Leg.waypoints_eq_nil, fun filled => ?_, p.transferCount_eq_none_iff, p.transferCount_eq_some_iff,
    fun before new after same others => ?_, p.isPossible_eq_false_iff.trans (Leg.exists_missed_iff p.legs)⟩
  · exact ⟨Leg.length_waypoints filled, Leg.getElem?_waypoints_zero filled,
      fun k => Leg.getElem?_waypoints_succ⟩
  · have uncounted : new.countP (·.mode == .transit) = 0 := by simpa [List.countP_eq_zero] using others
    rw [transferCount, transferCount, transferCount_eq, transferCount_eq, same]
    simp only [List.countP_append, uncounted, Nat.add_zero]

/-- On foot to a tram, and on by another one that leaves before the first arrives. -/
def missedTram : Path where
  distance := 9000
  time := 3000000
  ascend := 0
  descend := 0
  points := none
  snapped := none
  bounds := none
  order := none
  details := []
  legs := [⟨.walk, some ⟨0, 0⟩, some ⟨300, 0⟩, none, none⟩,
    ⟨.transit, some ⟨360, 0⟩, some ⟨1800, 0⟩, none, none⟩,
    ⟨.transit, some ⟨1500, 0⟩, some ⟨3000, 0⟩, none, none⟩]
  fare := none
  description := none

theorem missedTram_read_off : missedTram.waypoints.length = 4 ∧
    missedTram.waypoints[2]? = some ⟨some ⟨1800, 0⟩, some ⟨1500, 0⟩, some .transit, some .transit⟩ ∧
    missedTram.transferCount = some 1 ∧ missedTram.isPossible = false := by
  obtain ⟨-, joins, -, counts, -, missed⟩ := missedTram.joins_read_off
  obtain ⟨length, -, join⟩ := joins (List.cons_ne_nil _ _)
  refine ⟨length, join 1 (by decide), (counts 1).mpr rfl, missed.mpr ?_⟩
  exact ⟨1, _, _, _, _, rfl, rfl, rfl, rfl, .inl (by decide)⟩

end Path
end Itinerary

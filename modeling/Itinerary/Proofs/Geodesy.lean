import Itinerary.Geodesy

/-! Where a click is put along a path: between the ends, and found without a fault. -/
namespace Itinerary.Geodesy
variable {geometry stops points : List Coordinate} {click target : Coordinate}

private theorem firstLeast_lt {ranks : List Nat} {index least : Nat}
    (h : firstLeast ranks = some (index, least)) : index < ranks.length := by
  induction ranks generalizing index least with
  | nil => cases h
  | cons rank ranks ih =>
    rw [firstLeast] at h
    split at h
    · rename_i earlier before found
      split at h
      · cases h
        exact Nat.succ_lt_succ (ih found)
      · cases h
        exact Nat.succ_pos _
    · cases h
      exact Nat.succ_pos _

private theorem nearestIndex_lt {index : Nat} (h : nearestIndex points target = some index) :
    index < points.length := by
  obtain ⟨⟨_, least⟩, found, rfl⟩ := Option.map_eq_some_iff.mp h
  have inside := firstLeast_lt found
  rwa [List.length_map] at inside

/-- A click is put between the first stop and the last. -/
theorem insertIndex_bounds {index : Nat} (h : insertIndex geometry stops click = some index) :
    1 ≤ index ∧ index < stops.length := by
  rw [insertIndex] at h
  split at h
  · cases h
  · simp only [Option.bind_eq_bind, Option.bind_eq_some_iff, Option.pure_def, Option.some.injEq] at h
    obtain ⟨vertex, _, reached, _, rfl⟩ := h
    omega

/-- What could go wrong on the way: a suffix that begins beyond the end, or bounds the wrong way
round. -/
inductive Fault where
  | suffix (start length : Nat)
  | bounds (low high : Nat)

/-- The vertices from `start` on, if it is not beyond the end. -/
def suffix (points : List Coordinate) (start : Nat) : Except Fault (List Coordinate) :=
  if start ≤ points.length then .ok (points.drop start) else .error (.suffix start points.length)

/-- The number, or the bound that it is beyond, if the bounds are the right way round. -/
def clamp (low high n : Nat) : Except Fault Nat :=
  if low ≤ high then .ok (max low (min n high)) else .error (.bounds low high)

/-- How many stops the path has reached at vertex `limit`, where each suffix may be a fault. -/
def reachedByOrFault (limit : Nat) (geometry : List Coordinate) :
    Nat → List Coordinate → Except Fault (Option Nat)
  | _, [] => .ok (some 0)
  | start, stop :: stops =>
    match suffix geometry start with
    | .error fault => .error fault
    | .ok rest =>
      match nearestIndex rest stop with
      | none => .ok none
      | some offset =>
        if limit < start + offset then .ok (some 0)
        else (reachedByOrFault limit geometry (start + offset) stops).map (Option.map (· + 1))

/-- Route position of a stop added by a click, where each suffix and the bounds may be a fault. -/
def insertIndexOrFault (geometry stops : List Coordinate) (click : Coordinate) :
    Except Fault (Option Nat) :=
  if stops.length < 2 then .ok none
  else
    match nearestIndex geometry click with
    | none => .ok none
    | some vertex =>
      match reachedByOrFault vertex geometry 0 stops with
      | .error fault => .error fault
      | .ok none => .ok none
      | .ok (some reached) => (clamp 1 (stops.length - 1) reached).map some

/-- Each stop is matched to a vertex of the path, so that what is left begins within the path. -/
private theorem reachedByOrFault_eq_ok (limit : Nat) {start : Nat} (h : start ≤ geometry.length) :
    reachedByOrFault limit geometry start stops = .ok (reachedBy limit geometry start stops) := by
  induction stops generalizing start with
  | nil => rfl
  | cons stop stops ih =>
    have cut : suffix geometry start = .ok (geometry.drop start) := if_pos h
    rw [reachedByOrFault, reachedBy, cut]
    dsimp only
    cases found : nearestIndex (geometry.drop start) stop with
    | none => rfl
    | some offset =>
      have inside := nearestIndex_lt found
      rw [List.length_drop] at inside
      dsimp only [Option.bind_eq_bind, Option.bind_some]
      split
      · rfl
      · rw [ih (by omega)]
        cases reachedBy limit geometry (start + offset) stops <;> rfl

/-- Nothing goes wrong, whatever the path, the stops and the click. -/
theorem insertIndexOrFault_eq_ok (geometry stops : List Coordinate) (click : Coordinate) :
    insertIndexOrFault geometry stops click = .ok (insertIndex geometry stops click) := by
  rw [insertIndexOrFault, insertIndex]
  split
  · rfl
  · rename_i many
    cases nearestIndex geometry click with
    | none => rfl
    | some vertex =>
      dsimp only [Option.bind_eq_bind, Option.bind_some]
      rw [reachedByOrFault_eq_ok vertex (Nat.zero_le _)]
      cases reachedBy vertex geometry 0 stops with
      | none => rfl
      | some reached =>
        have ordered : 1 ≤ stops.length - 1 := by omega
        dsimp only [Option.bind_some]
        rw [clamp, if_pos ordered]
        rfl

end Itinerary.Geodesy

import Itinerary.Coordinate

/-! Distances on the sphere, and the place of a new stop along a displayed path. -/
namespace Itinerary.Geodesy

/-- Metres. -/
def earthRadius : Float := 6371000

def radians (degrees : Float) : Float := degrees * (3.141592653589793 / 180)

private def squared (x : Float) : Float := x * x

/-- Great-circle distance in metres by the haversine formula. -/
def distance (a b : Coordinate) : Float :=
  let halfLat := radians (b.lat - a.lat) / 2
  let halfLng := radians (b.lng - a.lng) / 2
  let h := squared halfLat.sin +
    (radians a.lat).cos * (radians b.lat).cos * squared halfLng.sin
  earthRadius * (2 * h.sqrt.asin)

/-- Distances in a total order. A pair with a missing number counts as farther than any other, and
one without a distance for any other reason as nearer. -/
def remoteness (a b : Coordinate) : Nat :=
  let d := distance a b
  if d.isNaN then
    if a.lat.isNaN || a.lng.isNaN || b.lat.isNaN || b.lng.isNaN then UInt64.size else 0
  else d.toBits.toNat + 1

/-- The first of the least ranks, with its index. -/
def firstLeast : List Nat → Option (Nat × Nat)
  | [] => none
  | rank :: ranks =>
    match firstLeast ranks with
    | some (index, least) => if least < rank then some (index + 1, least) else some (0, rank)
    | none => some (0, rank)

/-- Index of the vertex closest to the target. -/
def nearestIndex (points : List Coordinate) (target : Coordinate) : Option Nat :=
  (firstLeast (points.map (remoteness · target))).map Prod.fst

/-- How many stops the path has reached at vertex `limit`. Stops are matched front to back, each to
the nearest vertex from `start` on, so that loops in the path stay ordered. -/
def reachedBy (limit : Nat) (geometry : List Coordinate) : Nat → List Coordinate → Option Nat
  | _, [] => some 0
  | start, stop :: stops => do
    let vertex := start + (← nearestIndex (geometry.drop start) stop)
    if limit < vertex then some 0
    else return (← reachedBy limit geometry vertex stops) + 1

/-- Route position of a stop added by a click: after the last of the path's stops reached before
the vertex nearest to the click, and always between the ends. -/
def insertIndex (geometry stops : List Coordinate) (click : Coordinate) : Option Nat :=
  if stops.length < 2 then none
  else do
    let vertex ← nearestIndex geometry click
    return max 1 (min (← reachedBy vertex geometry 0 stops) (stops.length - 1))

end Itinerary.Geodesy

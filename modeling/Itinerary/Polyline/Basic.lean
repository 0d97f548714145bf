import Itinerary.Coordinate

/-! Route geometry: a sequence of vertices, each perhaps with an elevation. -/
namespace Itinerary

structure Polyline where
  points : List Coordinate := []
  elevations : Option (List Float) := none
deriving BEq

/-- Why a geometry could not be read. Offsets count UTF-8 octets. An overflow is never reported: the
program stops at a sum that no word holds. -/
inductive GeometryError where
  | truncated (offset : Nat)
  | invalidCharacter (offset : Nat)
  | invalidWkt (reason : String)
  | overflow
deriving DecidableEq, Repr

def GeometryError.message : GeometryError → String
  | .truncated offset => s!"truncated encoded polyline at byte {offset}"
  | .invalidCharacter offset => s!"invalid character in encoded polyline at byte {offset}"
  | .invalidWkt reason => s!"invalid WKT line string: {reason}"
  | .overflow => "attempt to add with overflow"

/-- What stops the program. -/
inductive Fault where
  | overflow
deriving DecidableEq, Repr

namespace Polyline

/-- From `[lng, lat(, elevation)]` tuples. A tuple of fewer than two numbers is no vertex, and
elevations count only if every tuple has one. -/
def ofLngLat (tuples : List (List Float)) : Polyline where
  points := tuples.filterMap fun
    | lng :: lat :: _ => some ⟨lat, lng⟩
    | _ => none
  elevations :=
    if tuples.isEmpty then none
    else tuples.mapM fun
      | _ :: _ :: elevation :: _ => some elevation
      | _ => none

end Polyline
end Itinerary

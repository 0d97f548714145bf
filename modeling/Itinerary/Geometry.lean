import Itinerary.Json.Record
import Itinerary.Polyline.Encoded
import Itinerary.Polyline.Wkt
import Itinerary.Stop

/-! Geometry as a routing service sends it. -/
namespace Itinerary

/-- Text is an encoded polyline or well-known text; a line string lists `[lng, lat(, elevation)]`. -/
inductive Geometry where
  | text (s : String)
  | lineString (tuples : List (List Float))

namespace Geometry

/-- The keyword, in any case and after any blanks, tells well-known text from encoded. -/
def decode (elevation : Bool) : Geometry → Except GeometryError Polyline
  | .text s =>
    if Text.startsWithIgnoringCase Polyline.wktKeyword (Text.trimStart s.toList) then
      Polyline.ofWkt s
    else Polyline.decode s elevation
  | .lineString tuples => .ok (.ofLngLat tuples)

/-- What is read, if it can be; reading it may stop the program. -/
def orFault {α : Type} : Except GeometryError α → Except Fault (Option α)
  | .ok a => .ok (some a)
  | .error .overflow => .error .overflow
  | .error _ => .ok none

def toJson : Geometry → Json
  | .text s => .str s
  | .lineString tuples =>
    .obj [("coordinates", .arr (tuples.map fun t => .arr (t.map Json.ofFloat)))]

/-- Which form it is shows only in the value, so all of it has to be usable, members that are passed
over included, and nest no deeper than `room`. -/
def ofJson? (room : Nat) (j : Json) : Option Geometry :=
  if (j.usable? room).isNone then none
  else
    match j with
    | .str s => some (.text s)
    | j => do
      let r ← j.object? ["coordinates"]
      return .lineString (← r.required 0 (Json.list? (Json.list? Json.float?)))

end Geometry

namespace Polyline

def toJson (p : Polyline) : Json := .obj [
  ("points", .arr (p.points.map Coordinate.toJson)),
  ("elevations", .ofOption (fun es => .arr (es.map Json.ofFloat)) p.elevations)]

def ofJson? (j : Json) : Option Polyline := do
  let r ← j.record? ["points", "elevations"]
  return ⟨← r.required 0 (Json.list? Coordinate.ofJson?),
    ← r.nullable 1 (Json.list? Json.float?)⟩

end Polyline
end Itinerary

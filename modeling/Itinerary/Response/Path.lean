import Itinerary.Response.Leg

/-! One of the paths that a routing service found. -/
namespace Itinerary

/-- A remark on the vertices from `start` to `stop` of a path. -/
structure PathDetail where
  start : UInt64
  stop : UInt64
  value : Json

namespace PathDetail

def toJson (d : PathDetail) : Json :=
  .obj [("from", .int d.start.toNat), ("to", .int d.stop.toNat), ("value", d.value)]

/-- Written as a list of three. -/
def ofJson? (room : Nat) : Json → Option PathDetail
  | .arr [start, stop, value] => do
    return ⟨← start.uint64?, ← stop.uint64?, ← value.usable? (room - 1)⟩
  | _ => none

end PathDetail

structure Bounds where
  minLng : Float
  minLat : Float
  maxLng : Float
  maxLat : Float

namespace Bounds

def toJson (b : Bounds) : Json := .obj [("min_lng", .ofFloat b.minLng),
  ("min_lat", .ofFloat b.minLat), ("max_lng", .ofFloat b.maxLng), ("max_lat", .ofFloat b.maxLat)]

def ofJson? (j : Json) : Option Bounds := do
  let r ← j.record? ["min_lng", "min_lat", "max_lng", "max_lat"]
  return ⟨← r.required 0 Json.float?, ← r.required 1 Json.float?, ← r.required 2 Json.float?,
    ← r.required 3 Json.float?⟩

/-- The same as a list of four numbers. -/
def toBox (b : Bounds) : Json := .arr
  [.ofFloat b.minLng, .ofFloat b.minLat, .ofFloat b.maxLng, .ofFloat b.maxLat]

def ofBox? : Json → Option Bounds
  | .arr [minLng, minLat, maxLng, maxLat] => do
    return ⟨← minLng.float?, ← minLat.float?, ← maxLng.float?, ← maxLat.float?⟩
  | _ => none

end Bounds

/-- Distances are in metres and the time in milliseconds. `order` is the order in which the path
visits the stops, if it changed it. -/
structure Path where
  distance : Float
  time : UInt64
  ascend : Float
  descend : Float
  points : Option Geometry
  snapped : Option Geometry
  bounds : Option Bounds
  order : Option (List UInt64)
  details : List (String × List PathDetail)
  legs : List Leg
  fare : Option String
  description : Option String

/-- Where a remark begins. -/
structure DetailMarker where
  key : String
  coordinate : Coordinate
  value : Json

/-- The numbers of a path that are shown. -/
structure PathSummary where
  distance : Float
  duration : UInt64
  ascend : Float
  descend : Float
  arrival : Option Instant
  transfers : Option Nat
  possible : Bool

namespace Path

def toJson (p : Path) : Json := .obj [
  ("distance", .ofFloat p.distance),
  ("time", .int p.time.toNat),
  ("ascend", .ofFloat p.ascend),
  ("descend", .ofFloat p.descend),
  ("points", .ofOption Geometry.toJson p.points),
  ("snapped_waypoints", .ofOption Geometry.toJson p.snapped),
  ("bbox", .ofOption Bounds.toBox p.bounds),
  ("points_order", .ofOption (fun order => .arr (order.map fun i => .int i.toNat)) p.order),
  ("details", .obj (p.details.map fun (key, details) =>
    (key, .arr (details.map PathDetail.toJson)))),
  ("legs", .arr (p.legs.map Leg.toJson)),
  ("fare", .ofOption .str p.fare),
  ("description", .ofOption .str p.description)]

/-- A path that nests no deeper than `room`. -/
def ofJson? (room : Nat) (j : Json) : Option Path := do
  let r ← j.record? ["distance", "time", "ascend", "descend", "points", "snapped_waypoints", "bbox",
    "points_order", "details", "legs", "fare", "description"]
  return {
    distance := ← r.defaulted 0 0 Json.float?
    time := ← r.defaulted 1 0 Json.uint64?
    ascend := ← r.defaulted 2 0 Json.float?
    descend := ← r.defaulted 3 0 Json.float?
    points := ← r.optional 4 (Geometry.ofJson? (room - 1))
    snapped := ← r.optional 5 (Geometry.ofJson? (room - 1))
    bounds := ← r.optional 6 Bounds.ofBox?
    order := ← r.optional 7 (Json.list? Json.uint64?)
    details := ← r.defaulted 8 [] (Json.map? (Json.list? (PathDetail.ofJson? (room - 3))))
    legs := ← r.defaulted 9 [] (Json.list? (Leg.ofJson? (room - 2)))
    fare := ← r.optional 10 Json.str?
    description := ← r.optional 11 Json.str? }

/-- Without a geometry there are no points. -/
def decoded (elevation : Bool) : Option Geometry → Except GeometryError Polyline
  | some g => g.decode elevation
  | none => .ok {}

def geometry (p : Path) (elevation : Bool) : Except GeometryError Polyline :=
  decoded elevation p.points

/-- The stops as the service placed them on the path. -/
def snappedStops (p : Path) (elevation : Bool) : Except GeometryError Polyline :=
  decoded elevation p.snapped

def waypoints (p : Path) : List Waypoint := Leg.waypoints p.legs

def transferCount (p : Path) : Option Nat := Itinerary.transferCount p.legs

/-- Every connection can be made. -/
def isPossible (p : Path) : Bool := p.waypoints.all Waypoint.isPossible

def departure (p : Path) : Option Instant := p.legs.head?.bind Leg.departure

def arrival (p : Path) : Option Instant := p.legs.getLast?.bind Leg.arrival

/-- The fare of the path, or else of its first leg that has one. -/
def totalFare (p : Path) : Option String := p.fare <|> p.legs.findSome? Leg.fare

/-- The first coordinate of every remark's span, by key and in order; remarks off the geometry are
passed over. -/
def detailMarkers (p : Path) (geometry : Polyline) : List DetailMarker :=
  p.details.flatMap fun (key, details) =>
    details.filterMap fun d =>
      geometry.points[d.start.toNat]?.map fun c => ⟨key, c, d.value⟩

/-- Where the legs tell no arrival, it is the departure asked for and the path's duration, unless
that is out of all bounds. -/
def summary (p : Path) (departure : Option Instant) : PathSummary where
  distance := p.distance
  duration := p.time
  ascend := p.ascend
  descend := p.descend
  arrival := p.arrival <|> (do
    let start ← departure
    if p.time.toNat < Nat.pow 2 63 then start.addMillis p.time.toNat else none)
  transfers := p.transferCount
  possible := p.isPossible

end Path

/-- The paths that answer a request, best first. -/
structure Response where
  paths : List Path

namespace Response

def toJson (r : Response) : Json := .obj [("paths", .arr (r.paths.map Path.toJson))]

def ofJson? (room : Nat) (j : Json) : Option Response := do
  let r ← j.record? ["paths"]
  return ⟨← r.defaulted 0 [] (Json.list? (Path.ofJson? (room - 2)))⟩

end Response
end Itinerary

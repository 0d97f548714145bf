import Itinerary.Geometry
import Itinerary.Options

/-! Legs of a path and the joins between them. -/
namespace Itinerary

inductive LegMode where
  | walk
  | transit
  | vehicle
deriving DecidableEq, Repr

namespace LegMode

/-- In any case; every other word is a vehicle. -/
def ofName (word : String) : LegMode :=
  match word.toLower with
  | "walk" | "foot" => .walk
  | "pt" | "transit" => .transit
  | _ => .vehicle

def name : LegMode → String
  | .walk => "Walk"
  | .transit => "Transit"
  | .vehicle => "Vehicle"

def toJson (m : LegMode) : Json := .str m.name

def ofJson? (j : Json) : Option LegMode := j.str?.map ofName

end LegMode

structure Leg where
  mode : LegMode
  departure : Option Instant
  arrival : Option Instant
  geometry : Option Geometry
  fare : Option String

namespace Leg

def toJson (l : Leg) : Json := .obj [
  ("type", l.mode.toJson),
  ("departure_time", .ofOption Instant.toJson l.departure),
  ("arrival_time", .ofOption Instant.toJson l.arrival),
  ("geometry", .ofOption Geometry.toJson l.geometry),
  ("fare", .ofOption .str l.fare)]

/-- A leg that nests no deeper than `room`. -/
def ofJson? (room : Nat) (j : Json) : Option Leg := do
  let r ← j.record? ["type", "departure_time", "arrival_time", "geometry", "fare"]
  return {
    mode := ← r.required 0 LegMode.ofJson?
    departure := ← r.optional 1 Instant.ofJson?
    arrival := ← r.optional 2 Instant.ofJson?
    geometry := ← r.optional 3 (Geometry.ofJson? (room - 1))
    fare := ← r.optional 4 Json.str? }

end Leg

/-- Where one leg ends and the next begins, or an open end of the path. -/
structure Waypoint where
  arrival : Option Instant
  departure : Option Instant
  previous : Option LegMode
  next : Option LegMode
deriving DecidableEq, Repr

namespace Waypoint

/-- The next leg does not leave before the previous one arrives. -/
def isPossible (w : Waypoint) : Bool :=
  match w.arrival, w.departure with
  | some arrival, some departure => arrival.le departure
  | _, _ => true

end Waypoint

namespace Leg

/-- The joins of the remaining legs with the leg before them. -/
def waypointsAfter (previous : Leg) : List Leg → List Waypoint
  | [] => [⟨previous.arrival, none, some previous.mode, none⟩]
  | l :: ls => ⟨previous.arrival, l.departure, some previous.mode, some l.mode⟩ :: waypointsAfter l ls

/-- All joins of a path, its two open ends included. -/
def waypoints : List Leg → List Waypoint
  | [] => []
  | l :: ls => ⟨none, l.departure, none, some l.mode⟩ :: waypointsAfter l ls

end Leg

namespace Waypoint

/-- Where a vehicle of public transit is boarded. -/
def boards (w : Waypoint) : Bool := w.next == some .transit

/-- The changes made so far, if a vehicle has been boarded: to board one more is one more change. -/
def transfers (made : Option Nat) (w : Waypoint) : Option Nat :=
  if w.boards then some (made.elim 0 (· + 1)) else made

end Waypoint

/-- Number of changes between transit vehicles, if there is any such vehicle. -/
def transferCount (legs : List Leg) : Option Nat :=
  (Leg.waypoints legs).foldl Waypoint.transfers none

end Itinerary

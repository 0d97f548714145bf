import Itinerary.Stop

/-! The stops of a journey in order. -/
namespace Itinerary

/-- A journey has an origin and a destination. -/
def minStops : Nat := 2

/-- The part a stop plays by its position. -/
inductive Role where
  | origin
  | via
  | destination
deriving DecidableEq, Repr

inductive RouteError where
  | indexOutOfBounds (index length : Nat)
  | minimumStops
  | unknownStop (id : StopId)
deriving DecidableEq, Repr

def RouteError.message : RouteError → String
  | .indexOutOfBounds index length =>
    s!"index {index} out of bounds for route of {length} points"
  | .minimumStops => "a route must keep at least 2 points"
  | .unknownStop id => s!"point {id.number} is not part of the route"

/-- The order holds identities, and the stops are kept beside it, each under an identity, so that
reordering never changes which stop a lookup belongs to. The route numbers its stops and never uses a
number again. -/
structure Route where
  order : List StopId
  entries : List (StopId × Stop)
  nextNumber : Nat

namespace Route

def empty : Route := ⟨[], [], 1⟩

def length (r : Route) : Nat := r.order.length

/-- The stops that are kept, in no order that counts. -/
def stops (r : Route) : List Stop := r.entries.map Prod.snd

/-- The stop kept under this identity. -/
def find? (r : Route) (id : StopId) : Option Stop := (r.entries.find? (·.1 == id)).map Prod.snd

def contains (r : Route) (id : StopId) : Bool := (r.find? id).isSome

def at? (r : Route) (index : Nat) : Option Stop := r.order[index]?.bind r.find?

def indexOf? (r : Route) (id : StopId) : Option Nat := r.order.findIdx? (· == id)

/-- The stops in route order. -/
def toList (r : Route) : List Stop := r.order.filterMap r.find?

def roleOf (r : Route) (index : Nat) : Role :=
  if index = 0 then .origin
  else if index + 1 = r.length then .destination
  else .via

/-- Changes the stop kept under this identity where it stands. -/
def modify (r : Route) (id : StopId) (f : Stop → Stop) : Route :=
  { r with entries := r.entries.map fun e => if e.1 = id then (e.1, f e.2) else e }

/-- Changes the stop at this position, if there is one. -/
def modifyAt (r : Route) (index : Nat) (f : Stop → Stop) : Route :=
  match r.order[index]? with
  | some id => r.modify id f
  | none => r

/-- Keeps a stop under its identity, in place of one kept before. -/
def keep (r : Route) (s : Stop) : Route :=
  if r.contains s.id then r.modify s.id fun _ => s else { r with entries := r.entries ++ [(s.id, s)] }

def forget (r : Route) (id : StopId) : Route :=
  { r with entries := r.entries.filter fun e => e.1 != id }

/-- A new stop with this text, under a number of its own. -/
def mint (r : Route) (input : String) : Stop × Route :=
  (.create ⟨r.nextNumber⟩ input, { r with nextNumber := r.nextNumber + 1 })

/-- Puts a stop at the end, as the new destination. -/
def append (r : Route) (s : Stop) : Route :=
  let r := r.keep s
  { r with order := r.order ++ [s.id] }

/-- Appends a new stop with this text. -/
def push (r : Route) (input : String) : Route :=
  let (s, r) := r.mint input
  r.append s

def ofInputs (inputs : List String) : Route := inputs.foldl push empty

/-- Blank origin and destination. -/
def blank : Route := ofInputs ["", ""]

/-- Puts a stop before the one at `index`, or at the end. -/
def insert (r : Route) (index : Nat) (s : Stop) : Except RouteError Route :=
  if r.length < index then .error (.indexOutOfBounds index r.length)
  else
    let r := r.keep s
    .ok { r with order := r.order.insertIdx index s.id }

/-- Inserts a new stop with this text. -/
def insertInput (r : Route) (index : Nat) (input : String) : Except RouteError (StopId × Route) :=
  let (s, r) := r.mint input
  (r.insert index s).map fun r => (s.id, r)

def checkIndex (r : Route) (index : Nat) : Except RouteError Unit :=
  if index < r.length then .ok () else .error (.indexOutOfBounds index r.length)

/-- Takes out the stop at `index`, unless fewer than two would be left. A position whose stop is no
longer kept goes as well, though that is an error. -/
def removeAt (r : Route) (index : Nat) : Except RouteError Stop × Route :=
  match r.order[index]? with
  | none => (.error (.indexOutOfBounds index r.length), r)
  | some id =>
    if r.length ≤ minStops then (.error .minimumStops, r)
    else
      let shorter := { r with order := r.order.eraseIdx index }
      match r.find? id with
      | some s => (.ok s, shorter.forget id)
      | none => (.error (.unknownStop id), shorter)

def remove (r : Route) (id : StopId) : Except RouteError Stop × Route :=
  match r.indexOf? id with
  | some index => r.removeAt index
  | none => (.error (.unknownStop id), r)

/-- Moves a stop to another position; those between close up. -/
def move (r : Route) (origin target : Nat) : Except RouteError Route := do
  r.checkIndex origin
  r.checkIndex target
  if origin = target then return r
  match r.order[origin]? with
  | some id => return { r with order := (r.order.eraseIdx origin).insertIdx target id }
  | none => return r

def moveToEnd (r : Route) (origin : Nat) : Except RouteError Route := r.move origin (r.length - 1)

/-- Appends blank stops until there are `length`. -/
def ensureLength (r : Route) (length : Nat) : Route :=
  (List.replicate (length - r.length) "").foldl push r

/-- Drops the stops beyond `length`, but leaves two. -/
def truncate (r : Route) (length : Nat) : Route :=
  let length := max length minStops
  let dropped := r.order.drop length
  { r with
    order := r.order.take length
    entries := r.entries.filter fun e => !dropped.contains e.1 }

def isFullyResolved (r : Route) : Bool := r.toList.all Stop.isResolved

/-- The coordinates in route order, or the first stop that has none. -/
def coordinates (r : Route) : Except StopId (List Coordinate) :=
  r.toList.mapM fun s =>
    match s.coordinate with
    | some c => .ok c
    | none => .error s.id

/-- Position of the stop with this coordinate. -/
def indexOfCoordinate? (r : Route) (c : Coordinate) : Option Nat :=
  r.toList.findIdx? fun s => s.coordinate == some c

end Route
end Itinerary

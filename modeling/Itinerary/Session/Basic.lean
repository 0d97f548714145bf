import Itinerary.Dispatcher
import Itinerary.Geodesy
import Itinerary.Lookup
import Itinerary.Response.Failure

/-! A planning session: the route, the options and the displayed response, what is under way, and
what the outside has been told. -/
namespace Itinerary

/-- A map marker of one resolved stop. -/
structure Marker where
  stop : StopId
  index : Nat
  role : Role
  coordinate : Coordinate

/-- What a session asks of the geocoder, the routing service, the history and the display. -/
inductive Effect where
  | clearMarkers
  | placeMarker (m : Marker)
  | geocode (query : String)
  | findRoute (payload : Payload)
  | pushLink (link : Link)
  | showPaths (paths : List Path) (selected : Nat) (zoom : Bool)
  | highlight (index : Nat)
  | showFailure (f : RoutingFailure)
  | showRejection (e : RequestError)
  | showLookupFailure (index : Nat) (f : LookupFailure)
  | focus (c : Coordinate)
  | showDetails (markers : List DetailMarker)

/-- A display may pass these over. -/
def Effect.isOptional : Effect → Bool
  | .showLookupFailure _ _ | .focus _ | .showDetails _ => true
  | _ => false

structure SessionConfig where
  historyEnabled : Bool := true
  defaultProfile : Profile := .car
  defaultOptions : Options := {}

/-- In `lookups` and `requests` is what waits to be taken, oldest first. `inFlight` has the numbers
of the requests whose answers may still come, and whether the map is to follow them. `focusOn` is a
stop to be shown once it is resolved. `outbox` is what the outside has been told since it was last
collected, oldest first. -/
structure Session where
  defaultProfile : Profile
  route : Route
  options : Options
  stats : LookupStats := {}
  dispatcher : Dispatcher
  clock : Instant
  lookups : List Lookup := []
  requests : List Dispatch := []
  inFlight : List (Nat × Bool) := []
  response : Option Response := none
  selected : Nat := 0
  focusOn : Option StopId := none
  outbox : List Effect := []

namespace Session

/-- History takes both the wish for it and a place to keep it. -/
def start (config : SessionConfig) (historyAvailable : Bool) (clock : Instant) : Session where
  defaultProfile := config.defaultProfile
  route := .blank
  options := { config.defaultOptions with profile := config.defaultProfile }
  dispatcher := { keepsHistory := config.historyEnabled && historyAvailable }
  clock := clock

def setClock (s : Session) (now : Instant) : Session := { s with clock := now }

def emit (s : Session) (effects : List Effect) : Session :=
  { s with outbox := s.outbox ++ effects }

/-- Empties the outbox. -/
def collect (s : Session) : List Effect × Session := (s.outbox, { s with outbox := [] })

def isReady (s : Session) : Bool := s.route.isReady

def selectedPath? (s : Session) : Option Path := s.response.bind (·.paths[s.selected]?)

/-- The journey as a link. -/
def link (s : Session) : Link := .capture s.route s.options s.dispatcher.zoom

/-- Popup text of a stop's marker. -/
def popup (s : Session) (id : StopId) : Option String := (s.route.find? id).bind Stop.popup

/-- Positions of the route in the order of the markers: that of the selected path, if it orders as
many stops as there are. -/
def markerOrder (s : Session) : List Nat :=
  let n := s.route.length
  let order := (s.selectedPath?.bind Path.order).map fun order => order.map UInt64.toNat
  match order with
  | some order =>
    if order.length = n ∧ order.all (· < n) then order else List.range n
  | none => List.range n

/-- One marker for every resolved stop in the order of the markers. -/
def markers (s : Session) : List Marker :=
  s.markerOrder.zipIdx.filterMap fun (place, index) => do
    let stop ← s.route.at? place
    return ⟨stop.id, index, s.route.roleOf index, ← stop.coordinate⟩

def refreshMarkers (s : Session) : Session :=
  s.emit (.clearMarkers :: s.markers.map .placeMarker)

/-- Carries out what the dispatcher decided. -/
def perform (s : Session) : Action → Session
  | .idle => s
  | .push link => s.emit [.pushLink link]
  | .dispatch d =>
    { s with inFlight := s.inFlight ++ [(d.number, d.zoom)], requests := s.requests ++ [d] }
  | .reject e => s.emit [.showRejection e]

/-- What follows every edit. -/
def afterEdit (s : Session) : Session :=
  let s := s.refreshMarkers
  let (action, dispatcher) := s.dispatcher.onEdit s.route s.options s.clock
  { s with dispatcher }.perform action

/-- Resolves a stop; a lookup that it needs joins the queue. -/
def resolve (s : Session) (id : StopId) : Except RouteError Unit × Session :=
  match s.route.resolve id with
  | .error e => (.error e, s)
  | .ok (outcome, route) =>
    (.ok (), { s with
      route
      stats := s.stats.countIssued outcome
      lookups := s.lookups ++ outcome.lookup?.toList })

def resolveAll (s : Session) : Session :=
  let (outcomes, route) := s.route.resolveAll
  { s with
    route
    stats := outcomes.foldl LookupStats.countIssued s.stats
    lookups := s.lookups ++ outcomes.filterMap ResolveOutcome.lookup? }

/-- Shows the stop that is to be shown, once it is resolved; one that cannot be is given up. -/
def tryFocus (s : Session) : Session :=
  match s.focusOn with
  | none => s
  | some id =>
    match s.route.find? id with
    | none => { s with focusOn := none }
    | some stop =>
      match stop.status, stop.coordinate with
      | .resolved, some c => { s with focusOn := none }.emit [.focus c]
      | .pending, _ => s
      | _, _ => { s with focusOn := none }

end Session
end Itinerary

import Itinerary.Session.Basic

/-! Answers that come in. -/
namespace Itinerary.Session

/-- Hands out the lookups that wait. -/
def takeLookups (s : Session) : List Lookup × Session := (s.lookups, { s with lookups := [] })

/-- Hands out the requests that wait. -/
def takeRequests (s : Session) : List Dispatch × Session := (s.requests, { s with requests := [] })

/-- Reports a stop whose lookup has just failed. -/
def reportFailure (s : Session) (id : StopId) : Session :=
  match s.route.indexOf? id, (s.route.find? id).bind Stop.failure with
  | some index, some failure => s.emit [.showLookupFailure index failure]
  | _, _ => s

/-- The answer to a lookup. It is applied if it still counts, and may complete the route. -/
def completeLookup (s : Session) (l : Lookup) (result : LookupResult) : Completion × Session :=
  let (completion, route) := s.route.complete l result
  let s := { s with route, stats := s.stats.countAnswer completion }
  match completion with
  | .stale => (completion, s)
  | .applied status =>
    let s := if status = .failed then s.reportFailure l.stop else s
    let s := s.tryFocus.refreshMarkers
    let (action, dispatcher) := s.dispatcher.onResolution s.route s.options s.clock
    (completion, { s with dispatcher }.perform action)

/-- The debug view of a response's first path. -/
def showDetails (s : Session) (response : Response) : Session :=
  match response.paths.head? with
  | none => s
  | some path =>
    match path.geometry s.options.elevation with
    | .ok geometry => s.emit [.showDetails (path.detailMarkers geometry)]
    | .error _ => s

/-- Makes a response the displayed one, its first path selected. -/
def display (s : Session) (response : Response) (zoom : Bool) : Session :=
  let s := { s with selected := 0 }.emit [.showPaths response.paths 0 zoom]
  let s := if s.options.debug then s.showDetails response else s
  { s with response := some response }.refreshMarkers

/-- The answer to a request, and whether it was applied; after that, answers to older ones are not
waited for. A failure is shown and leaves what is displayed. This is as long as reading the path for the
debug view does not stop the program. -/
def completeRequest (s : Session) (number : Nat) (result : RoutingResult) : Bool × Session :=
  let zoom := ((s.inFlight.find? (·.1 == number)).map Prod.snd).getD true
  let s := { s with inFlight := s.inFlight.filter (·.1 != number) }
  match s.dispatcher.accept number with
  | (false, _) => (false, s)
  | (true, dispatcher) =>
    let s := { s with dispatcher, inFlight := s.inFlight.filter (number < ·.1) }
    match result with
    | .ok response => (true, s.display response zoom)
    | .error failure => (true, s.emit [.showFailure failure])

/-- The debug view of a response is read, which may stop the program. -/
def readDetails (s : Session) (response : Response) : Except Fault Unit :=
  match response.paths.head? with
  | some path => (Geometry.orFault (path.geometry s.options.elevation)).map fun _ => ()
  | none => .ok ()

def completeRequestOrFault (s : Session) (number : Nat) (result : RoutingResult) :
    Except Fault (Bool × Session) :=
  let outcome := s.completeRequest number result
  if outcome.1 && s.options.debug then
    match result with
    | .ok response => (s.readDetails response).map fun _ => outcome
    | .error _ => .ok outcome
  else .ok outcome

end Itinerary.Session

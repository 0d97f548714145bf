import Itinerary.Session.Basic

/-! What the user does to the route and the options. -/
namespace Itinerary.Session

/-- The outcome of an edit, and the session after it; an edit that is refused leaves it as it was. -/
abbrev Edited (α : Type) := Except RouteError α × Session

/-- The session after an edit of the route. -/
private def withRoute (s : Session) : Except RouteError Route → Edited Unit
  | .ok route => (.ok (), { s with route }.afterEdit)
  | .error e => (.error e, s)

/-- Text typed into the field at `index`. Nothing happens if the stop keeps it. -/
def setInput (s : Session) (index : Nat) (text : String) : Edited Unit :=
  match s.route.at? index with
  | none => (.error (.indexOutOfBounds index s.route.length), s)
  | some stop =>
    if stop.keepsInput text then (.ok (), s)
    else
      let s := { s with route := s.route.modifyAt index (·.setInput text) }
      match s.resolve stop.id with
      | (.ok (), s) => (.ok (), s.afterEdit)
      | (.error e, s) => (.error e, s)

/-- A new stop with this text. -/
def insertInput (s : Session) (index : Nat) (text : String) : Edited StopId :=
  match s.route.insertInput index text with
  | .error e => (.error e, s)
  | .ok (id, route) =>
    match { s with route }.resolve id with
    | (.ok (), s) => (.ok id, s.afterEdit)
    | (.error e, s) => (.error e, s)

def setCoordinate (s : Session) (index : Nat) (c : Coordinate) : Edited Unit :=
  match s.route.at? index with
  | none => (.error (.indexOutOfBounds index s.route.length), s)
  | some _ => (.ok (), { s with route := s.route.modifyAt index (·.setCoordinate c) }.afterEdit)

def setStart (s : Session) (c : Coordinate) : Edited Unit := s.setCoordinate 0 c

def setEnd (s : Session) (c : Coordinate) : Edited Unit := s.setCoordinate (s.route.length - 1) c

/-- Where the displayed path has the click, if it shows all the stops. -/
def indexOnPath (s : Session) (click : Coordinate) : Option Nat := do
  let path ← s.selectedPath?
  let geometry ← (path.geometry s.options.elevation).toOption
  let stops ← (path.snappedStops s.options.elevation).toOption
  if stops.points.length ≠ s.route.length then none
  Geodesy.insertIndex geometry.points stops.points click

/-- Where the displayed path has the click, unless reading the path stops the program. The snapped stops
are read only if the path can be. -/
def indexOnPathOrFault (s : Session) (click : Coordinate) : Except Fault (Option Nat) := do
  let some path := s.selectedPath? | return none
  let some geometry ← Geometry.orFault (path.geometry s.options.elevation) | return none
  let some stops ← Geometry.orFault (path.snappedStops s.options.elevation) | return none
  if stops.points.length ≠ s.route.length then return none
  return Geodesy.insertIndex geometry.points stops.points click

/-- A stop clicked on the map, at this position or else right before the destination. The map stays
where it is. -/
def addClicked (s : Session) (c : Coordinate) (index : Option Nat) : Edited StopId :=
  match s.route.insertInput (index.getD (max (s.route.length - 1) 1)) c.literal with
  | .error e => (.error e, s)
  | .ok (id, route) =>
    (.ok id, { s with route, dispatcher := s.dispatcher.suppressZoom }.afterEdit)

/-- A stop clicked on the map, on the leg of the displayed path closest to it, as long as reading the
path does not stop the program. -/
def addIntermediate (s : Session) (c : Coordinate) : Edited StopId := s.addClicked c (s.indexOnPath c)

def addIntermediateOrFault (s : Session) (c : Coordinate) : Except Fault (Edited StopId) :=
  (s.indexOnPathOrFault c).map (s.addClicked c)

/-- A marker dropped somewhere else. The map stays where it is. -/
def dragMarker (s : Session) (id : StopId) (c : Coordinate) : Edited Unit :=
  if s.route.contains id then
    (.ok (), { s with
      route := s.route.modify id (·.setCoordinate c)
      dispatcher := s.dispatcher.suppressZoom }.afterEdit)
  else (.error (.unknownStop id), s)

def moveToStart (s : Session) (index : Nat) : Edited Unit := s.withRoute (s.route.move index 0)

def moveToEnd (s : Session) (index : Nat) : Edited Unit := s.withRoute (s.route.moveToEnd index)

/-- Moving a stop to its own place is no edit. -/
def moveStop (s : Session) (origin target : Nat) : Edited Unit :=
  if origin = target then (.ok (), s) else s.withRoute (s.route.move origin target)

def removeStop (s : Session) (index : Nat) : Edited Unit :=
  match s.route.removeAt index with
  | (.ok _, route) => (.ok (), { s with route }.afterEdit)
  | (.error e, route) => (.error e, { s with route })

def setProfile (s : Session) (profile : Profile) : Session :=
  { s with options := { s.options with profile } }.resolveAll.afterEdit

def setUnits (s : Session) (units : UnitSystem) : Session :=
  { s with options := { s.options with units } }.resolveAll.afterEdit

def setOptions (s : Session) (options : Options) : Session := { s with options }.afterEdit

/-- The user asks for the route. -/
def submit (s : Session) : Session := s.resolveAll.afterEdit

/-- Highlights another path of the displayed response, which asks for nothing new. -/
def selectAlternative (s : Session) (index : Nat) : Edited Unit :=
  let count := (s.response.map (·.paths.length)).getD 0
  if count ≤ index then (.error (.indexOutOfBounds index count), s)
  else (.ok (), ({ s with selected := index }.emit [.highlight index]).refreshMarkers)

end Itinerary.Session

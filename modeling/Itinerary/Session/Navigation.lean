import Itinerary.Session.Basic

/-! Showing a journey again from its link. -/
namespace Itinerary.Session

/-- Gives each stop the text at its position, unless it keeps the one it has; stops beyond the texts
become blank. -/
def fillFrom (index : Nat) (r : Route) : List String → Route
  | [] =>
    (r.order.drop index).foldl
      (fun r id => r.modify id fun stop => if stop.isBlank then stop else stop.setInput "") r
  | text :: texts =>
    fillFrom (index + 1)
      (r.modifyAt index fun stop => if stop.keepsInput text then stop else stop.setInput text) texts

/-- The route with these texts for its stops, of which at least two are left. -/
def syncStops (r : Route) (inputs : List String) : Route :=
  fillFrom 0 ((r.ensureLength inputs.length).truncate inputs.length) inputs

/-- Shows a link's only stop, as soon as it is resolved. -/
def focusSingle (s : Session) (points : List String) : Session :=
  let index := (points.findIdx? fun p => !Text.allBlank p).getD 0
  match s.route.order[index]? with
  | none => s
  | some id =>
    match { s with focusOn := some id }.resolve id with
    | (.ok (), s) => s.tryFocus
    | (.error _, s) => s

/-- Restores a link. Two or more stops are resolved and the route is asked for without going through
the history; a single one is only shown. -/
def navigate (s : Session) (link : Link) : Session :=
  let s := { s with
    options := link.options
    dispatcher := s.dispatcher.setZoom link.zoom
    focusOn := none
    route := syncStops s.route link.points }
  match link.nonBlankPoints with
  | 0 => { s with dispatcher := s.dispatcher.observe s.route }.refreshMarkers
  | 1 =>
    let s := s.focusSingle link.points
    { s with dispatcher := s.dispatcher.observe s.route }.refreshMarkers
  | _ =>
    let s := s.resolveAll.refreshMarkers
    let (action, dispatcher) := s.dispatcher.onNavigation s.route s.options s.clock
    { s with dispatcher }.perform action

/-- Restores a link from its text, if it is one. -/
def navigateText (s : Session) (text : String) : Except LinkError Unit × Session :=
  match Link.ofText text s.defaultProfile with
  | .ok link => (.ok (), s.navigate link)
  | .error e => (.error e, s)

end Itinerary.Session

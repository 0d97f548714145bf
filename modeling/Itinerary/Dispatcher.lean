import Itinerary.Link.Basic
import Itinerary.Payload

/-! When a routing request is due, which way it goes, and which answers still count. -/
namespace Itinerary

/-- A request on its way, numbered so that only the newest one's answer is applied. `zoom` asks the
map to follow the result. -/
structure Dispatch where
  number : Nat
  payload : Payload
  zoom : Bool

/-- What a change of the route leads to. With a history, the state is pushed there first and the
request follows when it is navigated to. -/
inductive Action where
  | idle
  | push (link : Link)
  | dispatch (d : Dispatch)
  | reject (e : RequestError)

/-- With `direct`, the next request passes the history by, because it replays an entry of it. -/
structure Dispatcher where
  keepsHistory : Bool
  wasReady : Bool := false
  zoom : Bool := true
  direct : Bool := false
  lastNumber : Nat := 0
  appliedNumber : Option Nat := none
  token : Nat := 0

/-- Enough stops, and all of them resolved. -/
def Route.isReady (r : Route) : Bool := minStops ≤ r.length && r.isFullyResolved

namespace Dispatcher

/-- The map stays where it is for the next request. -/
def suppressZoom (d : Dispatcher) : Dispatcher := { d with zoom := false }

def setZoom (d : Dispatcher) (zoom : Bool) : Dispatcher := { d with zoom }

/-- Number of the newest request, if there was one. -/
def newest? (d : Dispatcher) : Option Nat := if 0 < d.lastNumber then some d.lastNumber else none

/-- A request that is due. A refused one uses nothing up. -/
def request (d : Dispatcher) (route : Route) (options : Options) (now : Instant) :
    Action × Dispatcher :=
  match Payload.build route options now with
  | .error e => (.reject e, d)
  | .ok payload =>
    if d.keepsHistory && !d.direct then
      let link := { Link.capture route options d.zoom with token := some (d.token + 1) }
      (.push link, { d with zoom := true, direct := false, token := d.token + 1 })
    else
      (.dispatch ⟨d.lastNumber + 1, payload, d.zoom⟩,
        { d with zoom := true, direct := false, lastNumber := d.lastNumber + 1 })

/-- A request is due on a ready route: `always`, or when it has just become ready. -/
def evaluate (d : Dispatcher) (route : Route) (options : Options) (now : Instant) (always : Bool) :
    Action × Dispatcher :=
  let ready := route.isReady
  let next := { d with wasReady := ready }
  if ready && (always || !d.wasReady) then next.request route options now else (.idle, next)

/-- After a user's edit. -/
def onEdit (d : Dispatcher) (route : Route) (options : Options) (now : Instant) :
    Action × Dispatcher :=
  { d with direct := false }.evaluate route options now true

/-- After a lookup's answer. -/
def onResolution (d : Dispatcher) (route : Route) (options : Options) (now : Instant) :
    Action × Dispatcher :=
  d.evaluate route options now false

/-- After a state of the history was restored. -/
def onNavigation (d : Dispatcher) (route : Route) (options : Options) (now : Instant) :
    Action × Dispatcher :=
  { d with direct := true }.evaluate route options now true

/-- After a change that must not lead to a request. -/
def observe (d : Dispatcher) (route : Route) : Dispatcher :=
  { d with direct := false, wasReady := route.isReady }

/-- Whether an answer to this request may be applied: only to the newest, and only once. -/
def accept (d : Dispatcher) (number : Nat) : Bool × Dispatcher :=
  if number = d.lastNumber ∧ d.appliedNumber ≠ some number then
    (true, { d with appliedNumber := some number })
  else (false, d)

end Dispatcher
end Itinerary

import Itinerary.Response.Path

/-! Routing requests that gave no paths. -/
namespace Itinerary

/-- The service said no, was not reached, or was not understood. -/
inductive RoutingFailure where
  | service (status : Nat) (message : String) (hints : List String)
  | transport (message : String)
  | decode (message : String)
deriving DecidableEq, Repr

namespace RoutingFailure

def message : RoutingFailure → String
  | .service status message _ => s!"routing service error ({status}): {message}"
  | .transport message => s!"routing transport error: {message}"
  | .decode message => s!"malformed routing response: {message}"

def unavailable : String := "Routing service unavailable, please try again."

/-- What the user is told: the hints, or else the service's message, or else that there is no
service. -/
def userMessage : RoutingFailure → String
  | .service _ message hints =>
    if !hints.isEmpty then "\n".intercalate hints
    else if !message.isEmpty then message
    else unavailable
  | .transport _ | .decode _ => unavailable

def hintOfJson? (j : Json) : Option String := do
  let r ← j.record? ["message"]
  r.required 0 Json.str?

end RoutingFailure

abbrev RoutingResult := Except RoutingFailure Response

end Itinerary

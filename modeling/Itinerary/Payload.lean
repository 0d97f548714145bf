import Itinerary.CustomModel
import Itinerary.Options
import Itinerary.Route

/-! What a routing service is asked, whatever the way to it. -/
namespace Itinerary

/-- A request refused before it was sent. -/
inductive RequestError where
  | malformedCustomModel (fault : CustomModel.Fault)
  | tooFewStops (count : Nat)
  | unresolved (id : StopId)
  | transitViaStops (count : Nat)
deriving DecidableEq, Repr

def RequestError.message : RequestError → String
  | .malformedCustomModel fault => s!"malformed custom model: {fault.message}"
  | .tooFewStops count => s!"route needs at least 2 points, got {count}"
  | .unresolved id => s!"point {id.number} is not resolved"
  | .transitViaStops count => s!"public transit routes support exactly 2 points, got {count}"

/-- Transit parameters with every choice made. -/
structure TransitParams where
  departure : Instant
  arriveBy : Bool
  limitSolutions : UInt32
  maxProfileDuration : UInt32
  limitStreetSeconds : UInt32
  usePareto : Bool
  betaTransfers : Float
  accessMode : String
  egressMode : String
  betaAccessTime : Float
  betaEgressTime : Float
  maxVisitedNodes : UInt32

namespace TransitParams

private def modeOrFoot (mode : String) : String := if Text.allBlank mode then "foot" else mode

/-- Departure is now unless the user chose an instant; blank modes mean on foot. -/
def ofOptions (t : TransitOptions) (now : Instant) : TransitParams where
  departure := t.departure.getD now
  arriveBy := t.arriveBy
  limitSolutions := t.limitSolutions
  maxProfileDuration := t.maxProfileDuration
  limitStreetSeconds := t.limitStreetSeconds
  usePareto := t.usePareto
  betaTransfers := t.betaTransfers
  accessMode := modeOrFoot t.accessMode
  egressMode := modeOrFoot t.egressMode
  betaAccessTime := t.betaAccessTime
  betaEgressTime := t.betaEgressTime
  maxVisitedNodes := if t.maxVisitedNodes = 0 then defaultMaxVisitedNodes else t.maxVisitedNodes

def toJson (t : TransitParams) : Json := .obj [
  ("earliest_departure_time", t.departure.toJson),
  ("arrive_by", .bool t.arriveBy),
  ("limit_solutions", .int t.limitSolutions.toNat),
  ("max_profile_duration", .int t.maxProfileDuration.toNat),
  ("limit_street_time_seconds", .int t.limitStreetSeconds.toNat),
  ("use_pareto", .bool t.usePareto),
  ("beta_transfers", .ofFloat t.betaTransfers),
  ("access_mode", .str t.accessMode),
  ("egress_mode", .str t.egressMode),
  ("beta_access_time", .ofFloat t.betaAccessTime),
  ("beta_egress_time", .ofFloat t.betaEgressTime),
  ("max_visited_nodes", .int t.maxVisitedNodes.toNat)]

end TransitParams

/-- What is particular to the two kinds of profile: a street request may ask for alternatives and
carry a custom model, a transit request has its own parameters. -/
inductive Plan where
  | street (alternatives : Option Alternatives) (customModel : Option Json)
  | transit (params : TransitParams)

namespace Plan

def alternatives : Plan → Option Alternatives
  | .street alternatives _ => alternatives
  | .transit _ => none

def customModel : Plan → Option Json
  | .street _ model => model
  | .transit _ => none

def transit? : Plan → Option TransitParams
  | .street _ _ => none
  | .transit params => some params

/-- The same plan without alternatives. -/
def direct : Plan → Plan
  | .street _ model => .street none model
  | .transit params => .transit params

end Plan

/-- Alternatives are only looked for when more than one path is asked for. -/
def Alternatives.enabled (a : Alternatives) : Bool := 1 < a.maxPaths

structure Payload where
  profile : Profile
  points : List Coordinate
  plan : Plan
  fullPathDetails : Bool
  units : UnitSystem
  elevation : Bool
  debug : Bool

namespace Payload

/-- Transit takes an origin and a destination only and passes over a custom model; any other profile
needs the custom model, if there is one, to be well formed. -/
def plan? (options : Options) (now : Instant) (stops : Nat) : Except RequestError Plan :=
  if options.profile = .publicTransit then
    if stops = minStops then .ok (.transit (.ofOptions options.transit now))
    else .error (.transitViaStops stops)
  else
    match options.customModel with
    | none => .ok (.street (some options.alternatives) none)
    | some text =>
      match CustomModel.parse text with
      | .ok model => .ok (.street (some options.alternatives) (some model))
      | .error fault => .error (.malformedCustomModel fault)

/-- The request for a route whose stops are all resolved. -/
def build (route : Route) (options : Options) (now : Instant) : Except RequestError Payload :=
  if route.length < minStops then .error (.tooFewStops route.length)
  else
    match route.coordinates with
    | .error id => .error (.unresolved id)
    | .ok points =>
      (plan? options now points.length).map fun plan =>
        ⟨options.profile, points, plan, true, options.units, options.elevation, options.debug⟩

private def alternativesMembers (a : Alternatives) : List (String × Json) := [
  ("alternate_route_max_paths", .int a.maxPaths.toNat),
  ("alternate_route_max_weight_factor", .ofFloat a.maxWeightFactor),
  ("alternate_route_max_share_factor", .ofFloat a.maxShareFactor)]

def toJson (p : Payload) : Json := .obj <|
  [("profile", p.profile.toJson), ("points", .arr (p.points.map Coordinate.toJson))] ++
  (p.plan.alternatives.map alternativesMembers).getD [] ++
  [("return_full_path_details", .bool p.fullPathDetails), ("unit_system", p.units.toJson),
    ("elevation", .bool p.elevation), ("debug", .bool p.debug)] ++
  Json.member? "custom_model" id p.plan.customModel ++
  Json.member? "transit" TransitParams.toJson p.plan.transit?

end Payload
end Itinerary

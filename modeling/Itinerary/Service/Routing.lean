import Itinerary.Json.Parser
import Itinerary.Json.Printer
import Itinerary.Payload
import Itinerary.Response.Failure
import Itinerary.Service.Http

/-! A routing service: transit is asked for by a query, street routes by a JSON body. -/
namespace Itinerary

structure RoutingService where
  baseUrl : String := "http://localhost:8989"
  timeoutSeconds : Nat := 10
  apiKey : Option String := none

namespace RoutingService

/-- The defaults, with what the environment says instead. An empty key is none. -/
def ofEnvironment (setting : String → Option String) : RoutingService where
  baseUrl := (setting "GRAPHHOPPER_URL").getD ({} : RoutingService).baseUrl
  apiKey := (setting "GRAPHHOPPER_API_KEY").filter (!·.isEmpty)

def endpoint (s : RoutingService) : Except UrlError Url := Url.below s.baseUrl "route"

/-- The address with the key, if there is one. -/
def keyed (s : RoutingService) (endpoint : Url) : Url :=
  match s.apiKey with
  | some key => endpoint.appendPairs [("key", key)]
  | none => endpoint

/-- The query of a transit request. -/
def transitPairs (p : Payload) (t : TransitParams) : List Url.Form.Pair :=
  p.points.map (fun c => ("point", c.literal)) ++
  [("profile", p.profile.name),
    ("elevation", Url.Form.flag p.elevation),
    ("debug", Url.Form.flag p.debug),
    ("pt.earliest_departure_time", t.departure.withOffset),
    ("pt.arrive_by", Url.Form.flag t.arriveBy),
    ("pt.limit_solutions", Url.Form.count t.limitSolutions),
    ("pt.max_profile_duration", Url.Form.count t.maxProfileDuration),
    ("pt.limit_street_time", Url.Form.count t.limitStreetSeconds),
    ("pt.use_pareto", Url.Form.flag t.usePareto),
    ("pt.beta_transfers", Decimal.plain t.betaTransfers),
    ("pt.access_profile", t.accessMode),
    ("pt.egress_profile", t.egressMode),
    ("pt.beta_access_time", Decimal.plain t.betaAccessTime),
    ("pt.beta_egress_time", Decimal.plain t.betaEgressTime),
    ("pt.max_visited_nodes", Url.Form.count t.maxVisitedNodes)]

def fullDetails : List String := ["road_class", "road_environment", "max_speed", "average_speed"]

def alternativesMembers (a : Alternatives) : List (String × Json) := [
  ("algorithm", .str "alternative_route"),
  ("alternative_route.max_paths", .int a.maxPaths.toNat),
  ("alternative_route.max_weight_factor", .ofFloat a.maxWeightFactor),
  ("alternative_route.max_share_factor", .ofFloat a.maxShareFactor)]

/-- The body of a street request. A custom model needs the prepared graph switched off. -/
def streetBody (p : Payload) : Json := .obj <|
  [("profile", .str p.profile.name),
    ("points", .arr (p.points.map fun c => .arr [.ofFloat c.lng, .ofFloat c.lat])),
    ("points_encoded", .bool true),
    ("elevation", .bool p.elevation),
    ("debug", .bool p.debug)] ++
  (if p.fullPathDetails then [("details", .arr (fullDetails.map .str))] else []) ++
  ((p.plan.alternatives.filter Alternatives.enabled).map alternativesMembers).getD [] ++
  Json.member? "custom_model" id p.plan.customModel ++
  (if p.plan.customModel.isSome then [("ch.disable", .bool true)] else [])

def request (s : RoutingService) (endpoint : Url) (p : Payload) : HttpRequest :=
  let url := s.keyed endpoint
  match p.plan with
  | .transit t => { method := .get, target := (url.appendPairs (transitPairs p t)).target }
  | .street _ _ => { method := .post, target := url.target, body := (streetBody p).render }

/-- The failure that an error's body describes; a body of another shape is the message itself. -/
def failure (status : Nat) (body : String) : RoutingFailure :=
  let described : Option RoutingFailure := do
    let r ← (← Json.read body).record? ["message", "hints"]
    return .service status (← r.defaulted 0 "" Json.str?)
      (← r.defaulted 1 [] (Json.list? RoutingFailure.hintOfJson?))
  described.getD (.service status (Text.trimmed body) [])

/-- The response that a text stands for. -/
def readResponse? (body : String) : Option Response :=
  (Json.read body).bind (Response.ofJson? Json.Parser.maxDepth)

/-- What a reply means: paths if the status is a success, else the service's own words. The body is
taken as text: that of an error is made text whatever its octets are, and a response is taken to be
UTF-8. -/
def result : Reply String → RoutingResult
  | .failed reason => .error (.transport reason)
  | .answered status body =>
    if 200 ≤ status ∧ status < 300 then
      match readResponse? body with
      | some response => .ok response
      | none => .error (.decode "unreadable response")
    else .error (failure status body)

end RoutingService
end Itinerary

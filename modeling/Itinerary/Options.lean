import Itinerary.Decimal.Layout
import Itinerary.Instant.Printer
import Itinerary.Instant.Reader
import Itinerary.Profile

/-! What a user may choose for a routing request. -/
namespace Itinerary

namespace Instant

def toJson (t : Instant) : Json := .str t.zulu

def ofJson? (j : Json) : Option Instant := j.str?.bind parseLenient?

end Instant

/-- Limits for alternative street routes. -/
structure Alternatives where
  maxPaths : UInt32 := 2
  maxWeightFactor : Float := 1.4
  maxShareFactor : Float := 0.6
deriving BEq

namespace Alternatives

def toJson (a : Alternatives) : Json := .obj [
  ("max_paths", .int a.maxPaths.toNat),
  ("max_weight_factor", .ofFloat a.maxWeightFactor),
  ("max_share_factor", .ofFloat a.maxShareFactor)]

def ofJson? (j : Json) : Option Alternatives := do
  let r ← j.record? ["max_paths", "max_weight_factor", "max_share_factor"]
  return ⟨← r.required 0 Json.uint32?, ← r.required 1 Json.float?, ← r.required 2 Json.float?⟩

end Alternatives

def defaultMaxVisitedNodes : UInt32 := 1000000

/-- Public transit parameters; street profiles pass them over. The profile duration is in minutes,
and no visited nodes stand for the service's default. -/
structure TransitOptions where
  departure : Option Instant := none
  arriveBy : Bool := false
  limitSolutions : UInt32 := 4
  maxProfileDuration : UInt32 := 10
  limitStreetSeconds : UInt32 := 1440
  usePareto : Bool := false
  betaTransfers : Float := 1440000
  accessMode : String := "foot"
  egressMode : String := "foot"
  betaAccessTime : Float := 1.5
  betaEgressTime : Float := 1.5
  maxVisitedNodes : UInt32 := defaultMaxVisitedNodes
deriving BEq

namespace TransitOptions

def keys : List String := ["earliest_departure_time", "arrive_by", "limit_solutions",
  "max_profile_duration", "limit_street_time_seconds", "use_pareto", "beta_transfers",
  "access_mode", "egress_mode", "beta_access_time", "beta_egress_time", "max_visited_nodes"]

def toJson (t : TransitOptions) : Json := .obj [
  ("earliest_departure_time", .ofOption Instant.toJson t.departure),
  ("arrive_by", .bool t.arriveBy),
  ("limit_solutions", .int t.limitSolutions.toNat),
  ("max_profile_duration", .int t.maxProfileDuration.toNat),
  ("limit_street_time_seconds", .int t.limitStreetSeconds.toNat),
  ("use_pareto", .bool t.usePareto),
  ("beta_transfers", .ofFloat t.betaTransfers),
  ("access_mode", .str t.accessMode),
  ("egress_mode", .str t.egressMode),
  ("beta_access_time", .ofFloat t.betaAccessTime),
  ("beta_egress_time", .ofFloat t.betaEgressTime),
  ("max_visited_nodes", .int t.maxVisitedNodes.toNat)]

def ofJson? (j : Json) : Option TransitOptions := do
  let r ← j.record? keys
  return {
    departure := ← r.nullable 0 Instant.ofJson?
    arriveBy := ← r.required 1 Json.bool?
    limitSolutions := ← r.required 2 Json.uint32?
    maxProfileDuration := ← r.required 3 Json.uint32?
    limitStreetSeconds := ← r.required 4 Json.uint32?
    usePareto := ← r.required 5 Json.bool?
    betaTransfers := ← r.required 6 Json.float?
    accessMode := ← r.required 7 Json.str?
    egressMode := ← r.required 8 Json.str?
    betaAccessTime := ← r.required 9 Json.float?
    betaEgressTime := ← r.required 10 Json.float?
    maxVisitedNodes := ← r.required 11 Json.uint32? }

end TransitOptions

/-- All the options of one request. The custom model is kept as typed and checked when a request is
built from it. -/
structure Options where
  profile : Profile := .car
  units : UnitSystem := .metric
  alternatives : Alternatives := {}
  elevation : Bool := false
  debug : Bool := false
  transit : TransitOptions := {}
  customModel : Option String := none
deriving BEq

end Itinerary

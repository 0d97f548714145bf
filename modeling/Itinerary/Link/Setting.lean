import Itinerary.Decimal.Reader
import Itinerary.Options
import Itinerary.Url.Form

/-! The settings that a link can carry, each as one pair of its query. -/
namespace Itinerary

/-- A link that cannot be turned back into a journey. -/
inductive LinkError where
  | invalidUrl (reason : String)
  | invalidParameter (key value : String)
  | legacyProfile (vehicle : String)
deriving DecidableEq, Repr

def LinkError.message : LinkError → String
  | .invalidUrl reason => s!"invalid url state: {reason}"
  | .invalidParameter key value => s!"invalid value '{value}' for parameter '{key}'"
  | .legacyProfile vehicle => s!"legacy request without explicit profile (vehicle={vehicle})"

namespace Link

/-- One choice. `vehicle` comes from links of an older kind, which name no profile. -/
inductive Setting where
  | point (text : String)
  | profile (p : Profile)
  | units (u : UnitSystem)
  | elevation (b : Bool)
  | debug (b : Bool)
  | maxPaths (n : UInt32)
  | maxWeightFactor (x : Float)
  | maxShareFactor (x : Float)
  | departure (t : Instant)
  | arriveBy (b : Bool)
  | limitSolutions (n : UInt32)
  | maxProfileDuration (n : UInt32)
  | limitStreetSeconds (n : UInt32)
  | usePareto (b : Bool)
  | betaTransfers (x : Float)
  | accessMode (mode : String)
  | egressMode (mode : String)
  | betaAccessTime (x : Float)
  | betaEgressTime (x : Float)
  | maxVisitedNodes (n : UInt32)
  | customModel (text : String)
  | vehicle (name : String)

namespace Setting

def key : Setting → String
  | .point _ => "point"
  | .profile _ => "profile"
  | .units _ => "use_miles"
  | .elevation _ => "elevation"
  | .debug _ => "debug"
  | .maxPaths _ => "alternative_route.max_paths"
  | .maxWeightFactor _ => "alternative_route.max_weight_factor"
  | .maxShareFactor _ => "alternative_route.max_share_factor"
  | .departure _ => "pt.earliest_departure_time"
  | .arriveBy _ => "pt.arrive_by"
  | .limitSolutions _ => "pt.limit_solutions"
  | .maxProfileDuration _ => "pt.max_profile_duration"
  | .limitStreetSeconds _ => "pt.limit_street_time"
  | .usePareto _ => "pt.use_pareto"
  | .betaTransfers _ => "pt.beta_transfers"
  | .accessMode _ => "pt.access_mode"
  | .egressMode _ => "pt.egress_mode"
  | .betaAccessTime _ => "pt.beta_access_time"
  | .betaEgressTime _ => "pt.beta_egress_time"
  | .maxVisitedNodes _ => "pt.max_visited_nodes"
  | .customModel _ => "custom_model"
  | .vehicle _ => "vehicle"

def value : Setting → String
  | .point text => text
  | .profile p => p.name
  | .units u => Url.Form.flag u.useMiles
  | .elevation b => Url.Form.flag b
  | .debug b => Url.Form.flag b
  | .maxPaths n => Url.Form.count n
  | .maxWeightFactor x => Decimal.plain x
  | .maxShareFactor x => Decimal.plain x
  | .departure t => t.zulu
  | .arriveBy b => Url.Form.flag b
  | .limitSolutions n => Url.Form.count n
  | .maxProfileDuration n => Url.Form.count n
  | .limitStreetSeconds n => Url.Form.count n
  | .usePareto b => Url.Form.flag b
  | .betaTransfers x => Decimal.plain x
  | .accessMode mode => mode
  | .egressMode mode => mode
  | .betaAccessTime x => Decimal.plain x
  | .betaEgressTime x => Decimal.plain x
  | .maxVisitedNodes n => Url.Form.count n
  | .customModel text => text
  | .vehicle name => name

def pair (s : Setting) : Url.Form.Pair := (s.key, s.value)

def flag? (text : String) : Option Bool :=
  if text = "true" ∨ text = "1" then some true
  else if text = "false" ∨ text = "0" then some false
  else none

def count? (text : String) : Option UInt32 := Decimal.readCount (Text.trim text.toList)

def number? (text : String) : Option Float := Decimal.readFloat (Text.trim text.toList)

/-- How the value behind a key is read; other keys are no settings. -/
def reader? (key : String) : Option (String → Option Setting) :=
  match key with
  | "point" => some fun v => some (.point v)
  | "profile" => some fun v => (Profile.ofName? v).map .profile
  | "use_miles" => some fun v => (flag? v).map fun b => .units (.ofUseMiles b)
  | "elevation" => some fun v => (flag? v).map .elevation
  | "debug" => some fun v => (flag? v).map .debug
  | "alternative_route.max_paths" => some fun v => (count? v).map .maxPaths
  | "alternative_route.max_weight_factor" => some fun v => (number? v).map .maxWeightFactor
  | "alternative_route.max_share_factor" => some fun v => (number? v).map .maxShareFactor
  | "pt.earliest_departure_time" => some fun v => (Instant.parse? v).map .departure
  | "pt.arrive_by" => some fun v => (flag? v).map .arriveBy
  | "pt.limit_solutions" => some fun v => (count? v).map .limitSolutions
  | "pt.max_profile_duration" => some fun v => (count? v).map .maxProfileDuration
  | "pt.limit_street_time" => some fun v => (count? v).map .limitStreetSeconds
  | "pt.use_pareto" => some fun v => (flag? v).map .usePareto
  | "pt.beta_transfers" => some fun v => (number? v).map .betaTransfers
  | "pt.access_mode" => some fun v => some (.accessMode v)
  | "pt.egress_mode" => some fun v => some (.egressMode v)
  | "pt.beta_access_time" => some fun v => (number? v).map .betaAccessTime
  | "pt.beta_egress_time" => some fun v => (number? v).map .betaEgressTime
  | "pt.max_visited_nodes" => some fun v => (count? v).map .maxVisitedNodes
  | "custom_model" => some fun v => some (.customModel v)
  | "vehicle" => some fun v => some (.vehicle v)
  | _ => none

/-- The setting that a pair makes, if its key is one of a setting. -/
def ofPair (p : Url.Form.Pair) : Except LinkError (Option Setting) :=
  match reader? p.1 with
  | none => .ok none
  | some read =>
    match read p.2 with
    | some s => .ok (some s)
    | none => .error (.invalidParameter p.1 p.2)

end Setting
end Link
end Itinerary

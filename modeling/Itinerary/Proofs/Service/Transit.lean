import Itinerary.Proofs.Instant.Reading
import Itinerary.Proofs.Json.Record
import Itinerary.Proofs.Link.Setting
import Itinerary.Proofs.Text.Split
import Itinerary.Proofs.Url.Target
import Itinerary.Service.Routing

/-! What a transit request says in its query: all of the payload, and in a fixed order. -/
namespace Itinerary

/-- What the query of a transit request says. There is no departure where its text is no instant's. -/
structure TransitQuery where
  key : Option String
  points : List Coordinate
  profile : String
  elevation : Bool
  debug : Bool
  departure : Option Instant
  arriveBy : Bool
  limitSolutions : UInt32
  maxProfileDuration : UInt32
  limitStreetSeconds : UInt32
  usePareto : Bool
  betaTransfers : Float
  accessMode : String
  egressMode : String
  betaAccessTime : Float
  betaEgressTime : Float
  maxVisitedNodes : UInt32

namespace TransitQuery
open Link.Setting (flag? count? number?)

/-- Two numbers with a comma between, whatever their range. -/
def pointOf? (text : String) : Option Coordinate := do
  let (lat, lng) ← Text.splitFirst ',' text.toList
  return ⟨← Decimal.readFloat lat, ← Decimal.readFloat lng⟩

/-- What the pairs of a query say: a value under each name, and points under one name in order. -/
def read? (pairs : List Url.Form.Pair) : Option TransitQuery := do
  return {
    key := pairs.lookup "key"
    points := ← (pairs.filter (·.1 == "point")).mapM (pointOf? ·.2)
    profile := ← pairs.lookup "profile"
    elevation := ← (pairs.lookup "elevation").bind flag?
    debug := ← (pairs.lookup "debug").bind flag?
    departure := (pairs.lookup "pt.earliest_departure_time").bind Instant.parse?
    arriveBy := ← (pairs.lookup "pt.arrive_by").bind flag?
    limitSolutions := ← (pairs.lookup "pt.limit_solutions").bind count?
    maxProfileDuration := ← (pairs.lookup "pt.max_profile_duration").bind count?
    limitStreetSeconds := ← (pairs.lookup "pt.limit_street_time").bind count?
    usePareto := ← (pairs.lookup "pt.use_pareto").bind flag?
    betaTransfers := ← (pairs.lookup "pt.beta_transfers").bind number?
    accessMode := ← pairs.lookup "pt.access_profile"
    egressMode := ← pairs.lookup "pt.egress_profile"
    betaAccessTime := ← (pairs.lookup "pt.beta_access_time").bind number?
    betaEgressTime := ← (pairs.lookup "pt.beta_egress_time").bind number?
    maxVisitedNodes := ← (pairs.lookup "pt.max_visited_nodes").bind count? }

/-- The names behind those of the points, in their order. -/
def settingNames : List String := ["profile", "elevation", "debug", "pt.earliest_departure_time",
  "pt.arrive_by", "pt.limit_solutions", "pt.max_profile_duration", "pt.limit_street_time", "pt.use_pareto",
  "pt.beta_transfers", "pt.access_profile", "pt.egress_profile", "pt.beta_access_time",
  "pt.beta_egress_time", "pt.max_visited_nodes"]

/-- All the names in a query with so many points. -/
def names (keyed : Bool) (points : Nat) : List String :=
  (if keyed then ["key"] else []) ++ (List.replicate points "point" ++ settingNames)

private theorem pointOf?_literal (c : Coordinate) : pointOf? c.literal = some c := by
  have text : c.literal.toList = (Decimal.plain c.lat).toList ++ ',' :: (Decimal.plain c.lng).toList := by
    rw [Coordinate.literal, String.toList_append, String.toList_append, List.append_assoc]
    rfl
  rw [pointOf?, text, Text.splitFirst_append (Decimal.comma_not_mem_plain c.lat)]
  simp only [bind, Option.bind, Decimal.readFloat_plain]
  rfl

/-- No name is one of an alternative route. -/
private theorem not_alternative {keyed : Bool} {points : Nat} :
    ∀ name ∈ names keyed points, ¬ "alternative_route".toList <+: name.toList := by
  intro name member
  rcases List.mem_append.mp member with key | member
  · split at key
    · rw [List.mem_singleton.mp key]
      decide
    · cases key
  · rcases List.mem_append.mp member with point | fixed
    · rw [List.eq_of_mem_replicate point]
      decide
    · have all : ∀ name ∈ settingNames, ¬ "alternative_route".toList <+: name.toList := by decide
      exact all name fixed

section
variable (key : Option String) (p : Payload) (t : TransitParams)

/-- The pair of the key, if there is one. -/
def keyPairs : List Url.Form.Pair := (key.map ("key", ·)).toList

/-- The pairs behind those of the points. -/
def settingPairs : List Url.Form.Pair := [("profile", p.profile.name),
    ("elevation", Url.Form.flag p.elevation),
    ("debug", Url.Form.flag p.debug),
    ("pt.earliest_departure_time", t.departure.withOffset),
    ("pt.arrive_by", Url.Form.flag t.arriveBy),
    ("pt.limit_solutions", Url.Form.count t.limitSolutions),
    ("pt.max_profile_duration", Url.Form.count t.maxProfileDuration),
    ("pt.limit_street_time", Url.Form.count t.limitStreetSeconds),
    ("pt.use_pareto", Url.Form.flag t.usePareto),
    ("pt.beta_transfers", Decimal.plain t.betaTransfers),
    ("pt.access_profile", t.accessMode),
    ("pt.egress_profile", t.egressMode),
    ("pt.beta_access_time", Decimal.plain t.betaAccessTime),
    ("pt.beta_egress_time", Decimal.plain t.betaEgressTime),
    ("pt.max_visited_nodes", Url.Form.count t.maxVisitedNodes)]

private theorem transitPairs_eq : RoutingService.transitPairs p t =
    p.points.map (fun c => ("point", c.literal)) ++ settingPairs p t := rfl

private theorem map_fst_pairs :
    (keyPairs key ++ RoutingService.transitPairs p t).map Prod.fst = names key.isSome p.points.length := by
  have points : (p.points.map fun c => ("point", c.literal)).map Prod.fst =
      List.replicate p.points.length "point" := by
    rw [List.map_map]
    exact List.map_const' ..
  have front : (keyPairs key).map Prod.fst = if key.isSome then ["key"] else [] := by
    cases key <;> rfl
  rw [List.map_append, front, RoutingService.transitPairs, List.map_append, points]
  rfl

private theorem lookup_pairs {name : String} (hk : name ≠ "key") (hp : name ≠ "point") :
    (keyPairs key ++ RoutingService.transitPairs p t).lookup name = (settingPairs p t).lookup name := by
  have front : (keyPairs key).lookup name = none := by
    cases key <;> simp [keyPairs, hk]
  have points : (p.points.map fun c => ("point", c.literal)).lookup name = none := by
    simpa [List.lookup_eq_none_iff] using fun _ _ => hp
  rw [transitPairs_eq, List.lookup_append, List.lookup_append, front, points]
  rfl

private theorem lookup_key : (keyPairs key ++ RoutingService.transitPairs p t).lookup "key" = key := by
  have points : (p.points.map fun c => ("point", c.literal)).lookup "key" = none := by
    simp [List.lookup_eq_none_iff]
  cases key with
  | none =>
    rw [transitPairs_eq, ← List.append_assoc, List.lookup_append, List.lookup_append, points]
    rfl
  | some key => rfl

private theorem mapM_points : ((keyPairs key ++ RoutingService.transitPairs p t).filter (·.1 == "point")).mapM
    (pointOf? ·.2) = some p.points := by
  have front : (keyPairs key).filter (·.1 == "point") = [] := by
    cases key <;> rfl
  have points : (p.points.map fun c => ("point", c.literal)).filter (·.1 == "point") =
      p.points.map fun c => ("point", c.literal) := by
    simp
  have behind : (settingPairs p t).filter (·.1 == "point") = [] := by
    simp [settingPairs]
  rw [transitPairs_eq, List.filter_append, List.filter_append, front, points, behind, List.nil_append,
    List.append_nil, Json.mapM_eq_some, List.map_map]
  exact List.map_congr_left fun c _ => pointOf?_literal c

/-- What a payload says, with the key of a service and the departure as it is read. -/
def said (departure : Option Instant) : TransitQuery where
  key := key
  points := p.points
  profile := p.profile.name
  elevation := p.elevation
  debug := p.debug
  departure := departure
  arriveBy := t.arriveBy
  limitSolutions := t.limitSolutions
  maxProfileDuration := t.maxProfileDuration
  limitStreetSeconds := t.limitStreetSeconds
  usePareto := t.usePareto
  betaTransfers := t.betaTransfers
  accessMode := t.accessMode
  egressMode := t.egressMode
  betaAccessTime := t.betaAccessTime
  betaEgressTime := t.betaEgressTime
  maxVisitedNodes := t.maxVisitedNodes

private theorem read?_pairs : read? (keyPairs key ++ RoutingService.transitPairs p t) =
    some (said key p t (Instant.parse? t.departure.withOffset)) := by
  have value (name : String) (hk : name ≠ "key") (hp : name ≠ "point") :=
    lookup_pairs key p t hk hp
  simp only [read?, lookup_key, mapM_points]
  simp [value, settingPairs, List.lookup, Link.Setting.flag?_flag, Link.Setting.count?_count,
    Link.Setting.number?_plain, said]

end

end TransitQuery

namespace RoutingService
open TransitQuery
variable {s : RoutingService} {endpoint : Url} {p : Payload} {t : TransitParams}

private theorem request_of_transit (plan : p.plan = .transit t) :
    s.request endpoint p = ⟨.get, ((s.keyed endpoint).appendPairs (transitPairs p t)).target, ""⟩ := by
  rw [request, plan]

/-- The pairs of the key and of the payload are all that stands in the query. -/
private theorem query_of_transit (none : endpoint.query = none) :
    ((s.keyed endpoint).appendPairs (transitPairs p t)).query =
      some (Url.Form.encode (keyPairs s.apiKey ++ transitPairs p t)) := by
  rw [keyed]
  cases s.apiKey with
  | none => simp [Url.appendPairs, none, Url.Form.encode, keyPairs]
  | some key => simp [Url.appendPairs, none, Url.Form.encode, keyPairs, Url.Form.append_append]

private theorem path_of_transit :
    ((s.keyed endpoint).appendPairs (transitPairs p t)).path = endpoint.path := by
  rw [keyed]
  cases s.apiKey <;> rfl

/-- A transit request of a service whose address has no query is a request for its resource, with a query
that says under its names, in their order, the key if there is one and all of the payload: the points, the
name of the profile, every flag, number and mode, and the departure if its year has four digits and it is in
no leap second but one that ends a minute. Nothing is said of alternatives. -/
theorem transit_request_reread (base : '?' ∉ s.baseUrl.toList) (he : s.endpoint = .ok endpoint)
    (plan : p.plan = .transit t) : ∃ target query,
    s.request endpoint p = ⟨.get, target, ""⟩ ∧
    Text.splitFirst '?' target.toList = some (endpoint.path, query) ∧
    (Url.Form.decode query).map Prod.fst = names s.apiKey.isSome p.points.length ∧
    (∀ pair ∈ Url.Form.decode query, ¬ "alternative_route".toList <+: pair.1.toList) ∧
    read? (Url.Form.decode query) =
      some (said s.apiKey p t (Instant.parse? t.departure.withOffset)) ∧
    (Instant.parse? t.departure.withOffset = some t.departure ↔ t.departure.Printable) := by
  obtain ⟨path, none⟩ := Url.of_below he base (by decide)
  have fst := map_fst_pairs s.apiKey p t
  refine ⟨_, Url.Form.encode (keyPairs s.apiKey ++ transitPairs p t), request_of_transit plan, ?_, ?_, ?_, ?_,
    Instant.parse?_withOffset_iff⟩
  · rw [← path_of_transit (s := s) (p := p) (t := t)] at path ⊢
    exact Url.splitFirst_target path (query_of_transit none)
  · rw [Url.Form.decode_encode, fst]
  · intro pair member
    rw [Url.Form.decode_encode] at member
    exact not_alternative pair.1 (fst ▸ List.mem_map_of_mem member)
  · rw [Url.Form.decode_encode, read?_pairs]

/-- A key, a profile and modes with characters that mean something to a query. -/
theorem nightTrain_reread :
    let s : RoutingService := { apiKey := some "a&b=c?" }
    let t : TransitParams := ⟨⟨1700000000, 250000000⟩, true, 4, 10, 1440, false, 1440000, "fuß + rad", "a=b&c",
      1.5, 0.1, 1000000⟩
    let p : Payload := ⟨.custom "näher#50%", [⟨50.7, 7.1⟩, ⟨52.5, 187.25⟩], .transit t, true, .metric, true, false⟩
    '?' ∉ s.baseUrl.toList ∧ s.endpoint = .ok ⟨"/route".toList, none⟩ ∧ p.plan = .transit t ∧
    ∃ target query, s.request ⟨"/route".toList, none⟩ p = ⟨.get, target, ""⟩ ∧
      Text.splitFirst '?' target.toList = some ("/route".toList, query) ∧
      (Url.Form.decode query).map Prod.fst = ["key", "point", "point"] ++ settingNames ∧
      read? (Url.Form.decode query) = some (said (some "a&b=c?") p t (some t.departure)) := by
  intro s t p
  have base : '?' ∉ s.baseUrl.toList := by decide
  have at_route : s.endpoint = .ok ⟨"/route".toList, none⟩ := by decide
  have printable : t.departure.Printable := ⟨by decide, by decide⟩
  obtain ⟨target, query, request, parts, order, -, read, departure⟩ :=
    transit_request_reread (p := p) base at_route rfl
  rw [departure.mpr printable] at read
  exact ⟨base, at_route, rfl, target, query, request, parts, order, read⟩

end RoutingService
end Itinerary

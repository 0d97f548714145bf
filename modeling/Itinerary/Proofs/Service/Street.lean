import Itinerary.Proofs.Json.Exact
import Itinerary.Proofs.Payload
import Itinerary.Service.Routing

/-! What the body of a street request says once it is decoded: what the request says, and nothing of
transit. -/
namespace Itinerary

namespace CustomModel

/-- A custom model that has been read stands for something throughout. -/
private theorem isUsable_of_parse {text : String} {model : Json} (h : parse text = .ok model) :
    model.isUsable = true := by
  rw [parse] at h
  split at h
  · cases h
  · split at h
    · cases h
    · split at h
      · rename_i usable
        cases h
        exact Json.isUsable_of_usable? usable
      · cases h

end CustomModel

namespace Payload

/-- All the doubles of a request. -/
def floats (p : Payload) : List Float :=
  p.points.flatMap (fun c => [c.lat, c.lng]) ++
  (p.plan.alternatives.elim [] fun a => [a.maxWeightFactor, a.maxShareFactor]) ++
  (p.plan.transit?.elim [] fun t => [t.betaTransfers, t.betaAccessTime, t.betaEgressTime]) ++
  p.plan.customModel.elim [] Json.floats

section
variable {p : Payload}

private theorem mem_floats_of_point {c : Coordinate} (h : c ∈ p.points) :
    c.lat ∈ p.floats ∧ c.lng ∈ p.floats := by
  have here : ∀ x ∈ [c.lat, c.lng], x ∈ p.floats := fun x hx => by
    simp only [floats, List.append_assoc, List.mem_append, List.mem_flatMap]
    exact .inl ⟨c, h, hx⟩
  exact ⟨here _ (by simp), here _ (by simp)⟩

private theorem mem_floats_of_alternatives {a : Alternatives} (h : p.plan.alternatives = some a) :
    a.maxWeightFactor ∈ p.floats ∧ a.maxShareFactor ∈ p.floats := by
  simp [floats, h]

private theorem mem_floats_of_customModel {model : Json} {x : Float} (h : p.plan.customModel = some model)
    (hx : x ∈ model.floats) : x ∈ p.floats := by
  simp [floats, h, hx]

end

/-- The names of the members that tell of alternatives. -/
def alternativeNames : List String := ["algorithm", "alternative_route.max_paths",
  "alternative_route.max_weight_factor", "alternative_route.max_share_factor"]

/-- What members say of a street request. The members for alternatives are all there with its limits, or
none is; a custom model comes with the prepared graph switched off. -/
structure Posted (p : Payload) (members : List (String × Json)) : Prop where
  nodup : (members.map Prod.fst).Nodup
  profile : members.lookup "profile" = some (.str p.profile.name)
  points : members.lookup "points" = some (.arr (p.points.map fun c => .arr [.float c.lng, .float c.lat]))
  encoded : members.lookup "points_encoded" = some (.bool true)
  elevation : members.lookup "elevation" = some (.bool p.elevation)
  debug : members.lookup "debug" = some (.bool p.debug)
  alternatives : ∀ a, p.plan.alternatives = some a → 1 < a.maxPaths →
    alternativeNames.map (fun name => members.lookup name) = [some (.str "alternative_route"),
      some (.int a.maxPaths.toNat), some (.float a.maxWeightFactor), some (.float a.maxShareFactor)]
  direct : (∀ a, p.plan.alternatives = some a → ¬ 1 < a.maxPaths) →
    alternativeNames.map (fun name => members.lookup name) = [none, none, none, none]
  customModel : members.lookup "custom_model" = p.plan.customModel
  prepared : members.lookup "ch.disable" = if p.plan.customModel.isSome then some (.bool true) else none
  street : ∀ m ∈ members, ¬ "pt.".toList <+: m.1.toList ∧ m.1 ≠ "transit"

end Payload

namespace RoutingService
variable (p : Payload)

/-- The members for alternatives, with every double taken to be finite. -/
def limitMembers (a : Alternatives) : List (String × Json) := [
  ("algorithm", .str "alternative_route"),
  ("alternative_route.max_paths", .int a.maxPaths.toNat),
  ("alternative_route.max_weight_factor", .float a.maxWeightFactor),
  ("alternative_route.max_share_factor", .float a.maxShareFactor)]

/-- The members of the body, with every double taken to be finite. -/
def streetMembers : List (String × Json) :=
  [("profile", Json.str p.profile.name),
    ("points", Json.arr (p.points.map fun c => .arr [.float c.lng, .float c.lat])),
    ("points_encoded", Json.bool true),
    ("elevation", Json.bool p.elevation),
    ("debug", Json.bool p.debug)] ++
  (if p.fullPathDetails then [("details", Json.arr (fullDetails.map .str))] else []) ++
  ((p.plan.alternatives.filter Alternatives.enabled).map limitMembers).getD [] ++
  Json.member? "custom_model" id p.plan.customModel ++
  (if p.plan.customModel.isSome then [("ch.disable", Json.bool true)] else [])

/-- The names that a member may have, in their order. -/
def streetNames : List String := ["profile", "points", "points_encoded", "elevation", "debug", "details",
  "algorithm", "alternative_route.max_paths", "alternative_route.max_weight_factor",
  "alternative_route.max_share_factor", "custom_model", "ch.disable"]

private theorem names_sublist : ((streetMembers p).map Prod.fst).Sublist streetNames := by
  rw [streetMembers]
  cases p.fullPathDetails <;> cases p.plan.alternatives.filter Alternatives.enabled <;>
    cases p.plan.customModel <;> exact of_decide_eq_true rfl

private theorem posted_streetMembers : p.Posted (streetMembers p) where
  nodup := List.Nodup.sublist (names_sublist p) (by decide)
  profile := rfl
  points := rfl
  encoded := rfl
  elevation := rfl
  debug := rfl
  alternatives a ha enabled := by
    have kept : p.plan.alternatives.filter Alternatives.enabled = some a := by
      rw [ha]
      exact Option.filter_some_pos (decide_eq_true enabled)
    rw [streetMembers, kept]
    cases p.fullPathDetails <;> rfl
  direct none := by
    have dropped : p.plan.alternatives.filter Alternatives.enabled = .none := by
      cases ha : p.plan.alternatives with
      | none => rfl
      | some a => exact Option.filter_some_neg (by simpa [Alternatives.enabled] using none a ha)
    rw [streetMembers, dropped]
    cases p.fullPathDetails <;> cases p.plan.customModel <;> rfl
  customModel := by
    rw [streetMembers]
    cases p.fullPathDetails <;> cases p.plan.alternatives.filter Alternatives.enabled <;>
      cases p.plan.customModel <;> rfl
  prepared := by
    rw [streetMembers]
    cases p.fullPathDetails <;> cases p.plan.alternatives.filter Alternatives.enabled <;>
      cases p.plan.customModel <;> rfl
  street m member := by
    have all : ∀ name ∈ streetNames, ¬ "pt.".toList <+: name.toList ∧ name ≠ "transit" := by decide
    exact all m.1 ((names_sublist p).mem (List.mem_map_of_mem member))

variable {p}

/-- As a double that is not finite would be written as null. -/
private theorem streetBody_eq (finite : ∀ x ∈ p.floats, x.isFinite = true) :
    streetBody p = .obj (streetMembers p) := by
  have double {x : Float} (member : x ∈ p.floats) : Json.ofFloat x = .float x := if_pos (finite x member)
  have points : (p.points.map fun c => Json.arr [.ofFloat c.lng, .ofFloat c.lat]) =
      p.points.map fun c => .arr [.float c.lng, .float c.lat] := by
    refine List.map_congr_left fun c hc => ?_
    obtain ⟨lat, lng⟩ := Payload.mem_floats_of_point hc
    rw [double lat, double lng]
  have alternatives : (p.plan.alternatives.filter Alternatives.enabled).map alternativesMembers =
      (p.plan.alternatives.filter Alternatives.enabled).map limitMembers := by
    refine Option.map_congr fun a ha => ?_
    obtain ⟨weight, share⟩ := Payload.mem_floats_of_alternatives (Option.filter_eq_some_iff.mp ha).1
    rw [alternativesMembers, limitMembers, double weight, double share]
  rw [streetBody, points, alternatives, streetMembers]

/-- The values of the members are usable if the custom model is. -/
private theorem isUsable_streetMembers
    (usable : ∀ model, p.plan.customModel = some model → model.isUsable = true) :
    (Json.obj (streetMembers p)).isUsable = true := by
  have model : (Json.member? "custom_model" id p.plan.customModel).all (·.2.isUsable) = true := by
    cases h : p.plan.customModel with
    | none => rfl
    | some model => simp [Json.member?, usable model h]
  rw [Json.isUsable, Json.membersUsable_eq]
  simp only [streetMembers, List.all_append, model, Bool.and_eq_true]
  refine ⟨⟨⟨⟨?_, ?_⟩, ?_⟩, trivial⟩, ?_⟩
  · simp [Json.isUsable, Json.areUsable_eq]
  · cases p.fullPathDetails <;> rfl
  · cases p.plan.alternatives.filter Alternatives.enabled <;> rfl
  · cases p.plan.customModel <;> rfl

private theorem floats_streetMembers : (Json.obj (streetMembers p)).floats =
    p.points.flatMap (fun c => [c.lng, c.lat]) ++
    ((p.plan.alternatives.filter Alternatives.enabled).elim [] fun a => [a.maxWeightFactor, a.maxShareFactor]) ++
    p.plan.customModel.elim [] Json.floats := by
  have points : Json.itemFloats (p.points.map fun c => .arr [.float c.lng, .float c.lat]) =
      p.points.flatMap fun c => [c.lng, c.lat] := by
    rw [Json.itemFloats_eq, List.flatMap_map]
    rfl
  have details : (if p.fullPathDetails then [("details", Json.arr (fullDetails.map .str))] else []).flatMap
      (·.2.floats) = [] := by
    cases p.fullPathDetails <;> rfl
  have limits : (((p.plan.alternatives.filter Alternatives.enabled).map limitMembers).getD []).flatMap
      (·.2.floats) = (p.plan.alternatives.filter Alternatives.enabled).elim [] fun a =>
        [a.maxWeightFactor, a.maxShareFactor] := by
    cases p.plan.alternatives.filter Alternatives.enabled <;> rfl
  have model : (Json.member? "custom_model" id p.plan.customModel).flatMap (·.2.floats) =
      p.plan.customModel.elim [] Json.floats := by
    cases p.plan.customModel with
    | none => rfl
    | some model => exact List.append_nil model.floats
  have prepared : (if p.plan.customModel.isSome then [("ch.disable", Json.bool true)] else []).flatMap
      (·.2.floats) = [] := by
    cases p.plan.customModel <;> rfl
  rw [Json.floats, Json.memberFloats_eq, streetMembers]
  simp [details, limits, model, prepared, points, Json.floats]

private theorem finite_streetMembers (finite : ∀ x ∈ p.floats, x.isFinite = true) :
    ∀ x ∈ (Json.obj (streetMembers p)).floats, x.isFinite = true := by
  intro x hx
  refine finite x ?_
  rw [floats_streetMembers, List.mem_append, List.mem_append, List.mem_flatMap] at hx
  rcases hx with (⟨c, hc, hx⟩ | hx) | hx
  · obtain ⟨lat, lng⟩ := Payload.mem_floats_of_point hc
    rcases List.mem_pair.mp hx with rfl | rfl
    · exact lng
    · exact lat
  · cases ha : p.plan.alternatives.filter Alternatives.enabled with
    | none => simp [ha] at hx
    | some a =>
      obtain ⟨weight, share⟩ := Payload.mem_floats_of_alternatives (Option.filter_eq_some_iff.mp ha).1
      rw [ha] at hx
      rcases List.mem_pair.mp hx with rfl | rfl
      · exact weight
      · exact share
  · cases hm : p.plan.customModel with
    | none => simp [hm] at hx
    | some model =>
      rw [hm] at hx
      exact Payload.mem_floats_of_customModel hm hx

variable {route : Route} {options : Options} {now : Instant} (s : RoutingService) (endpoint : Url)

private theorem request_of_street (plan : p.plan.transit? = none) :
    s.request endpoint p = ⟨.post, (s.keyed endpoint).target, (streetBody p).render⟩ := by
  rw [request]
  cases h : p.plan with
  | street _ _ => rfl
  | transit t =>
    rw [h] at plan
    cases plan

/-- A street request that was built from a route and options is posted with a body that is decoded to an
object which says what the request says. There are always limits for alternatives in such a request, and a
custom model if the options have one. -/
theorem street_body_posted (built : Payload.build route options now = .ok p) (plan : p.plan.transit? = none)
    (finite : ∀ x ∈ p.floats, x.isFinite = true) : ∃ body members,
    s.request endpoint p = ⟨.post, (s.keyed endpoint).target, body⟩ ∧
    Json.decode? body = some (.obj members) ∧
    p.Posted members ∧
    p.plan.alternatives = some options.alternatives ∧
    (p.plan.customModel.isSome = true ↔ options.customModel.isSome = true) := by
  have said := Payload.says_of_build built
  have street : options.profile ≠ .publicTransit := fun transit => by
    have planned := said.transit_iff.mpr transit
    rw [plan] at planned
    cases planned
  have usable (model : Json) (h : p.plan.customModel = some model) : model.isUsable = true := by
    obtain ⟨text, _, parsed⟩ := said.customModel model h
    exact CustomModel.isUsable_of_parse parsed
  obtain ⟨limits, some⟩ := Option.isSome_iff_exists.mp (said.alternatives_iff.mpr street)
  refine ⟨(streetBody p).render, streetMembers p, request_of_street s endpoint plan, ?_, posted_streetMembers p, ?_, ?_⟩
  · rw [streetBody_eq finite]
    exact Json.decode?_render (isUsable_streetMembers usable) (finite_streetMembers finite)
  · rw [some, said.alternatives limits some]
  · rw [said.customModel_iff]
    exact and_iff_left street

/-- A profile and a custom model with names that a request could take for its own. -/
def shortcut : Options where
  profile := .custom "bike \"pt.\""
  alternatives := ⟨3, 1.5, 0.25⟩
  customModel := some "\x7b \"transit\": \x7b\"pt.beta\": [0.1, 7, true]\x7d, \"ch.disable\": false \x7d"

/-- The request between three places with these options is as it should be. -/
def shortcutFits (p : Payload) : Bool :=
  decide (p.plan.transit?.isNone = true ∧ p.floats.all Float.isFinite = true ∧
    p.points.map (fun c => (c.lng, c.lat)) = [(7.1, 50.7), (7, 50.9), (-7.25, 51)] ∧
    p.plan.customModel.map Json.render =
      some "\x7b\"ch.disable\":false,\"transit\":\x7b\"pt.beta\":[0.1,7,true]\x7d\x7d")

theorem shortcut_posted : ∃ p body members,
    Payload.build (.ofInputs ["50.7,7.1", "50.9,7", "51,-7.25"]) shortcut ⟨0, 0⟩ = .ok p ∧
    p.plan.transit? = none ∧ (∀ x ∈ p.floats, x.isFinite = true) ∧
    ({} : RoutingService).request ⟨"/route".toList, none⟩ p = ⟨.post, "/route", body⟩ ∧
    Json.decode? body = some (.obj members) ∧ p.Posted members ∧
    members.lookup "points" = some (.arr [.arr [.float 7.1, .float 50.7], .arr [.float 7, .float 50.9],
      .arr [.float (-7.25), .float 51]]) ∧
    Payload.alternativeNames.map (fun name => members.lookup name) =
      [some (.str "alternative_route"), some (.int 3), some (.float 1.5), some (.float 0.25)] ∧
    (members.lookup "custom_model").map Json.render =
      some "\x7b\"ch.disable\":false,\"transit\":\x7b\"pt.beta\":[0.1,7,true]\x7d\x7d" := by
  have fits : (Payload.build (.ofInputs ["50.7,7.1", "50.9,7", "51,-7.25"]) shortcut ⟨0, 0⟩).toOption.any
      shortcutFits = true := by
    decide +kernel
  cases built : Payload.build (.ofInputs ["50.7,7.1", "50.9,7", "51,-7.25"]) shortcut ⟨0, 0⟩ with
  | error _ =>
    rw [built] at fits
    cases fits
  | ok p =>
    rw [built] at fits
    obtain ⟨none, finite, points, model⟩ := of_decide_eq_true fits
    have street : p.plan.transit? = .none := Option.isNone_iff_eq_none.mp none
    have finite : ∀ x ∈ p.floats, x.isFinite = true := List.all_eq_true.mp finite
    obtain ⟨body, members, request, decoded, posted, some, -⟩ :=
      street_body_posted {} ⟨"/route".toList, .none⟩ built street finite
    have listed : p.points.map (fun c => Json.arr [.float c.lng, .float c.lat]) =
        [(7.1, 50.7), (7, 50.9), (-7.25, 51)].map fun c => .arr [.float c.1, .float c.2] := by
      rw [← points, List.map_map]
      rfl
    refine ⟨p, body, members, rfl, street, finite, request, decoded, posted, ?_, ?_, ?_⟩
    · rw [posted.points, listed]
      rfl
    · exact posted.alternatives _ some (by decide)
    · rw [posted.customModel, model]

end RoutingService
end Itinerary

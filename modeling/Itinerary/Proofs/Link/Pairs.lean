import Itinerary.Link.Basic
import Mathlib.Data.List.Induction

/-! What is read of the pairs of a query. Every option goes back to the last pair with its key, so that the
order of pairs with different keys does not matter. -/
namespace Itinerary.Link
open Url.Form (Pair)

namespace Setting

/-- The key is one of a setting. -/
def isKey (key : String) : Bool := (reader? key).isSome

/-- The setting that a pair makes, if it makes one. -/
def ofPair? (p : Pair) : Option Setting := (reader? p.1).bind (· p.2)

/-- The key is one of a setting, but the value is none for it. -/
def unreadable (p : Pair) : Bool := isKey p.1 && (ofPair? p).isNone

private theorem ofPair_eq (p : Pair) :
    ofPair p = if unreadable p then .error (.invalidParameter p.1 p.2) else .ok (ofPair? p) := by
  rw [ofPair, unreadable, isKey, ofPair?]
  cases reader? p.1 with
  | none => rfl
  | some read => cases hs : read p.2 <;> simp [hs]

private theorem key_of_ofPair? {p : Pair} {s : Setting} (h : ofPair? p = some s) : s.key = p.1 := by
  obtain ⟨key, value⟩ := p
  obtain ⟨read, hr, hs⟩ := Option.bind_eq_some_iff.mp h
  dsimp only at hr hs ⊢
  rw [reader?.eq_def] at hr
  split at hr <;> cases hr
  all_goals
    first
    | cases hs
      rfl
    | obtain ⟨_, _, rfl⟩ := Option.map_eq_some_iff.mp hs
      rfl

theorem ofPair?_eq_none {p : Pair} : ofPair? p = none ↔ isKey p.1 = false ∨ unreadable p = true := by
  rw [unreadable, isKey, ofPair?]
  cases reader? p.1 <;> simp

private theorem mapM_ofPair (pairs : List Pair) : pairs.mapM ofPair =
    match pairs.find? unreadable with
    | some p => .error (.invalidParameter p.1 p.2)
    | none => .ok (pairs.map ofPair?) := by
  induction pairs with
  | nil => rfl
  | cons p pairs ih =>
    rw [List.mapM_cons, ofPair_eq, ih, List.find?_cons]
    cases unreadable p with
    | true => rfl
    | false => cases pairs.find? unreadable <;> rfl

end Setting

/-- Every value can be read as its key asks for. -/
def Readable (pairs : List Pair) : Prop := ∀ p ∈ pairs, Setting.unreadable p = false

/-- What the readable among the pairs make together. -/
def draftOf (pairs : List Pair) : Draft := (pairs.filterMap Setting.ofPair?).foldl Draft.set {}

/-- The first value that cannot be read is what is found fault with; else all settings are entered. -/
theorem ofPairs_eq (pairs : List Pair) (default : Profile) : ofPairs pairs default =
    match pairs.find? Setting.unreadable with
    | some p => .error (.invalidParameter p.1 p.2)
    | none => (draftOf pairs).finish default := by
  rw [ofPairs, Setting.mapM_ofPair]
  cases pairs.find? Setting.unreadable with
  | some p => rfl
  | none =>
    change (((pairs.map Setting.ofPair?).filterMap id).foldl Draft.set {}).finish default = _
    rw [List.filterMap_map]
    rfl

theorem find?_unreadable {pairs : List Pair} : pairs.find? Setting.unreadable = none ↔ Readable pairs := by
  rw [List.find?_eq_none]
  exact forall₂_congr fun p _ => iff_of_eq (Bool.not_eq_true _)

theorem ofPairs_of_readable {pairs : List Pair} (readable : Readable pairs) (default : Profile) :
    ofPairs pairs default = (draftOf pairs).finish default := by
  rw [ofPairs_eq, find?_unreadable.mpr readable]

/-- How the option behind a key is chosen, as the setting that chooses it. -/
def chosen (key : String) : Options → Option Setting :=
  match key with
  | "profile" => fun o => some (.profile o.profile)
  | "use_miles" => fun o => some (.units o.units)
  | "elevation" => fun o => some (.elevation o.elevation)
  | "debug" => fun o => some (.debug o.debug)
  | "alternative_route.max_paths" => fun o => some (.maxPaths o.alternatives.maxPaths)
  | "alternative_route.max_weight_factor" => fun o => some (.maxWeightFactor o.alternatives.maxWeightFactor)
  | "alternative_route.max_share_factor" => fun o => some (.maxShareFactor o.alternatives.maxShareFactor)
  | "pt.earliest_departure_time" => fun o => o.transit.departure.map .departure
  | "pt.arrive_by" => fun o => some (.arriveBy o.transit.arriveBy)
  | "pt.limit_solutions" => fun o => some (.limitSolutions o.transit.limitSolutions)
  | "pt.max_profile_duration" => fun o => some (.maxProfileDuration o.transit.maxProfileDuration)
  | "pt.limit_street_time" => fun o => some (.limitStreetSeconds o.transit.limitStreetSeconds)
  | "pt.use_pareto" => fun o => some (.usePareto o.transit.usePareto)
  | "pt.beta_transfers" => fun o => some (.betaTransfers o.transit.betaTransfers)
  | "pt.access_mode" => fun o => some (.accessMode o.transit.accessMode)
  | "pt.egress_mode" => fun o => some (.egressMode o.transit.egressMode)
  | "pt.beta_access_time" => fun o => some (.betaAccessTime o.transit.betaAccessTime)
  | "pt.beta_egress_time" => fun o => some (.betaEgressTime o.transit.betaEgressTime)
  | "pt.max_visited_nodes" => fun o => some (.maxVisitedNodes o.transit.maxVisitedNodes)
  | "custom_model" => fun o => o.customModel.map .customModel
  | _ => fun _ => none

/-- Options that are chosen alike are the same, their doubles to the bit. -/
private theorem eq_of_chosen {o p : Options} (h : ∀ key, chosen key o = chosen key p) : o = p := by
  obtain ⟨profile, units, ⟨paths, weight, share⟩, elevation, debug, ⟨departure, arriveBy, solutions, duration,
    street, pareto, transfers, access, egress, accessTime, egressTime, nodes⟩, model⟩ := o
  cases h "profile"
  cases h "use_miles"
  cases h "elevation"
  cases h "debug"
  cases h "alternative_route.max_paths"
  cases h "alternative_route.max_weight_factor"
  cases h "alternative_route.max_share_factor"
  cases h "pt.arrive_by"
  cases h "pt.limit_solutions"
  cases h "pt.max_profile_duration"
  cases h "pt.limit_street_time"
  cases h "pt.use_pareto"
  cases h "pt.beta_transfers"
  cases h "pt.access_mode"
  cases h "pt.egress_mode"
  cases h "pt.beta_access_time"
  cases h "pt.beta_egress_time"
  cases h "pt.max_visited_nodes"
  have departures : departure = p.transit.departure :=
    Option.map_injective (fun _ _ => Setting.departure.inj) (h "pt.earliest_departure_time")
  have models : model = p.customModel :=
    Option.map_injective (fun _ _ => Setting.customModel.inj) (h "custom_model")
  rw [departures, models]

private theorem chosen_profile {key : String} (h : key ≠ "profile") (o : Options) (profile : Profile) :
    chosen key { o with profile } = chosen key o := by
  obtain ⟨view, hv⟩ : ∃ view, chosen key = view := ⟨_, rfl⟩
  rw [hv]
  rw [chosen.eq_def] at hv
  split at hv <;> subst hv <;> first | rfl | exact absurd rfl h

namespace Draft

/-- What has been entered under a key last. Points add up and are left out. -/
def entry (key : String) : Draft → Option Setting :=
  match key with
  | "profile" => fun d => d.profile.map .profile
  | "vehicle" => fun d => d.vehicle.map .vehicle
  | key => fun d => chosen key d.options

/-- A setting leaves alone what is entered under other keys. -/
private theorem entry_set_of_ne {s : Setting} {key : String} (h : s.key ≠ key) (d : Draft) :
    entry key (d.set s) = entry key d := by
  -- The key is split before the setting, so that each side is a field of a record.
  obtain ⟨view, hv⟩ : ∃ view, entry key = view := ⟨_, rfl⟩
  rw [hv]
  rw [entry.eq_def] at hv
  split at hv
  · subst hv
    cases s <;> first | rfl | exact absurd rfl h
  · subst hv
    cases s <;> first | rfl | exact absurd rfl h
  · rw [chosen.eq_def] at hv
    split at hv <;> subst hv <;> cases s <;> first | rfl | exact absurd rfl h

private theorem entry_set_self {s : Setting} (h : s.key ≠ "point") (d : Draft) :
    entry s.key (d.set s) = some s := by
  cases s <;> first | rfl | exact absurd rfl h

private theorem entry_of_not_isKey {key : String} (h : Setting.isKey key = false) (d : Draft) :
    entry key d = none := by
  rw [entry.eq_def]
  split
  · cases h
  · cases h
  · rw [chosen.eq_def]
    split <;> first | rfl | cases h

private theorem entry_of_ne {key : String} (hp : key ≠ "profile") (hv : key ≠ "vehicle") (d : Draft) :
    entry key d = chosen key d.options := by
  rw [entry.eq_def]
  split
  · exact absurd rfl hp
  · exact absurd rfl hv
  · rfl

/-- The link that a draft becomes. -/
def outcome (d : Draft) (default : Profile) : Link :=
  ⟨d.points, { d.options with profile := d.profile.getD default }, true, none⟩

private theorem finish_eq_outcome {d : Draft} (h : d.profile = none → d.vehicle = none) (default : Profile) :
    d.finish default = .ok (d.outcome default) := by
  rw [finish, outcome]
  cases hp : d.profile with
  | some p => rfl
  | none =>
    rw [h hp]
    rfl

private theorem finish_of_vehicle {d : Draft} (hp : d.profile = none) {vehicle : String}
    (hv : d.vehicle = some vehicle) (default : Profile) :
    d.finish default = .error (.legacyProfile vehicle) := by
  rw [finish, hp, hv]

end Draft

/-- The pairs with this key, in their order. -/
def withKey (key : String) (pairs : List Pair) : List Pair := pairs.filter (·.1 == key)

private theorem withKey_concat (key : String) (pairs : List Pair) (p : Pair) :
    withKey key (pairs ++ [p]) = withKey key pairs ++ if p.1 = key then [p] else [] := by
  rw [withKey, List.filter_append, withKey]
  by_cases h : p.1 = key <;> simp [h]

private theorem withKey_eq_nil {key : String} {pairs : List Pair} :
    withKey key pairs = [] ↔ key ∉ pairs.map Prod.fst := by
  rw [withKey, List.filter_eq_nil_iff, List.mem_map, not_exists]
  exact forall_congr' fun p => by simp

private theorem last_withKey {key : String} {pairs : List Pair} {p : Pair}
    (h : (withKey key pairs).getLast? = some p) : p ∈ pairs ∧ p.1 = key := by
  obtain ⟨mem, same⟩ := List.mem_filter.mp (List.mem_of_getLast? h)
  exact ⟨mem, beq_iff_eq.mp same⟩

theorem exists_last_withKey {key : String} {pairs : List Pair} (h : key ∈ pairs.map Prod.fst) :
    ∃ value, (withKey key pairs).getLast? = some (key, value) := by
  have some : withKey key pairs ≠ [] := fun none => withKey_eq_nil.mp none h
  obtain ⟨⟨other, value⟩, hl⟩ := Option.ne_none_iff_exists'.mp (mt List.getLast?_eq_none_iff.mp some)
  obtain ⟨_, rfl⟩ := last_withKey hl
  exact ⟨value, hl⟩

private theorem draftOf_concat (pairs : List Pair) (p : Pair) : draftOf (pairs ++ [p]) =
    (Setting.ofPair? p).elim (draftOf pairs) (draftOf pairs).set := by
  rw [draftOf, List.filterMap_append, List.foldl_append]
  cases h : Setting.ofPair? p <;> simp [draftOf, h]

private theorem points_draftOf (pairs : List Pair) :
    (draftOf pairs).points = (withKey "point" pairs).map Prod.snd := by
  induction pairs using List.reverseRecOn with
  | nil => rfl
  | append_singleton pairs p ih =>
    rw [draftOf_concat]
    obtain ⟨key, value⟩ := p
    by_cases h : key = "point"
    · subst h
      rw [withKey_concat, if_pos rfl, List.map_append, ← ih]
      rfl
    · rw [withKey_concat, if_neg h, List.append_nil, ← ih]
      cases hs : Setting.ofPair? (key, value) with
      | none => rfl
      | some s =>
        have same : s.key = key := Setting.key_of_ofPair? hs
        cases s <;> first | rfl | exact absurd same.symm h

section
variable {pairs : List Pair} (readable : Readable pairs)
include readable

/-- Under every other key the last pair counts. -/
theorem entry_draftOf {key : String} (hk : key ≠ "point") : Draft.entry key (draftOf pairs) =
    (withKey key pairs).getLast?.elim (Draft.entry key {}) Setting.ofPair? := by
  induction pairs using List.reverseRecOn with
  | nil => rfl
  | append_singleton pairs p ih =>
    have before := ih fun q hq => readable q (List.mem_append_left _ hq)
    have own := readable p (List.mem_append_right _ (List.mem_singleton_self p))
    rw [draftOf_concat]
    by_cases h : p.1 = key
    · subst h
      rw [withKey_concat, if_pos rfl, List.getLast?_concat]
      cases hs : Setting.ofPair? p with
      | none =>
        have noKey : Setting.isKey p.1 = false := by simpa [own] using Setting.ofPair?_eq_none.mp hs
        exact (Draft.entry_of_not_isKey noKey _).trans hs.symm
      | some s =>
        have same := Setting.key_of_ofPair? hs
        rw [← same] at hk ⊢
        exact (Draft.entry_set_self hk _).trans hs.symm
    · rw [withKey_concat, if_neg h, List.append_nil, ← before]
      cases hs : Setting.ofPair? p with
      | none => rfl
      | some s =>
        refine Draft.entry_set_of_ne ?_ _
        rw [Setting.key_of_ofPair? hs]
        exact h

private theorem exists_ofPair? {key : String} (hk : Setting.isKey key = true) {p : Pair}
    (hp : (withKey key pairs).getLast? = some p) : ∃ s, Setting.ofPair? p = some s := by
  obtain ⟨mem, same⟩ := last_withKey hp
  have known : Setting.isKey p.1 = true := by rw [same, hk]
  apply Option.ne_none_iff_exists'.mp
  intro none
  have refused := Setting.ofPair?_eq_none.mp none
  simp [known, readable p mem] at refused

private theorem named_draftOf : (draftOf pairs).profile.map Setting.profile =
    (withKey "profile" pairs).getLast?.elim none Setting.ofPair? :=
  entry_draftOf readable (show "profile" ≠ "point" by decide)

private theorem profile_draftOf : (draftOf pairs).profile = none ↔ "profile" ∉ pairs.map Prod.fst := by
  have named := named_draftOf readable
  rw [← withKey_eq_nil, ← List.getLast?_eq_none_iff]
  cases hp : (withKey "profile" pairs).getLast? with
  | none =>
    rw [hp] at named
    exact iff_of_true (Option.map_eq_none_iff.mp named) rfl
  | some p =>
    obtain ⟨s, hs⟩ := exists_ofPair? readable rfl hp
    rw [hp] at named
    refine iff_of_false (fun none => ?_) (Option.some_ne_none p)
    rw [none] at named
    exact Option.some_ne_none s (hs.symm.trans named.symm)

private theorem vehicle_draftOf :
    (draftOf pairs).vehicle = (withKey "vehicle" pairs).getLast?.map Prod.snd := by
  have entered : (draftOf pairs).vehicle.map Setting.vehicle = _ :=
    entry_draftOf readable (show "vehicle" ≠ "point" by decide)
  apply Option.map_injective (fun _ _ => Setting.vehicle.inj)
  rw [entered]
  cases hp : (withKey "vehicle" pairs).getLast? with
  | none => rfl
  | some p =>
    obtain ⟨key, value⟩ := p
    obtain ⟨_, rfl⟩ := last_withKey hp
    rfl

variable (default : Profile)

theorem finish_of_profile (h : "profile" ∈ pairs.map Prod.fst ∨ "vehicle" ∉ pairs.map Prod.fst) :
    (draftOf pairs).finish default = .ok ((draftOf pairs).outcome default) := by
  apply Draft.finish_eq_outcome
  intro unnamed
  have absent : withKey "vehicle" pairs = [] :=
    withKey_eq_nil.mpr (h.resolve_left ((profile_draftOf readable).mp unnamed))
  rw [vehicle_draftOf readable, absent]
  rfl

/-- A vehicle in place of a profile is refused, and of several vehicles the last is named. -/
theorem finish_of_legacy (hp : "profile" ∉ pairs.map Prod.fst) {vehicle : String}
    (hv : (withKey "vehicle" pairs).getLast? = some ("vehicle", vehicle)) :
    (draftOf pairs).finish default = .error (.legacyProfile vehicle) := by
  refine Draft.finish_of_vehicle ((profile_draftOf readable).mpr hp) ?_ default
  rw [vehicle_draftOf readable, hv]
  rfl

private theorem profile_outcome : some (.profile ((draftOf pairs).outcome default).options.profile) =
    (withKey "profile" pairs).getLast?.elim (some (.profile default)) Setting.ofPair? := by
  have named := named_draftOf readable
  cases hp : (withKey "profile" pairs).getLast? with
  | none =>
    rw [hp] at named
    have unnamed : (draftOf pairs).profile = none := Option.map_eq_none_iff.mp named
    rw [Draft.outcome, unnamed]
    rfl
  | some p =>
    obtain ⟨s, hs⟩ := exists_ofPair? readable rfl hp
    rw [hp, Option.elim_some, hs] at named
    obtain ⟨profile, known, rfl⟩ := Option.map_eq_some_iff.mp named
    rw [Draft.outcome, known, Option.elim_some, hs]
    rfl

end

/-- What decides a link: its points are the values of the pairs for points, and every option is chosen by
the last pair with its key, or is the default one if there is none. -/
structure DecidedBy (l : Link) (pairs : List Pair) (default : Profile) : Prop where
  points : l.points = (withKey "point" pairs).map Prod.snd
  options : ∀ key, key ≠ "point" → key ≠ "vehicle" → chosen key l.options =
    (withKey key pairs).getLast?.elim (chosen key { profile := default }) Setting.ofPair?
  zoom : l.zoom = true
  token : l.token = none

theorem decidedBy_outcome {pairs : List Pair} (readable : Readable pairs) (default : Profile) :
    ((draftOf pairs).outcome default).DecidedBy pairs default where
  points := points_draftOf pairs
  options key point vehicle := by
    by_cases named : key = "profile"
    · subst named
      exact profile_outcome readable default
    · have entered := entry_draftOf readable point
      rw [Draft.entry_of_ne named vehicle, Draft.entry_of_ne named vehicle] at entered
      have initial : chosen key { profile := default } = chosen key {} := chosen_profile named {} default
      rw [initial]
      exact (chosen_profile named _ _).trans entered
  zoom := rfl
  token := rfl

/-- The keys of links of an older kind. -/
def legacyKeys : List String := ["vehicle", "weighting", "turn_costs"]

private theorem chosen_legacy {key : String} (h : key ∈ legacyKeys) (o : Options) : chosen key o = none := by
  simp only [legacyKeys, List.mem_cons, List.not_mem_nil, or_false] at h
  obtain rfl | rfl | rfl := h <;> rfl

/-- Nothing else decides it. -/
theorem DecidedBy.eq {l m : Link} {pairs others : List Pair} {default : Profile}
    (h : l.DecidedBy pairs default) (h' : m.DecidedBy others default)
    (same : ∀ key ∉ legacyKeys, withKey key pairs = withKey key others) : l = m := by
  have points : l.points = m.points := by rw [h.points, h'.points, same "point" (by decide)]
  have options : l.options = m.options := by
    apply eq_of_chosen
    intro key
    by_cases point : key = "point"
    · subst point
      rfl
    · by_cases legacy : key ∈ legacyKeys
      · rw [chosen_legacy legacy, chosen_legacy legacy]
      · have vehicle : key ≠ "vehicle" := fun named => legacy (named ▸ List.mem_cons_self)
        rw [h.options key point vehicle, h'.options key point vehicle, same key legacy]
  have zoom : l.zoom = m.zoom := h.zoom.trans h'.zoom.symm
  have token : l.token = m.token := h.token.trans h'.token.symm
  cases l
  cases m
  cases points
  cases options
  cases zoom
  cases token
  rfl

/-- The pairs make a link if all of them can be read, and a profile is named or no vehicle is. -/
theorem ofPairs_eq_ok_iff {pairs : List Pair} {default : Profile} {l : Link} :
    ofPairs pairs default = .ok l ↔ Readable pairs ∧
      ("profile" ∈ pairs.map Prod.fst ∨ "vehicle" ∉ pairs.map Prod.fst) ∧ l.DecidedBy pairs default := by
  by_cases readable : Readable pairs
  · rw [ofPairs_of_readable readable]
    by_cases named : "profile" ∈ pairs.map Prod.fst ∨ "vehicle" ∉ pairs.map Prod.fst
    · have decided := decidedBy_outcome readable default
      rw [finish_of_profile readable default named, Except.ok.injEq]
      constructor
      · rintro rfl
        exact ⟨readable, named, decided⟩
      · rintro ⟨_, _, h⟩
        exact decided.eq h fun _ _ => rfl
    · obtain ⟨unnamed, legacy⟩ := not_or.mp named
      obtain ⟨vehicle, last⟩ := exists_last_withKey (not_not.mp legacy)
      rw [finish_of_legacy readable default unnamed last]
      exact iff_of_false (fun ok => nomatch ok) fun h => named h.2.1
  · obtain ⟨p, hp⟩ := Option.ne_none_iff_exists'.mp (mt find?_unreadable.mp readable)
    rw [ofPairs_eq, hp]
    exact iff_of_false (fun ok => nomatch ok) fun h => readable h.1

end Itinerary.Link

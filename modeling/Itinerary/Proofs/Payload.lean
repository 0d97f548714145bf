import Itinerary.Dispatcher
import Itinerary.Proofs.Route.Change

/-! Building a request: for which routes and options there is one, and what it then says. -/
namespace Itinerary

/-- A partial function has a value everywhere on a list when it maps it to a list of values. -/
theorem exists_map_eq_some_iff {α β : Type} {f : α → Option β} {as : List α} :
    (∃ bs : List β, as.map f = bs.map some) ↔ ∀ a ∈ as, (f a).isSome = true := by
  induction as with
  | nil => exact ⟨fun _ _ h => absurd h List.not_mem_nil, fun _ => ⟨[], rfl⟩⟩
  | cons a as ih =>
    rw [List.forall_mem_cons, ← ih]
    constructor
    · rintro ⟨bs, h⟩
      cases bs with
      | nil => cases h
      | cons b bs =>
        obtain ⟨first, rest⟩ := List.cons.inj h
        exact ⟨Option.isSome_of_eq_some first, bs, rest⟩
    · rintro ⟨first, bs, rest⟩
      obtain ⟨b, hb⟩ := Option.isSome_iff_exists.mp first
      exact ⟨b :: bs, by rw [List.map_cons, List.map_cons, hb, rest]⟩

namespace Route
variable {r : Route}

private theorem mapM_ok_iff {α β ε : Type} {f : α → Except ε β} {g : α → Option β}
    (h : ∀ a b, f a = .ok b ↔ g a = some b) (as : List α) (bs : List β) :
    as.mapM f = .ok bs ↔ as.map g = bs.map some := by
  induction as generalizing bs with
  | nil => cases bs <;> simp [pure, Except.pure]
  | cons a as ih =>
    rw [List.mapM_cons, List.map_cons]
    cases hf : f a with
    | error e =>
      have none (b : β) : g a ≠ some b := fun hg => by
        rw [(h a b).mpr hg] at hf
        cases hf
      cases bs <;> simp [bind, Except.bind, none]
    | ok b =>
      rw [(h a b).mp hf]
      cases hm : as.mapM f with
      | error e =>
        have none (bs : List β) : as.map g ≠ bs.map some := fun hg => by
          rw [(ih bs).mpr hg] at hm
          cases hm
        cases bs <;> simp [bind, Except.bind, none]
      | ok rest =>
        have inj (cs : List β) : rest.map some = cs.map some ↔ rest = cs :=
          List.map_inj_right fun _ _ => Option.some.inj
        rw [(ih rest).mp hm]
        cases bs <;> simp [bind, Except.bind, pure, Except.pure, inj]

/-- The coordinates are all there, and are these. -/
theorem coordinates_ok_iff {cs : List Coordinate} :
    r.coordinates = .ok cs ↔ r.toList.map Stop.coordinate = cs.map some := by
  refine mapM_ok_iff (fun s c => ?_) r.toList cs
  cases s.coordinate <;> simp

theorem length_of_coordinates {cs : List Coordinate} (h : r.coordinates = .ok cs) :
    cs.length = r.toList.length := by
  rw [← List.length_map Stop.coordinate, coordinates_ok_iff.mp h, List.length_map]

/-- A stop has a coordinate just when it is resolved. -/
def Paired (r : Route) : Prop := ∀ stop ∈ r.toList, stop.coordinate.isSome ↔ stop.status = .resolved

theorem WellFormed.paired (h : r.WellFormed) : r.Paired :=
  fun stop hs => (h.sound stop (h.mem_toList.mp hs)).coordinate_isSome_iff

/-- The coordinates are all there when all stops are resolved. -/
theorem Paired.exists_coordinates_iff (h : r.Paired) :
    (∃ cs, r.coordinates = .ok cs) ↔ ∀ stop ∈ r.toList, stop.status = .resolved := by
  simp only [coordinates_ok_iff, exists_map_eq_some_iff]
  exact forall₂_congr h

/-- The dispatcher's notion of readiness, which looks at what has become of the stops, and the one of
building a request, which looks at their coordinates, are the same. -/
theorem Paired.isReady_iff_coordinates (h : r.Paired) :
    r.isReady = true ↔ minStops ≤ r.length ∧ ∃ cs, r.coordinates = .ok cs := by
  simp only [h.exists_coordinates_iff, isReady, isFullyResolved, Bool.and_eq_true, decide_eq_true_eq,
    List.all_eq_true, Stop.isResolved, beq_iff_eq]

/-- Every place in the order has its stop. -/
def Whole (r : Route) : Prop := ∀ id ∈ r.order, r.contains id = true

/-- Then there are as many stops as places. -/
theorem Whole.length_toList (h : r.Whole) : r.toList.length = r.length :=
  List.filterMap_length_eq_length.mpr h

theorem WellFormed.whole (h : r.WellFormed) : r.Whole := by
  intro id hid
  obtain ⟨s, _, hf, _⟩ := h.find?_of_mem_order hid
  exact Option.isSome_of_eq_some hf

end Route

namespace Payload

/-- The options allow for a request with this many stops: transit has an origin and a destination and
nothing between, and any other profile needs the custom model, if there is one, to be well formed. -/
def Plannable (options : Options) (stops : Nat) : Prop :=
  (options.profile = .publicTransit ∧ stops = minStops) ∨
    (options.profile ≠ .publicTransit ∧
      ∀ text, options.customModel = some text → ∃ model, CustomModel.parse text = .ok model)

/-- What planning a request comes to. -/
inductive Planned (options : Options) (now : Instant) (stops : Nat) : Except RequestError Plan → Prop
  | transit (hp : options.profile = .publicTransit) (hn : stops = minStops) :
      Planned options now stops (.ok (.transit (.ofOptions options.transit now)))
  | via (hp : options.profile = .publicTransit) (hn : stops ≠ minStops) :
      Planned options now stops (.error (.transitViaStops stops))
  | plain (hp : options.profile ≠ .publicTransit) (hm : options.customModel = none) :
      Planned options now stops (.ok (.street (some options.alternatives) none))
  | custom {text : String} {model : Json} (hp : options.profile ≠ .publicTransit)
      (hm : options.customModel = some text) (parsed : CustomModel.parse text = .ok model) :
      Planned options now stops (.ok (.street (some options.alternatives) (some model)))
  | malformed {text : String} {fault : CustomModel.Fault} (hp : options.profile ≠ .publicTransit)
      (hm : options.customModel = some text) (refused : CustomModel.parse text = .error fault) :
      Planned options now stops (.error (.malformedCustomModel fault))

variable {r : Route} {options : Options} {now : Instant} {stops : Nat}

theorem planned (options : Options) (now : Instant) (stops : Nat) :
    Planned options now stops (plan? options now stops) := by
  rw [plan?]
  split
  · rename_i hp
    split
    · rename_i hn
      exact .transit hp hn
    · rename_i hn
      exact .via hp hn
  · rename_i hp
    cases hm : options.customModel with
    | none => exact .plain hp hm
    | some text =>
      dsimp only
      cases parsed : CustomModel.parse text with
      | ok model => exact .custom hp hm parsed
      | error fault => exact .malformed hp hm parsed

private theorem exists_plan?_iff :
    (∃ plan, plan? options now stops = .ok plan) ↔ Plannable options stops := by
  have case := planned options now stops
  generalize plan? options now stops = result at case
  cases case with
  | transit hp hn => simp [Plannable, hp, hn]
  | via hp hn => simp [Plannable, hp, hn]
  | plain hp hm => simp [Plannable, hp, hm]
  | custom hp hm parsed => simp [Plannable, hp, hm, parsed]
  | malformed hp hm refused => simp [Plannable, hp, hm, refused]

/-- A request can be built: there are enough stops, all of them are resolved, and the options allow
for it. -/
structure Buildable (r : Route) (options : Options) : Prop where
  enough : minStops ≤ r.length
  resolved : ∀ stop ∈ r.toList, stop.status = .resolved
  plannable : Plannable options r.toList.length

/-- The request says what the route and the options say: where the stops are, in their order; for
transit its parameters, with the departure that was chosen or else now; for any other profile the
limits for alternatives, and the custom model if there is one; and the rest as it was chosen. -/
structure Says (p : Payload) (r : Route) (options : Options) (now : Instant) : Prop where
  points : p.points.map some = r.toList.map Stop.coordinate
  transit_iff : p.plan.transit?.isSome = true ↔ options.profile = .publicTransit
  alternatives_iff : p.plan.alternatives.isSome = true ↔ options.profile ≠ .publicTransit
  customModel_iff : p.plan.customModel.isSome = true ↔
    options.customModel.isSome = true ∧ options.profile ≠ .publicTransit
  departure : ∀ params, p.plan.transit? = some params →
    params = .ofOptions options.transit now ∧ params.departure = options.transit.departure.getD now
  alternatives : ∀ limits, p.plan.alternatives = some limits → limits = options.alternatives
  customModel : ∀ model, p.plan.customModel = some model →
    ∃ text, options.customModel = some text ∧ CustomModel.parse text = .ok model
  profile : p.profile = options.profile
  units : p.units = options.units
  elevation : p.elevation = options.elevation
  debug : p.debug = options.debug

/-- A request depends on the coordinates and on how many stops there are. -/
theorem build_congr {r t : Route} (hl : r.length = t.length)
    (hc : r.coordinates = t.coordinates) (options : Options) (now : Instant) :
    build r options now = build t options now := by
  rw [build, build, hl, hc]

/-- The request with these points and this plan. -/
def made (options : Options) (points : List Coordinate) (plan : Plan) : Payload :=
  ⟨options.profile, points, plan, true, options.units, options.elevation, options.debug⟩

theorem build_of_coordinates {cs : List Coordinate} (enough : minStops ≤ r.length)
    (hc : r.coordinates = .ok cs) (options : Options) (now : Instant) :
    build r options now = (plan? options now cs.length).map (made options cs) := by
  rw [build, if_neg (Nat.not_lt.mpr enough), hc]
  rfl

private theorem exists_of_build {p : Payload} (h : build r options now = .ok p) :
    minStops ≤ r.length ∧ ∃ cs plan, r.coordinates = .ok cs ∧ plan? options now cs.length = .ok plan ∧
      p = made options cs plan := by
  rw [build] at h
  split at h
  · cases h
  · rename_i enough
    split at h
    · cases h
    · rename_i cs hc
      cases hp : plan? options now cs.length with
      | error error =>
        rw [hp] at h
        cases h
      | ok plan =>
        rw [hp] at h
        cases h
        exact ⟨Nat.not_lt.mp enough, cs, plan, hc, hp, rfl⟩

theorem coordinates_of_build {p : Payload} (h : build r options now = .ok p) :
    ∃ cs, r.coordinates = .ok cs := by
  obtain ⟨_, cs, _, hc, _⟩ := exists_of_build h
  exact ⟨cs, hc⟩

theorem exists_build_iff (paired : r.Paired) :
    (∃ p, build r options now = .ok p) ↔ Buildable r options := by
  constructor
  · rintro ⟨p, h⟩
    obtain ⟨enough, cs, plan, hc, hp, _⟩ := exists_of_build h
    refine ⟨enough, paired.exists_coordinates_iff.mp ⟨cs, hc⟩, ?_⟩
    exact Route.length_of_coordinates hc ▸ exists_plan?_iff.mp ⟨plan, hp⟩
  · intro h
    obtain ⟨cs, hc⟩ := paired.exists_coordinates_iff.mpr h.resolved
    obtain ⟨plan, hp⟩ : ∃ plan, plan? options now cs.length = .ok plan :=
      exists_plan?_iff.mpr (Route.length_of_coordinates hc ▸ h.plannable)
    rw [build_of_coordinates h.enough hc, hp]
    exact ⟨_, rfl⟩

theorem says_of_build {p : Payload} (h : build r options now = .ok p) : p.Says r options now := by
  obtain ⟨_, cs, plan, hc, hp, rfl⟩ := exists_of_build h
  have case := planned options now cs.length
  rw [hp] at case
  have points := (Route.coordinates_ok_iff.mp hc).symm
  cases case with
  | transit profile _ =>
    refine ⟨points, ?_, ?_, ?_, ?_, ?_, ?_, rfl, rfl, rfl, rfl⟩ <;>
      simp [made, Plan.transit?, Plan.alternatives, Plan.customModel, profile, TransitParams.ofOptions]
  | plain profile none =>
    refine ⟨points, ?_, ?_, ?_, ?_, ?_, ?_, rfl, rfl, rfl, rfl⟩ <;>
      simp [made, Plan.transit?, Plan.alternatives, Plan.customModel, profile, none]
  | custom profile some parsed =>
    refine ⟨points, ?_, ?_, ?_, ?_, ?_, ?_, rfl, rfl, rfl, rfl⟩ <;>
      simp [made, Plan.transit?, Plan.alternatives, Plan.customModel, profile, some, parsed]

end Payload
end Itinerary

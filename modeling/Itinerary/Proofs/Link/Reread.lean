import Itinerary.Proofs.Instant.Reading
import Itinerary.Proofs.Link.Setting
import Itinerary.Proofs.Options
import Itinerary.Proofs.Profile
import Itinerary.Proofs.Url.Query

/-! What a link is read back as. -/
namespace Itinerary.Link

namespace Draft

/-- A setting is read back and entered. -/
def take (d : Draft) (s : Setting) : Except LinkError Draft := s.reread.map d.set

/-- Reading all settings before any is entered makes no difference, errors included. -/
private theorem foldlM_take (d : Draft) (settings : List Setting) :
    settings.foldlM take d =
      ((settings.map Setting.pair).mapM Setting.ofPair).map fun read => (read.filterMap id).foldl set d := by
  induction settings generalizing d with
  | nil => rfl
  | cons s settings ih =>
    rw [List.foldlM_cons, List.map_cons, List.mapM_cons, Setting.ofPair_pair, take]
    cases s.reread with
    | error e => rfl
    | ok r =>
      change settings.foldlM take (d.set r) = _
      rw [ih]
      cases (settings.map Setting.pair).mapM Setting.ofPair <;> rfl

private theorem take_points (d : Draft) (texts : List String) :
    (texts.map Setting.point).foldlM take d = .ok { d with points := d.points ++ texts } := by
  induction texts generalizing d with
  | nil =>
    rw [List.append_nil]
    rfl
  | cons text texts ih =>
    rw [List.map_cons, List.foldlM_cons]
    change (texts.map Setting.point).foldlM take { d with points := d.points ++ [text] } = _
    rw [ih]
    simp only [List.append_assoc, List.singleton_append]

private theorem take_alternatives (d : Draft) (a : Alternatives) :
    (alternativeSettings a).foldlM take d = .ok { d with options := { d.options with alternatives := a } } :=
  rfl

private theorem take_profile (d : Draft) (p : Profile) : d.take (.profile p) =
    (Setting.rereadProfile p).map fun q => { d with profile := some q } := by
  change ((Setting.rereadProfile p).map Setting.profile).map d.set = _
  cases Setting.rereadProfile p <;> rfl

private theorem take_departure (d : Draft) (u : Instant) : d.take (.departure u) =
    (Setting.rereadInstant u).map fun v => d.withTransit ({ · with departure := some v }) := by
  change ((Setting.rereadInstant u).map Setting.departure).map d.set = _
  cases Setting.rereadInstant u <;> rfl

private theorem take_anytime (d : Draft) {t : TransitOptions} (h : t.departure = none) :
    (transitSettings t).foldlM take d = .ok { d with
      options := { d.options with transit := { t with departure := d.options.transit.departure } } } := by
  obtain ⟨points, profile, vehicle, ⟨p, units, alternatives, elevation, debug, transit, customModel⟩⟩ := d
  obtain ⟨departure, arriveBy, solutions, duration, street, pareto, transfers, access, egress, accessTime,
    egressTime, nodes⟩ := t
  cases h
  rfl

end Draft

/-- Transit options with the departure that is read from its text. -/
def rereadTransit (t : TransitOptions) : Except LinkError TransitOptions :=
  match t.departure with
  | none => .ok t
  | some u => (Setting.rereadInstant u).map fun v => { t with departure := some v }

theorem rereadTransit_some {t : TransitOptions} {u : Instant} (h : t.departure = some u) :
    rereadTransit t = (Setting.rereadInstant u).map fun v => { t with departure := some v } := by
  rw [rereadTransit, h]

private theorem Draft.take_transit {d : Draft} (h : d.options.transit = {}) (t : TransitOptions) :
    (transitSettings t).foldlM take d =
      (rereadTransit t).map fun u => { d with options := { d.options with transit := u } } := by
  cases hd : t.departure with
  | none =>
    have same : { t with departure := none } = t := by rw [← hd]
    rw [take_anytime d hd, h, rereadTransit, hd]
    exact congrArg (fun u => Except.ok { d with options := { d.options with transit := u } }) same
  | some u =>
    have parts : transitSettings t = .departure u :: transitSettings { t with departure := none } := by
      rw [transitSettings, hd]
      rfl
    rw [parts, List.foldlM_cons, take_departure, rereadTransit_some hd]
    cases Setting.rereadInstant u with
    | error e => rfl
    | ok v =>
      refine (pure_bind _ _).trans ?_
      rw [take_anytime _ rfl]
      rfl

/-- The options for alternative routes, as far as they are written. -/
def writtenAlternatives (o : Options) : Alternatives :=
  if o.profile != .publicTransit || o.alternatives != {} then o.alternatives else {}

/-- The transit options, as far as they are written. -/
def writtenTransit (o : Options) : TransitOptions :=
  if o.profile == .publicTransit || o.transit != {} then o.transit else {}

/-- The link that is read of a link's query. -/
def reread (l : Link) : Except LinkError Link := do
  let profile ← Setting.rereadProfile l.options.profile
  let transit ← rereadTransit (writtenTransit l.options)
  return {
    points := l.points
    options := { l.options with
      profile := profile, alternatives := writtenAlternatives l.options, transit := transit }
    zoom := true
    token := none }

namespace Draft

private theorem take_plain (d : Draft) (p : Profile) (u : UnitSystem) (elevation debug : Bool) :
    [.profile p, .units u, .elevation elevation, .debug debug].foldlM take d =
      (Setting.rereadProfile p).map fun q => { d with
        profile := some q
        options := { d.options with units := u, elevation := elevation, debug := debug } } := by
  rw [List.foldlM_cons, take_profile]
  cases Setting.rereadProfile p <;> rfl

private theorem take_alternatives_if {d : Draft} (h : d.options.alternatives = {}) (written : Bool)
    (a : Alternatives) : (if written then alternativeSettings a else []).foldlM take d =
      .ok { d with options := { d.options with alternatives := if written then a else {} } } := by
  cases written with
  | true => exact take_alternatives d a
  | false =>
    obtain ⟨points, profile, vehicle, p, units, alternatives, elevation, debug, transit, customModel⟩ := d
    cases h
    rfl

private theorem take_transit_if {d : Draft} (h : d.options.transit = {}) (written : Bool)
    (t : TransitOptions) : (if written then transitSettings t else []).foldlM take d =
      (rereadTransit (if written then t else {})).map
        fun u => { d with options := { d.options with transit := u } } := by
  cases written with
  | true => exact take_transit h t
  | false =>
    obtain ⟨points, profile, vehicle, p, units, alternatives, elevation, debug, transit, customModel⟩ := d
    cases h
    rfl

private theorem take_custom {d : Draft} (h : d.options.customModel = none) (text : Option String) :
    (text.toList.map Setting.customModel).foldlM take d =
      .ok { d with options := { d.options with customModel := text } } := by
  cases text with
  | none =>
    obtain ⟨points, profile, vehicle, p, units, alternatives, elevation, debug, transit, customModel⟩ := d
    cases h
    rfl
  | some text => rfl

end Draft

/-- What is read of a link's settings. The profile stands apart until all of them are read. -/
private theorem foldlM_settings (l : Link) : l.settings.foldlM Draft.take {} = do
    let profile ← Setting.rereadProfile l.options.profile
    let transit ← rereadTransit (writtenTransit l.options)
    return {
      points := l.points
      profile := some profile
      options := { l.options with
        profile := .car, alternatives := writtenAlternatives l.options, transit := transit } } := by
  obtain ⟨points, ⟨p, units, alternatives, elevation, debug, transit, customModel⟩, zoom, token⟩ := l
  rw [settings]
  simp only [List.foldlM_append, Draft.take_points, Draft.take_plain]
  cases Setting.rereadProfile p with
  | error e => rfl
  | ok q =>
    simp only [Except.map, bind, Except.bind]
    rw [Draft.take_alternatives_if rfl]
    dsimp only
    rw [Draft.take_transit_if rfl, writtenTransit]
    dsimp only
    cases rereadTransit (if p == .publicTransit || transit != {} then transit else {}) with
    | error e => rfl
    | ok u => exact Draft.take_custom rfl customModel

private theorem ofPairs_settings (settings : List Setting) (default : Profile) :
    ofPairs (settings.map Setting.pair) default =
      settings.foldlM Draft.take {} >>= fun d => d.finish default := by
  rw [ofPairs, Draft.foldlM_take]
  cases (settings.map Setting.pair).mapM Setting.ofPair <;> rfl

/-- A link is read of its query whatever the default profile is, since it names its own. -/
theorem ofText_toQuery (l : Link) (default : Profile) : ofText l.toQuery default = l.reread := by
  rw [toQuery, ofText_encode, ofPairs_settings, foldlM_settings, reread]
  cases Setting.rereadProfile l.options.profile with
  | error e => rfl
  | ok p => cases rereadTransit (writtenTransit l.options) <;> rfl

theorem points_of_ofText_toQuery {l r : Link} {default : Profile} (h : ofText l.toQuery default = .ok r) :
    r.points = l.points := by
  rw [ofText_toQuery, reread] at h
  cases hp : Setting.rereadProfile l.options.profile with
  | error e =>
    rw [hp] at h
    cases h
  | ok p =>
    rw [hp] at h
    cases ht : rereadTransit (writtenTransit l.options) with
    | error e =>
      rw [ht] at h
      cases h
    | ok u =>
      rw [ht] at h
      cases h
      rfl

end Itinerary.Link

import Itinerary.Proofs.Instant.Zone
import Itinerary.Proofs.Link.RoundTrip

/-! Links that have been read, written and read again. -/
namespace Itinerary.Link

/-- A profile that is found under its name, and a departure as it is read. -/
def Setting.Read : Setting → Prop
  | .profile p => p.Canonical
  | .departure t => t.Printable ∨ t.Beyond
  | _ => True

private theorem Setting.read_of_reader? {key value : String} {read : String → Option Setting} {s : Setting}
    (hr : reader? key = some read) (hs : read value = some s) : s.Read := by
  rw [reader?.eq_def] at hr
  split at hr <;> cases hr
  case h_2 =>
    obtain ⟨p, hp, rfl⟩ := Option.map_eq_some_iff.mp hs
    exact Profile.canonical_of_ofName? hp
  case h_9 =>
    obtain ⟨t, ht, rfl⟩ := Option.map_eq_some_iff.mp hs
    exact Instant.printable_or_beyond ht
  all_goals
    first
    | cases hs
      trivial
    | obtain ⟨_, _, rfl⟩ := Option.map_eq_some_iff.mp hs
      trivial

private theorem Setting.read_of_ofPair {p : Url.Form.Pair} {s : Setting} (h : ofPair p = .ok (some s)) :
    s.Read := by
  rw [ofPair] at h
  split at h
  · cases h
  · rename_i read hr
    split at h
    · rename_i hs
      cases h
      exact read_of_reader? hr hs
    · cases h

namespace Draft

/-- All that has been entered is as it is read. -/
structure Read (d : Draft) : Prop where
  profile : ∀ p ∈ d.profile, p.Canonical
  departure : ∀ t ∈ d.options.transit.departure, t.Printable ∨ t.Beyond

private theorem Read.set {d : Draft} (hd : d.Read) {s : Setting} (hs : s.Read) : (d.set s).Read := by
  cases s with
  | profile p => exact ⟨fun _ h => Option.some.inj h ▸ hs, hd.departure⟩
  | departure t => exact ⟨hd.profile, fun _ h => Option.some.inj h ▸ hs⟩
  | _ => exact ⟨hd.profile, hd.departure⟩

private theorem Read.foldl {pairs : List Url.Form.Pair} {settings : List (Option Setting)}
    (h : pairs.mapM Setting.ofPair = .ok settings) {d : Draft} (hd : d.Read) :
    ((settings.filterMap id).foldl Draft.set d).Read := by
  induction pairs generalizing settings d with
  | nil =>
    cases h
    exact hd
  | cons p pairs ih =>
    rw [List.mapM_cons] at h
    cases hp : Setting.ofPair p with
    | error e =>
      rw [hp] at h
      cases h
    | ok first =>
      cases hr : pairs.mapM Setting.ofPair with
      | error e =>
        rw [hp, hr] at h
        cases h
      | ok others =>
        rw [hp, hr] at h
        cases h
        cases first with
        | none => exact ih hr hd
        | some s => exact ih hr (hd.set (Setting.read_of_ofPair hp))

end Draft

/-- What is known of every link that has been read. -/
structure Accepted (l : Link) : Prop where
  profile : l.options.profile.Canonical
  departure : ∀ t ∈ l.options.transit.departure, t.Printable ∨ t.Beyond
  zoom : l.zoom = true
  token : l.token = none

private theorem Draft.Read.accepted {d : Draft} (hd : d.Read) {default : Profile}
    (canonical : default.Canonical) {l : Link} (h : d.finish default = .ok l) : l.Accepted := by
  rw [finish] at h
  split at h <;> cases h
  · rename_i named
    exact ⟨hd.profile _ named, hd.departure, rfl, rfl⟩
  · exact ⟨canonical, hd.departure, rfl, rfl⟩

private theorem accepted_of_ofText {text : String} {default : Profile} (canonical : default.Canonical)
    {l : Link} (h : ofText text default = .ok l) : l.Accepted := by
  rw [ofText] at h
  split at h
  · rename_i url _
    rw [ofPairs] at h
    cases hr : url.pairs.mapM Setting.ofPair with
    | error e =>
      rw [hr] at h
      cases h
    | ok settings =>
      rw [hr] at h
      have empty : Draft.Read {} :=
        ⟨fun p h => absurd h (Option.not_mem_none p), fun t h => absurd h (Option.not_mem_none t)⟩
      exact (empty.foldl hr).accepted canonical h
  · cases h

/-- Nothing is lost by leaving out what is the default. -/
private theorem reread_eq (l : Link) : l.reread = do
    let profile ← Setting.rereadProfile l.options.profile
    let transit ← rereadTransit l.options.transit
    return ⟨l.points, { l.options with profile := profile, transit := transit }, true, none⟩ := by
  rw [reread, writtenTransit_eq, writtenAlternatives_eq]

/-- An instant beyond the years of four digits is written with a sign, and refused. -/
private theorem rereadInstant_of_beyond {t : Instant} (h : t.Beyond) : Setting.rereadInstant t =
    .error (.invalidParameter "pt.earliest_departure_time" t.zulu) := by
  unfold Setting.rereadInstant
  rw [Instant.parse?_zulu_of_year h.year]
  rfl

/-- A link that has been read is read again from what is written of it, as it is, whatever the default
profile is then; unless its departure is beyond the years of four digits, where its zone has led. Then
it is refused. -/
theorem ofText_toQuery_of_ofText {name text : String} {default : Profile} {l : Link}
    (hd : Profile.ofName? name = some default) (h : ofText text default = .ok l) (other : Profile) :
    ((∀ t ∈ l.options.transit.departure, ¬ t.Beyond) → ofText l.toQuery other = .ok l) ∧
    ∀ t ∈ l.options.transit.departure, t.Beyond →
      ofText l.toQuery other = .error (.invalidParameter "pt.earliest_departure_time" t.zulu) := by
  obtain ⟨profile, departure, zoom, token⟩ := accepted_of_ofText (Profile.canonical_of_ofName? hd) h
  obtain ⟨points, options, _, _⟩ := l
  cases zoom
  cases token
  rw [ofText_toQuery, reread_eq, rereadProfile_eq_ok.mpr profile]
  constructor
  · intro inside
    have transit : rereadTransit options.transit = .ok options.transit := by
      cases ht : options.transit.departure with
      | none => rw [rereadTransit, ht]
      | some t =>
        have printable : t.Printable := (departure t ht).resolve_right (inside t ht)
        have whole : { options.transit with departure := some t } = options.transit := by rw [← ht]
        rw [rereadTransit_some ht, rereadInstant_eq_ok.mpr printable]
        exact congrArg Except.ok whole
    rw [transit]
    rfl
  · intro t ht beyond
    have refused : rereadTransit options.transit =
        .error (.invalidParameter "pt.earliest_departure_time" t.zulu) := by
      rw [rereadTransit_some ht, rereadInstant_of_beyond beyond]
      rfl
    rw [refused]
    rfl

/-- A minute west of Greenwich the year 9999 ends a minute later. -/
theorem lastMinute_refused : ∃ l,
    ofText "pt.earliest_departure_time=9999-12-31T23:59:59-00:01" .car = .ok l ∧
    ofText l.toQuery .car = .error
      (.invalidParameter "pt.earliest_departure_time" "+10000-01-01T00:00:59Z") := by
  have named : Profile.ofName? "car" = some .car := by decide +kernel
  have departure : (ofText "pt.earliest_departure_time=9999-12-31T23:59:59-00:01" .car).toOption.map
      (·.options.transit.departure) = some (some ⟨253402300859, 0⟩) := by decide +kernel
  have beyond : Instant.Beyond ⟨253402300859, 0⟩ := by decide +kernel
  have written : Instant.zulu ⟨253402300859, 0⟩ = "+10000-01-01T00:00:59Z" := by decide +kernel
  cases read : ofText "pt.earliest_departure_time=9999-12-31T23:59:59-00:01" .car with
  | error e =>
    rw [read] at departure
    cases departure
  | ok l =>
    rw [read] at departure
    have departs : l.options.transit.departure = some ⟨253402300859, 0⟩ := Option.some.inj departure
    refine ⟨l, rfl, ?_⟩
    rw [← written]
    exact (ofText_toQuery_of_ofText named read .car).2 _ departs beyond

end Itinerary.Link

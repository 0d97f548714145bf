import Itinerary.Proofs.Link.Reread

/-! Which links survive being written and read. -/
namespace Itinerary.Link

/-- What is left out where it equals the default is the default. -/
theorem written_eq {α : Type} [BEq α] {a d : α} (h : (a == d) = true → a = d) {kind : Bool} :
    (if kind || a != d then a else d) = a := by
  split
  · rfl
  · rename_i left
    rw [Bool.or_eq_true, not_or, bne, Bool.not_eq_true', Bool.not_eq_false] at left
    exact (h left.2).symm

theorem rereadProfile_eq_ok {p : Profile} : Setting.rereadProfile p = .ok p ↔ p.Canonical :=
  Setting.orInvalid_eq_ok.trans (Profile.ofName?_name_iff p)

theorem rereadInstant_eq_ok {t : Instant} : Setting.rereadInstant t = .ok t ↔ t.Printable := by
  unfold Setting.rereadInstant
  exact Setting.orInvalid_eq_ok.trans Instant.parse?_zulu_iff

theorem writtenAlternatives_eq (o : Options) : writtenAlternatives o = o.alternatives :=
  written_eq Alternatives.eq_default_of_beq

theorem writtenTransit_eq (o : Options) : writtenTransit o = o.transit :=
  written_eq TransitOptions.eq_default_of_beq

private theorem writtenAlternatives_beq (o : Options) : (writtenAlternatives o == o.alternatives) = true ↔
    ∀ x ∈ o.alternatives.floats, x.isNaN = false := by
  rw [writtenAlternatives_eq]
  exact Alternatives.beq_self_iff

/-- Transit options come back if their doubles are numbers and their departure can be read. -/
private theorem rereadTransit_beq (t : TransitOptions) :
    (∃ u, rereadTransit t = .ok u ∧ (u == t) = true) ↔
      (∀ x ∈ t.floats, x.isNaN = false) ∧ ∀ d ∈ t.departure, d.Printable := by
  rw [← TransitOptions.beq_self_iff]
  cases hd : t.departure with
  | none =>
    have read : rereadTransit t = .ok t := by rw [rereadTransit, hd]
    rw [read]
    constructor
    · rintro ⟨u, hu, same⟩
      cases hu
      refine ⟨same, ?_⟩
      intro d h
      cases h
    · exact fun h => ⟨t, rfl, h.1⟩
  | some d =>
    rw [rereadTransit_some hd]
    constructor
    · rintro ⟨u, hu, same⟩
      cases hr : Setting.rereadInstant d with
      | error e =>
        rw [hr] at hu
        cases hu
      | ok v =>
        rw [hr] at hu
        cases hu
        obtain ⟨exact, floats⟩ := TransitOptions.beq_iff.mp same
        have time : some v = t.departure := congrArg Prod.fst exact
        rw [hd] at time
        cases time
        refine ⟨TransitOptions.beq_iff.mpr ⟨rfl, floats⟩, ?_⟩
        rintro _ ⟨⟩
        exact rereadInstant_eq_ok.mp hr
    · rintro ⟨self, printable⟩
      have whole : { t with departure := some d } = t := by rw [← hd]
      rw [rereadInstant_eq_ok.mpr (printable d rfl)]
      exact ⟨_, rfl, whole.symm ▸ self⟩

private theorem rereadTransit_written (o : Options) :
    (∃ u, rereadTransit (writtenTransit o) = .ok u ∧ (u == o.transit) = true) ↔
      (∀ x ∈ o.transit.floats, x.isNaN = false) ∧ ∀ t ∈ o.transit.departure, t.Printable := by
  rw [writtenTransit_eq]
  exact rereadTransit_beq o.transit

/-- A link comes back with its points and options exactly if its profile is canonical, its doubles
are numbers, and its departure is an instant that its text tells. -/
theorem ofText_toQuery_iff (l : Link) (default : Profile) :
    (∃ r, ofText l.toQuery default = .ok r ∧ r.points = l.points ∧ (r.options == l.options) = true) ↔
      l.options.profile.Canonical ∧ (∀ x ∈ l.options.floats, x.isNaN = false) ∧
        ∀ t ∈ l.options.transit.departure, t.Printable := by
  rw [ofText_toQuery, reread, Options.floats, List.forall_mem_append, and_assoc, ← rereadTransit_written,
    ← writtenAlternatives_beq, ← rereadProfile_eq_ok]
  constructor
  · rintro ⟨r, hr, -, same⟩
    cases hp : Setting.rereadProfile l.options.profile with
    | error e =>
      rw [hp] at hr
      cases hr
    | ok p =>
      rw [hp] at hr
      cases ht : rereadTransit (writtenTransit l.options) with
      | error e =>
        rw [ht] at hr
        cases hr
      | ok u =>
        rw [ht] at hr
        cases hr
        obtain ⟨profile, _, alternatives, _, _, transit, _⟩ := Options.beq_iff.mp same
        cases profile
        exact ⟨rfl, alternatives, u, rfl, transit⟩
  · rintro ⟨profile, alternatives, u, hu, transit⟩
    rw [profile, hu]
    exact ⟨_, rfl, rfl, Options.beq_iff.mpr ⟨rfl, rfl, alternatives, rfl, rfl, transit, rfl⟩⟩

end Itinerary.Link

import Itinerary.Profile
import Itinerary.Proofs.Text.Runs

/-! Which profiles are found again under their name. -/
namespace Itinerary.Profile

/-- The profiles with names of their own. -/
def known : List Profile := [.car, .foot, .bike, .truck, .smallTruck, .publicTransit]

/-- A known profile, or a custom one whose name is not empty, has no blanks around it, and is not one
of the known names in any case. -/
def Canonical : Profile → Prop
  | .custom name => name ≠ "" ∧ Text.trimmed name = name ∧ name.toLower ∉ known.map Profile.name
  | _ => True

private theorem ofName?_custom {name : String} :
    ofName? name = some (.custom name) ↔ (Profile.custom name).Canonical := by
  rw [Canonical, known]
  constructor
  · intro h
    rw [ofName?] at h
    split at h <;> first | cases h | skip
    rename_i blank car foot bike truck smallTruck transit
    have kept : Text.trimmed name = name := by
      injection h with h
      injection h
    rw [kept] at blank car foot bike truck smallTruck transit
    refine ⟨fun empty => blank (String.map_eq_empty.mpr empty), kept, ?_⟩
    simp only [List.map_cons, List.map_nil, Profile.name, List.mem_cons, List.not_mem_nil, not_or,
      or_false]
    exact ⟨car, foot, bike, truck, smallTruck, transit⟩
  · rintro ⟨blank, kept, other⟩
    have filled : name.toLower ≠ "" := fun empty => blank (String.map_eq_empty.mp empty)
    simp only [List.map_cons, List.map_nil, Profile.name, List.mem_cons, List.not_mem_nil, not_or,
      or_false] at other
    obtain ⟨car, foot, bike, truck, smallTruck, transit⟩ := other
    rw [ofName?, kept]
    split <;> first | rfl | exact absurd ‹_ = _› ‹_›

/-- Exactly the canonical profiles are found under their name. -/
theorem ofName?_name_iff (p : Profile) : ofName? p.name = some p ↔ p.Canonical := by
  cases p with
  | custom name => exact ofName?_custom
  | _ => exact iff_of_true (by decide +kernel) trivial

/-- Whatever text a profile is found under, it is found under its name. -/
theorem canonical_of_ofName? {text : String} {p : Profile} (h : ofName? text = some p) :
    p.Canonical := by
  cases p with
  | custom name =>
    have kept : name = Text.trimmed text := by
      rw [ofName?] at h
      split at h <;> cases h
      rfl
    have same : ofName? (Text.trimmed text) = ofName? text := by
      rw [ofName?, ofName?, Text.trimmed_trimmed]
    rw [← ofName?_custom, kept, same, ← kept]
    exact h
  | _ => trivial

end Itinerary.Profile

import Mathlib
import Itinerary.Options

/-! Equality of options. They equal themselves unless one of their doubles is no number, and equal the
default ones only if they are these, none of whose doubles is a zero. -/
namespace Itinerary

/-- Only the two zeros are different doubles that are equal. -/
theorem eq_of_beq_of_ne_zero {x y : Float} (h : (x == y) = true) (positive : y ≠ 0) (negative : y ≠ -0) :
    x = y := by
  obtain ⟨-, -, same | ⟨-, zero⟩ | ⟨-, zero⟩⟩ := Float.beq_iff_ne_nan_and_eq.mp h
  · exact same
  · exact absurd zero negative
  · exact absurd zero positive

namespace Alternatives

def floats (a : Alternatives) : List Float := [a.maxWeightFactor, a.maxShareFactor]

private theorem beq_iff {a b : Alternatives} : (a == b) = true ↔ a.maxPaths = b.maxPaths ∧
    (a.maxWeightFactor == b.maxWeightFactor) = true ∧ (a.maxShareFactor == b.maxShareFactor) = true := by
  change (a.maxPaths == b.maxPaths && (a.maxWeightFactor == b.maxWeightFactor &&
    a.maxShareFactor == b.maxShareFactor)) = true ↔ _
  simp only [Bool.and_eq_true, beq_iff_eq]

theorem beq_self_iff {a : Alternatives} : (a == a) = true ↔ ∀ x ∈ a.floats, x.isNaN = false := by
  simp [beq_iff, floats]

theorem eq_default_of_beq {a : Alternatives} (h : (a == {}) = true) : a = {} := by
  obtain ⟨paths, weight, share⟩ := beq_iff.mp h
  obtain ⟨maxPaths, maxWeightFactor, maxShareFactor⟩ := a
  cases paths
  cases eq_of_beq_of_ne_zero weight (by decide +kernel) (by decide +kernel)
  cases eq_of_beq_of_ne_zero share (by decide +kernel) (by decide +kernel)
  rfl

end Alternatives

namespace TransitOptions

def floats (t : TransitOptions) : List Float := [t.betaTransfers, t.betaAccessTime, t.betaEgressTime]

/-- What is left of the options without their doubles. -/
def exact (t : TransitOptions) :=
  (t.departure, t.arriveBy, t.limitSolutions, t.maxProfileDuration, t.limitStreetSeconds, t.usePareto,
    t.accessMode, t.egressMode, t.maxVisitedNodes)

theorem beq_iff {a b : TransitOptions} : (a == b) = true ↔ a.exact = b.exact ∧
    (a.betaTransfers == b.betaTransfers) = true ∧ (a.betaAccessTime == b.betaAccessTime) = true ∧
    (a.betaEgressTime == b.betaEgressTime) = true := by
  change (a.departure == b.departure && (a.arriveBy == b.arriveBy && (a.limitSolutions == b.limitSolutions &&
    (a.maxProfileDuration == b.maxProfileDuration && (a.limitStreetSeconds == b.limitStreetSeconds &&
    (a.usePareto == b.usePareto && (a.betaTransfers == b.betaTransfers && (a.accessMode == b.accessMode &&
    (a.egressMode == b.egressMode && (a.betaAccessTime == b.betaAccessTime &&
    (a.betaEgressTime == b.betaEgressTime && a.maxVisitedNodes == b.maxVisitedNodes))))))))))) = true ↔ _
  simp only [Bool.and_eq_true, beq_iff_eq, exact, Prod.mk.injEq]
  constructor
  · rintro ⟨h1, h2, h3, h4, h5, h6, transfers, h7, h8, access, egress, h9⟩
    exact ⟨⟨h1, h2, h3, h4, h5, h6, h7, h8, h9⟩, transfers, access, egress⟩
  · rintro ⟨⟨h1, h2, h3, h4, h5, h6, h7, h8, h9⟩, transfers, access, egress⟩
    exact ⟨h1, h2, h3, h4, h5, h6, transfers, h7, h8, access, egress, h9⟩

theorem beq_self_iff {t : TransitOptions} : (t == t) = true ↔ ∀ x ∈ t.floats, x.isNaN = false := by
  simp [beq_iff, floats]

theorem eq_default_of_beq {t : TransitOptions} (h : (t == {}) = true) : t = {} := by
  obtain ⟨same, transfers, access, egress⟩ := beq_iff.mp h
  obtain ⟨departure, arriveBy, solutions, duration, street, pareto, betaTransfers, accessMode, egressMode,
    betaAccessTime, betaEgressTime, nodes⟩ := t
  cases same
  cases eq_of_beq_of_ne_zero transfers (by decide +kernel) (by decide +kernel)
  cases eq_of_beq_of_ne_zero access (by decide +kernel) (by decide +kernel)
  cases eq_of_beq_of_ne_zero egress (by decide +kernel) (by decide +kernel)
  rfl

end TransitOptions

namespace Options

/-- All the doubles among the options. -/
def floats (o : Options) : List Float := o.alternatives.floats ++ o.transit.floats

theorem beq_iff {a b : Options} : (a == b) = true ↔ a.profile = b.profile ∧ a.units = b.units ∧
    (a.alternatives == b.alternatives) = true ∧ a.elevation = b.elevation ∧ a.debug = b.debug ∧
    (a.transit == b.transit) = true ∧ a.customModel = b.customModel := by
  change (a.profile == b.profile && (a.units == b.units && (a.alternatives == b.alternatives &&
    (a.elevation == b.elevation && (a.debug == b.debug && (a.transit == b.transit &&
    a.customModel == b.customModel)))))) = true ↔ _
  simp only [Bool.and_eq_true, beq_iff_eq]

end Options
end Itinerary

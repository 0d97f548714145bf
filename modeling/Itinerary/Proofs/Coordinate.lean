import Itinerary.Coordinate
import Itinerary.Proofs.Decimal.Reading
import Itinerary.Proofs.Text.Split

/-! A coordinate within range is read back from its literal, and no other one is. -/
namespace Itinerary

namespace Coordinate
variable {c : Coordinate}

/-- The numbers of a literal are always read back, but only those in range make a coordinate. -/
theorem parse?_literal_eq (c : Coordinate) : parse? c.literal = if c.inRange then some c else none := by
  have text : c.literal.toList = (Decimal.plain c.lat).toList ++ ',' :: (Decimal.plain c.lng).toList := by
    rw [literal, String.toList_append, String.toList_append, List.append_assoc]
    rfl
  rw [parse?, text, Text.splitFirst_append (Decimal.comma_not_mem_plain c.lat)]
  simp only [bind, Option.bind, Decimal.trim_plain, Decimal.readFloat_plain]

/-- What a literal is read as, once it is in range. -/
theorem parse?_literal (h : c.inRange = true) : parse? c.literal = some c := by
  rw [parse?_literal_eq, if_pos h]

theorem comma_mem_literal (c : Coordinate) : ',' ∈ c.literal.toList := by
  rw [literal, String.toList_append, String.toList_append]
  exact List.mem_append_left _ (List.mem_append_right _ (List.mem_singleton_self _))

end Coordinate
end Itinerary

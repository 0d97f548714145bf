import Itinerary.Instant.Basic

/-! The calendar's days and their numbers. Years are counted from March on in cycles of 400, so that
a leap day is the last of its year. -/
namespace Itinerary.Day

/-- The year of day `d` of a cycle, and the day of that year. The divisions of `d` count the leap days
before it: one in 1460 days, but none at the end of a century, and again one at the end of all. -/
private theorem year_of_cycle {d y r : Int} (nonneg : 0 ≤ d) (bound : d < 146097)
    (hy : y = (d - d / 1460 + d / 36524 - d / 146096) / 365)
    (hr : r = d - (365 * y + y / 4 - y / 100)) :
    0 ≤ y ∧ y ≤ 399 ∧ 0 ≤ r ∧ r ≤ 365 ∧ (r = 365 → y % 4 = 3 ∧ (y % 100 ≠ 99 ∨ y = 399)) := by
  by_cases last : d = 146096
  · subst last hy hr
    decide
  have unfinished : d / 146096 = 0 := by omega
  obtain ⟨fours, hf⟩ : ∃ n, n = d / 1460 := ⟨_, rfl⟩
  obtain ⟨hundreds, hh⟩ : ∃ n, n = d / 36524 := ⟨_, rfl⟩
  obtain ⟨leaps, hl⟩ : ∃ n, n = y / 4 := ⟨_, rfl⟩
  obtain ⟨centuries, hc⟩ : ∃ n, n = y / 100 := ⟨_, rfl⟩
  rw [unfinished, ← hf, ← hh] at hy
  rw [← hl, ← hc] at hr
  have first : 0 ≤ y := by omega
  have most : y ≤ 399 := by omega
  have many : 25 * hundreds ≤ fours := by omega
  have below : leaps ≤ fours := by omega
  have above : fours ≤ leaps + 1 := by omega
  refine ⟨first, most, ?_⟩
  -- the count of leap days by `d` and by the year differ by one on some last days of a leap year
  rcases Int.lt_or_eq_of_le below with ahead | same
  · have leapYear : y = 4 * leaps + 3 := by omega
    have kept : centuries ≤ hundreds := by omega
    refine ⟨by omega, by omega, fun full => ⟨by omega, .inl fun centennial => ?_⟩⟩
    have : leaps = 25 * centuries + 24 := by omega
    omega
  · have kept : hundreds = centuries := by omega
    refine ⟨by omega, by omega, by omega⟩

/-- A day's parts: a cycle of 400 years, a year of it, a day of that year and its month, both counted
from March on. -/
theorem ofNumber_parts (n : Int) : ∃ cycle y r m : Int,
    n + 719468 = cycle * 146097 + (365 * y + y / 4 - y / 100 + r) ∧
    (0 ≤ y ∧ y ≤ 399 ∧ 0 ≤ r ∧ r ≤ 365 ∧ (r = 365 → y % 4 = 3 ∧ (y % 100 ≠ 99 ∨ y = 399))) ∧
    m = (5 * r + 2) / 153 ∧
    ofNumber n = ⟨cycle * 400 + y + if m < 10 then 0 else 1, (if m < 10 then m + 3 else m - 9).toNat,
      (r - (153 * m + 2) / 5 + 1).toNat⟩ := by
  obtain ⟨d, hd⟩ : ∃ d, d = (n + 719468) % 146097 := ⟨_, rfl⟩
  obtain ⟨y, hy⟩ : ∃ y, y = (d - d / 1460 + d / 36524 - d / 146096) / 365 := ⟨_, rfl⟩
  obtain ⟨r, hr⟩ : ∃ r, r = d - (365 * y + y / 4 - y / 100) := ⟨_, rfl⟩
  obtain ⟨m, hm⟩ : ∃ m, m = (5 * r + 2) / 153 := ⟨_, rfl⟩
  have bounds := year_of_cycle (by omega) (by omega) hy hr
  refine ⟨(n + 719468) / 146097, y, r, m, by omega, bounds, hm, ?_⟩
  rw [ofNumber]
  simp only [← hd, ← hy, ← hr, ← hm]
  by_cases early : m < 10
  · have month : ¬ m + 3 ≤ 2 := by omega
    simp only [early, month, if_true, if_false]
  · have month : m - 9 ≤ 2 := by omega
    simp only [early, month, if_true, if_false]

/-- Counting days back gives the number that the day was made from. -/
theorem number_ofNumber (n : Int) : (ofNumber n).number = n := by
  obtain ⟨cycle, y, r, m, total, ⟨first, most, start, stop, _⟩, hm, day⟩ := ofNumber_parts n
  have months : 0 ≤ m ∧ m ≤ 11 := by omega
  rw [day, number]
  dsimp only
  by_cases early : m < 10
  · have month : ¬ (m + 3).toNat ≤ 2 := by omega
    have counted : (((m + 3).toNat + 9) % 12 : Nat) = m := by omega
    simp only [early, month, counted, if_true, if_false]
    omega
  · have month : (m - 9).toNat ≤ 2 := by omega
    have counted : (((m - 9).toNat + 9) % 12 : Nat) = m := by omega
    simp only [early, month, counted, if_true, if_false]
    omega

/-- The last month counted from March on has its leap day if the year it ends in is a leap year. -/
private theorem isLeap_of_cycle {cycle y : Int} (fourth : y % 4 = 3) (centennial : y % 100 ≠ 99 ∨ y = 399) :
    isLeap (cycle * 400 + y + 1) = true := by
  have fours : (cycle * 400 + y + 1) % 4 = 0 := by omega
  have hundreds : (cycle * 400 + y + 1) % 100 ≠ 0 ∨ (cycle * 400 + y + 1) % 400 = 0 := by omega
  rw [isLeap, Bool.and_eq_true, Bool.or_eq_true, beq_iff_eq, bne_iff_ne, beq_iff_eq]
  exact ⟨fours, hundreds⟩

theorem monthLength_le (year : Int) (month : Nat) : monthLength year month ≤ 31 := by
  rw [monthLength]
  split
  · split <;> decide
  · split <;> decide

private theorem length_february (year : Int) : 28 ≤ monthLength year 2 := by
  rw [monthLength, if_pos rfl]
  split <;> decide

/-- The calendar has the day with a number, as far as it goes. -/
theorem isValid_ofNumber {n : Int} (low : firstYear ≤ (ofNumber n).year)
    (high : (ofNumber n).year ≤ lastYear) : (ofNumber n).isValid = true := by
  obtain ⟨cycle, y, r, m, total, ⟨first, most, start, stop, leap⟩, hm, day⟩ := ofNumber_parts n
  rw [isValid, decide_eq_true low, decide_eq_true high, day]
  simp only [Bool.and_true, Bool.and_eq_true, decide_eq_true_eq]
  have months : 0 ≤ m ∧ m ≤ 11 := by omega
  by_cases february : m = 11
  · subst february
    change ((1 ≤ 2 ∧ 2 ≤ 12) ∧ 1 ≤ (r - 337 + 1).toNat) ∧
      (r - 337 + 1).toNat ≤ monthLength (cycle * 400 + y + 1) 2
    refine ⟨⟨by decide, by omega⟩, ?_⟩
    by_cases full : r = 365
    · have long : isLeap (cycle * 400 + y + 1) = true := isLeap_of_cycle (leap full).1 (leap full).2
      rw [monthLength, if_pos rfl, if_pos long]
      omega
    · exact Nat.le_trans (by omega) (length_february _)
  · have others : m = 0 ∨ m = 1 ∨ m = 2 ∨ m = 3 ∨ m = 4 ∨ m = 5 ∨ m = 6 ∨ m = 7 ∨ m = 8 ∨ m = 9 ∨
        m = 10 := by omega
    rcases others with rfl | rfl | rfl | rfl | rfl | rfl | rfl | rfl | rfl | rfl | rfl <;>
    · simp [monthLength]
      omega

end Itinerary.Day

import Itinerary.Proofs.Instant.Reading

/-! On which days an instant can be that has been read. Its date is written with a year of four digits,
and is that of its zone: at offset zero it may be a day earlier or later. -/
namespace Itinerary

namespace Day

/-- The days of the years of four digits are those from 0000-01-01 to 9999-12-31. -/
private theorem number_bounds {d : Day} (valid : d.isValid = true) (first : 0 ≤ d.year)
    (last : d.year ≤ 9999) : -719528 ≤ d.number ∧ d.number ≤ 2932896 := by
  simp only [isValid, Bool.and_eq_true, decide_eq_true_eq] at valid
  obtain ⟨⟨⟨⟨⟨january, december⟩, one⟩, length⟩, _⟩, _⟩ := valid
  have days : d.day ≤ 31 := Nat.le_trans length (monthLength_le _ _)
  rw [number]
  by_cases early : d.month ≤ 2
  · rw [if_pos early]
    have months : (d.month + 9) % 12 = d.month + 9 := by omega
    rw [months]
    by_cases zero : d.year = 0
    · rw [zero]
      omega
    · omega
  · rw [if_neg early]
    have months : (d.month + 9) % 12 = d.month - 3 := by omega
    rw [months]
    omega

private theorem year_ofNumber {n : Int} (first : -719528 ≤ n) (last : n ≤ 2932896) :
    0 ≤ (ofNumber n).year ∧ (ofNumber n).year ≤ 9999 := by
  obtain ⟨cycle, y, r, m, total, ⟨start, most, low, high, leap⟩, hm, day⟩ := ofNumber_parts n
  rw [day]
  dsimp only
  have below : -1 ≤ cycle := by omega
  have above : cycle ≤ 24 := by omega
  constructor
  · by_cases before : cycle = -1
    · subst before
      have year : y = 399 := by omega
      subst year
      have late : ¬ m < 10 := by omega
      rw [if_neg late]
      decide
    · split <;> omega
  · by_cases ends : cycle = 24 ∧ y = 399
    · obtain ⟨rfl, rfl⟩ := ends
      have early : m < 10 := by omega
      rw [if_pos early]
      decide
    · split <;> omega

end Day

namespace Instant

/-- The day before 0000-01-01 or the day after 9999-12-31. -/
def Beyond (t : Instant) : Prop := t.day = ⟨-1, 12, 31⟩ ∨ t.day = ⟨10000, 1, 1⟩

instance (t : Instant) : Decidable t.Beyond := inferInstanceAs (Decidable (_ ∨ _))

variable {t : Instant}

theorem Beyond.year (h : t.Beyond) : t.day.year < 0 ∨ 9999 < t.day.year := by
  rcases h with day | day <;> rw [day] <;> decide

/-- An offset is less than a day, so that it leads at most to the next day. -/
private theorem day_of_at? {f : Fields} {z : Int} (first : 0 ≤ f.year) (last : f.year ≤ 9999)
    (h : f.at? z = some t) : -719529 ≤ t.seconds / 86400 ∧ t.seconds / 86400 ≤ 2932897 := by
  simp only [Fields.at?, Option.ite_none_right_eq_some, Option.some.injEq, Bool.and_eq_true,
    decide_eq_true_eq] at h
  obtain ⟨⟨⟨⟨⟨valid, hour⟩, minute⟩, second⟩, offset⟩, _, rfl⟩ := h
  obtain ⟨low, high⟩ := Day.number_bounds valid first last
  have time : f.hour * 3600 + f.minute * 60 + (f.second - if f.second = 60 then 1 else 0) < 86400 := by
    split <;> omega
  dsimp only
  omega

/-- An instant that has been read can be written so that it is read again, unless it is beyond the years
of four digits, where only its zone has led. -/
theorem printable_or_beyond {text : String} (h : parse? text = some t) : t.Printable ∨ t.Beyond := by
  obtain ⟨f, z, ⟨first, last⟩, _, _, read⟩ := exists_fields_of_parse? h
  obtain ⟨low, high⟩ := day_of_at? first last read
  by_cases before : t.seconds / 86400 = -719529
  · exact .inr (.inl (by rw [day, before]; decide))
  by_cases after : t.seconds / 86400 = 2932897
  · exact .inr (.inr (by rw [day, after]; decide))
  · exact .inl ⟨Day.year_ofNumber (by omega) (by omega), (regular_of_parse? h).leap⟩

end Instant
end Itinerary

import Itinerary.Proofs.Instant.Reading
import Itinerary.Proofs.Text.Runs

/-! Every instant of the calendar is read back from its text in the lenient form. -/
namespace Itinerary.Instant

section
variable {width n most : Nat} {rest : List Char}

private theorem exists_padded (width n : Nat) : ∃ c cs, padded width n = c :: cs ∧ c.isDigit = true := by
  have some : padded width n ≠ [] := List.append_ne_nil_of_right_ne_nil _ Nat.toDigits_ne_nil
  obtain ⟨c, cs, h⟩ := List.exists_cons_of_ne_nil some
  refine ⟨c, cs, h, isDigit_padded width n c ?_⟩
  rw [h]
  exact List.mem_cons_self

/-- Blanks are dropped before a number, and there are none. -/
theorem trimStart_padded (width n : Nat) (rest : List Char) :
    Text.trimStart (padded width n ++ rest) = padded width n ++ rest := by
  obtain ⟨c, cs, h, digit⟩ := exists_padded width n
  rw [h, Text.trimStart, List.cons_append, List.dropWhile_cons, Text.isBlank_of_isDigit digit]
  rfl

/-- A number is read up to the character behind it, if it is not too long. -/
theorem digitsUpTo_padded (fits : (padded width n).length ≤ most) {c : Char} (hc : c.isDigit = false)
    (rest : List Char) : digitsUpTo most (padded width n ++ c :: rest) = some (n, c :: rest) := by
  have digits := isDigit_padded width n
  have taken : ((padded width n ++ c :: rest).take most).takeWhile Char.isDigit = padded width n := by
    rw [List.take_append, List.take_of_length_le fits]
    cases most - (padded width n).length with
    | zero =>
      rw [List.take_zero, List.append_nil]
      exact List.takeWhile_eq_self_iff.mpr digits
    | succ k => exact Text.takeWhile_run digits hc (rest.take k)
  have some : (padded width n).isEmpty = false := by
    obtain ⟨d, ds, h, _⟩ := exists_padded width n
    rw [h]
    rfl
  rw [digitsUpTo, taken, some, if_neg Bool.false_ne_true, List.drop_left, value_padded]

private theorem lenientField_padded (hn : n ≤ 60) {c : Char} (hc : c.isDigit = false) (rest : List Char) :
    lenientField (padded 2 n ++ c :: rest) = some (n, c :: rest) := by
  have two : (padded 2 n).length = 2 := length_padded (by decide) (by omega)
  rw [lenientField, trimStart_padded]
  exact digitsUpTo_padded (Nat.le_of_eq two) hc rest

/-- What follows a field's number. -/
private theorem lenientChar_cons {c : Char} (hc : Text.isBlank c = false) (rest : List Char) :
    lenientChar c (c :: rest) = some rest := by
  rw [lenientChar, Text.trimStart, List.dropWhile_cons, hc]
  exact if_pos rfl

/-- A year is read back with its sign, if it is written with one. -/
private theorem lenientYear_yearChars (year : Int) {c : Char} (hc : c.isDigit = false) (rest : List Char) :
    lenientYear (yearChars year ++ c :: rest) = some (year, c :: rest) := by
  have signed : digitsUpTo (padded 4 year.natAbs ++ c :: rest).length (padded 4 year.natAbs ++ c :: rest) =
      some (year.natAbs, c :: rest) := by
    refine digitsUpTo_padded ?_ hc rest
    rw [List.length_append]
    exact Nat.le_add_right _ _
  rw [yearChars]
  split
  · rename_i early
    have value : (-(year.natAbs : Int)) = year := by omega
    have kept : Text.trimStart ('-' :: (padded 4 year.natAbs ++ c :: rest)) =
        '-' :: (padded 4 year.natAbs ++ c :: rest) := rfl
    rw [List.cons_append, lenientYear, kept]
    simp only [signed, Option.map_some, value]
  · split
    · have value : (year.natAbs : Int) = year := by omega
      have kept : Text.trimStart ('+' :: (padded 4 year.natAbs ++ c :: rest)) =
          '+' :: (padded 4 year.natAbs ++ c :: rest) := rfl
      rw [List.cons_append, lenientYear, kept]
      simp only [signed, Option.map_some, value]
    · have value : (year.toNat : Int) = year := by omega
      have four : (padded 4 year.toNat).length = 4 := length_padded (by decide) (by omega)
      have read := digitsUpTo_padded (Nat.le_of_eq four) hc rest
      obtain ⟨d, ds, h, digit⟩ := exists_padded 4 year.toNat
      rw [lenientYear, trimStart_padded]
      rw [h, List.cons_append] at read ⊢
      split
      · rename_i he
        cases he
        exact absurd digit (by decide)
      · rename_i he
        cases he
        exact absurd digit (by decide)
      · simp only [read, Option.map_some, value]

end

variable {t : Instant}

/-- The lenient form takes the text of any instant, whatever its year. -/
theorem parseLenient?_zulu (h : t.Regular) : parseLenient? t.zulu = some t := by
  obtain ⟨month, day, hour, minute, second, nanos⟩ := fields_bounds h
  have year (rest : List Char) : lenientYear (yearChars t.fields.year ++ '-' :: rest) =
      some (t.fields.year, '-' :: rest) := lenientYear_yearChars _ rfl rest
  have dash (rest : List Char) : lenientChar '-' ('-' :: rest) = some rest := lenientChar_cons (by decide) rest
  have colon (rest : List Char) : lenientChar ':' (':' :: rest) = some rest := lenientChar_cons (by decide) rest
  have ends : ∃ c cs, fractionChars t.fields.nanos ++ ['Z'] = c :: cs ∧ c.isDigit = false := by
    rw [fractionChars]
    split
    · exact ⟨_, _, rfl, rfl⟩
    · split
      · exact ⟨_, _, rfl, rfl⟩
      · split <;> exact ⟨_, _, rfl, rfl⟩
  obtain ⟨c, cs, tail, plain⟩ := ends
  have zone : fraction (c :: cs) = some (t.fields.nanos, ['Z']) := by
    rw [← tail]
    exact fraction_fractionChars nanos rfl (by decide) []
  have utc : lenientOffset (Text.trimStart ['Z']) = some (0, []) := by decide
  rw [parseLenient?, toList_zulu, tail, year]
  simp only [bind, Option.bind, dash, colon, separator, if_true, true_or,
    lenientField_padded (Nat.le_trans month (by decide)) (by decide : Char.isDigit '-' = false),
    lenientField_padded (Nat.le_trans day (by decide)) (by decide : Char.isDigit 'T' = false),
    lenientField_padded (Nat.le_trans hour (by decide)) (by decide : Char.isDigit ':' = false),
    lenientField_padded (Nat.le_trans minute (by decide)) (by decide : Char.isDigit ':' = false),
    lenientField_padded second plain, zone, utc]
  exact (if_pos rfl).trans (at?_fields h)

theorem regular_of_parseLenient? {text : String} (h : parseLenient? text = some t) : t.Regular := by
  simp only [parseLenient?, bind, Option.bind_eq_some_iff] at h
  obtain ⟨_, _, _, _, _, _, _, _, _, _, _, _, _, _, _, _, _, _, _, _, _, _, ⟨nanos, _⟩, fraction,
    ⟨zone, _⟩, offset, h⟩ := h
  have minutes : zone % 60 = 0 := by
    rw [lenientOffset] at offset
    split at offset
    · cases offset
      rfl
    · exact offset_minutes offset
  split at h
  · exact regular_of_at? (fraction_lt fraction) minutes h
  · cases h

end Itinerary.Instant

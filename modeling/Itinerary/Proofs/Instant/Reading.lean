import Itinerary.Instant.Printer
import Itinerary.Instant.Reader
import Itinerary.Proofs.Instant.Calendar
import Itinerary.Proofs.Text.Digits

/-! Which instants are read back from their text. -/
namespace Itinerary.Instant

/-- The calendar holds the instant, and only second 59 is followed by a leap second. -/
structure Regular (t : Instant) : Prop where
  calendar : t.inCalendar = true
  leap : t.nanos < 1000000000 ∨ (t.nanos < 2000000000 ∧ t.seconds % 60 = 59)

/-- The year has four digits, and only second 59 is followed by a leap second. -/
structure Printable (t : Instant) : Prop where
  year : 0 ≤ t.day.year ∧ t.day.year ≤ 9999
  leap : t.nanos < 1000000000 ∨ (t.nanos < 2000000000 ∧ t.seconds % 60 = 59)

private theorem Printable.regular {t : Instant} (h : t.Printable) : t.Regular where
  calendar := by
    rw [inCalendar, decide_eq_true (Int.le_trans (by decide) h.year.1),
      decide_eq_true (Int.le_trans h.year.2 (by decide))]
    rfl
  leap := h.leap

section
variable {width n : Nat}

theorem isDigit_padded (width n : Nat) : ∀ c ∈ padded width n, c.isDigit = true := by
  intro c hc
  rcases List.mem_append.mp hc with hc | hc
  · exact Text.isDigit_zeros _ c hc
  · exact Text.isDigit_toDigits n c hc

theorem value_padded (width n : Nat) : Nat.ofDigitChars 10 (padded width n) 0 = n := by
  rw [padded, Text.ofDigitChars_zeros_append, Nat.ofDigitChars_ten_toDigits]

theorem length_padded (hw : 0 < width) (hn : n < 10 ^ width) : (padded width n).length = width := by
  have fits : (Nat.toDigits 10 n).length ≤ width := (Nat.length_toDigits_le_iff (by decide) hw).mpr hn
  rw [padded, List.length_append, List.length_replicate, Nat.sub_add_cancel fits]

private theorem digitsExactly_padded (hw : 0 < width) (hn : n < 10 ^ width) (rest : List Char) :
    digitsExactly width (padded width n ++ rest) = some (n, rest) := by
  have length := length_padded hw hn
  have digits : (padded width n).all Char.isDigit = true := List.all_eq_true.mpr (isDigit_padded width n)
  rw [digitsExactly, List.take_left' length, List.drop_left' length, if_pos ⟨length, digits⟩,
    value_padded]

/-- A fraction of `width` places counts for as many nanoseconds as there are units in the last. -/
private theorem fraction_padded (hw : 0 < width) (most : width ≤ 9) (hn : n < 10 ^ width) {c : Char}
    (hc : c.isDigit = false) (rest : List Char) :
    fraction ('.' :: (padded width n ++ c :: rest)) = some (n * 10 ^ (9 - width), c :: rest) := by
  have length := length_padded hw hn
  have digits := isDigit_padded width n
  have some : (padded width n).isEmpty = false := by
    rw [List.isEmpty_eq_false_iff_exists_mem]
    exact List.exists_mem_of_length_pos (Nat.lt_of_lt_of_eq hw length.symm)
  have whole : (padded width n).take 9 = padded width n :=
    List.take_of_length_le (Nat.le_trans (Nat.le_of_eq length) most)
  rw [fraction, Text.takeWhile_run digits hc, Text.dropWhile_run digits hc, some, if_neg Bool.false_ne_true, whole]
  dsimp only
  rw [length, Text.ofDigitChars_append_zeros, value_padded]

end

/-- A fraction is read back whichever number of places it is written with. -/
theorem fraction_fractionChars {nanos : Nat} (h : nanos < 1000000000) {c : Char} (hc : c.isDigit = false)
    (point : c ≠ '.') (rest : List Char) :
    fraction (fractionChars nanos ++ c :: rest) = some (nanos, c :: rest) := by
  rw [fractionChars]
  split
  · rename_i none
    subst none
    rw [List.nil_append, fraction]
    rintro cs he
    cases he
    exact point rfl
  · split
    · have whole : nanos / 1000000 * 10 ^ (9 - 3) = nanos := by omega
      rw [List.cons_append, fraction_padded (by decide) (by decide) (by omega) hc, whole]
    · split
      · have whole : nanos / 1000 * 10 ^ (9 - 6) = nanos := by omega
        rw [List.cons_append, fraction_padded (by decide) (by decide) (by omega) hc, whole]
      · have whole : nanos * 10 ^ (9 - 9) = nanos := by omega
        rw [List.cons_append, fraction_padded (by decide) (by decide) (by omega) hc, whole]

variable {t : Instant}

/-- The fields that are written of an instant. -/
def fields (t : Instant) : Fields where
  year := t.day.year
  month := t.day.month
  day := t.day.day
  hour := t.secondOfDay / 3600
  minute := t.secondOfDay / 60 % 60
  second := t.secondOfDay % 60 + t.nanos / 1000000000
  nanos := t.nanos % 1000000000

private theorem second_fields (t : Instant) :
    t.fields.second = t.secondOfDay % 60 + t.nanos / 1000000000 := rfl

section
variable (h : t.Regular)
include h

private theorem isValid_day : t.day.isValid = true := by
  have years := h.calendar
  rw [inCalendar, Bool.and_eq_true, decide_eq_true_eq, decide_eq_true_eq] at years
  exact Day.isValid_ofNumber years.1 years.2

theorem fields_bounds : t.fields.month ≤ 12 ∧ t.fields.day ≤ 31 ∧
    t.fields.hour ≤ 23 ∧ t.fields.minute ≤ 59 ∧ t.fields.second ≤ 60 ∧ t.fields.nanos < 1000000000 := by
  have date := isValid_day h
  simp only [Day.isValid, Bool.and_eq_true, decide_eq_true_eq] at date
  obtain ⟨⟨⟨⟨⟨_, month⟩, _⟩, day⟩, _⟩, _⟩ := date
  have longest : Day.monthLength t.day.year t.day.month ≤ 31 := Day.monthLength_le _ _
  have time : (t.secondOfDay : Int) = t.seconds % 86400 := Int.toNat_of_nonneg (by omega)
  refine ⟨month, Nat.le_trans day longest, ?_, ?_, ?_, ?_⟩
  · exact (by omega : t.secondOfDay / 3600 ≤ 23)
  · exact (by omega : t.secondOfDay / 60 % 60 ≤ 59)
  · rw [second_fields]
    have := h.leap
    omega
  · exact Nat.mod_lt _ (by decide)

/-- The fields at offset zero are those of the instant. -/
theorem at?_fields : t.fields.at? 0 = some t := by
  obtain ⟨_, _, hour, minute, second, _⟩ := fields_bounds h
  have valid : (⟨t.fields.year, t.fields.month, t.fields.day⟩ : Day).isValid = true := isValid_day h
  have time : (t.secondOfDay : Int) = t.seconds % 86400 := Int.toNat_of_nonneg (by omega)
  have leap : (if t.fields.second = 60 then 1 else 0) = t.nanos / 1000000000 := by
    rw [second_fields]
    rcases h.leap with small | ⟨small, last⟩ <;> split <;> omega
  have total : t.day.number * 86400 + (t.secondOfDay / 3600 * 3600 + t.secondOfDay / 60 % 60 * 60 +
      (t.secondOfDay % 60 + t.nanos / 1000000000 - t.nanos / 1000000000) : Nat) - 0 = t.seconds := by
    have date : t.day.number = t.seconds / 86400 := Day.number_ofNumber _
    omega
  have nanos : t.nanos % 1000000000 + t.nanos / 1000000000 * 1000000000 = t.nanos := by omega
  have same := congr (congrArg Instant.mk total) nanos
  rw [Fields.at?]
  simp only [valid, hour, minute, second, leap, decide_true, Bool.and_self]
  rw [if_pos (by decide)]
  refine (if_pos ?_).trans (congrArg some same)
  exact (congrArg inCalendar same).trans h.calendar

end

/-- What is written of an instant, field by field, and the zone behind it. -/
theorem dateTimeChars_append (t : Instant) (zone : List Char) : t.dateTimeChars ++ zone =
    yearChars t.fields.year ++ '-' :: (padded 2 t.fields.month ++ '-' :: (padded 2 t.fields.day ++
      'T' :: (padded 2 t.fields.hour ++ ':' :: (padded 2 t.fields.minute ++
        ':' :: (padded 2 t.fields.second ++ (fractionChars t.fields.nanos ++ zone)))))) := by
  rw [dateTimeChars]
  simp only [List.append_assoc, List.cons_append, fields]

theorem toList_zulu (t : Instant) : t.zulu.toList =
    yearChars t.fields.year ++ '-' :: (padded 2 t.fields.month ++ '-' :: (padded 2 t.fields.day ++
      'T' :: (padded 2 t.fields.hour ++ ':' :: (padded 2 t.fields.minute ++
        ':' :: (padded 2 t.fields.second ++ (fractionChars t.fields.nanos ++ ['Z'])))))) := by
  rw [zulu, String.toList_ofList, dateTimeChars_append]

private theorem yearChars_four {year : Int} (early : 0 ≤ year) (late : year ≤ 9999) :
    yearChars year = padded 4 year.toNat := by
  rw [yearChars, if_neg (Int.not_lt.mpr early), if_neg (Int.not_lt.mpr late)]

/-- A printable instant is read back, whichever way offset zero is written behind it. -/
private theorem parse?_dateTime (h : t.Printable) {c : Char} {zone : List Char} (hc : c.isDigit = false)
    (point : c ≠ '.') (utc : offset (char ':') (c :: zone) = some (0, [])) :
    parse? (String.ofList (t.dateTimeChars ++ c :: zone)) = some t := by
  obtain ⟨month, day, hour, minute, second, nanos⟩ := fields_bounds h.regular
  have year : (t.fields.year.toNat : Int) = t.fields.year := Int.toNat_of_nonneg h.year.1
  have written : yearChars t.fields.year = padded 4 t.fields.year.toNat := yearChars_four h.year.1 h.year.2
  have years : t.fields.year.toNat < 10 ^ 4 := by
    have : t.fields.year ≤ 9999 := h.year.2
    omega
  have two {n : Nat} (hn : n ≤ 60) : ∀ rest, digitsExactly 2 (padded 2 n ++ rest) = some (n, rest) :=
    digitsExactly_padded (by decide) (by omega)
  have behind : fraction (fractionChars t.fields.nanos ++ c :: zone) = some (t.fields.nanos, c :: zone) :=
    fraction_fractionChars nanos hc point zone
  rw [parse?, String.toList_ofList, dateTimeChars_append, written, digitsExactly_padded (by decide) years]
  simp only [bind, Option.bind, char, separator, if_true, true_or, two (Nat.le_trans month (by decide)),
    two (Nat.le_trans day (by decide)), two (Nat.le_trans hour (by decide)),
    two (Nat.le_trans minute (by decide)), two second, behind, utc, List.isEmpty_nil, year]
  exact at?_fields h.regular

theorem fraction_lt {cs rest : List Char} {n : Nat} (h : fraction cs = some (n, rest)) :
    n < 1000000000 := by
  rw [fraction.eq_def] at h
  split at h
  · rename_i cs
    dsimp only at h
    split at h
    · cases h
    · cases h
      have digits : ∀ c ∈ (cs.takeWhile Char.isDigit).take 9 ++
          List.replicate (9 - ((cs.takeWhile Char.isDigit).take 9).length) '0', c.isDigit = true := by
        intro c hc
        rcases List.mem_append.mp hc with hc | hc
        · exact List.all_eq_true.mp List.all_takeWhile c (List.mem_of_mem_take hc)
        · exact Text.isDigit_zeros _ c hc
      have nine : ((cs.takeWhile Char.isDigit).take 9 ++
          List.replicate (9 - ((cs.takeWhile Char.isDigit).take 9).length) '0').length = 9 := by
        have := List.length_take_le 9 (cs.takeWhile Char.isDigit)
        rw [List.length_append, List.length_replicate]
        omega
      have below := Text.ofDigitChars_lt digits 0
      rw [nine] at below
      exact below
  · cases h
    decide

/-- Offsets are whole minutes. -/
theorem offset_minutes {between : List Char → Option (List Char)} {cs rest : List Char} {z : Int}
    (h : offset between cs = some (z, rest)) : z % 60 = 0 := by
  rw [offset.eq_def] at h
  split at h
  · cases h
  · split at h
    · cases h
      rfl
    · split at h
      · simp only [bind, Option.bind_eq_some_iff] at h
        obtain ⟨⟨hours, _⟩, _, _, _, ⟨minutes, _⟩, _, h⟩ := h
        split at h
        · cases h
        · cases h
          dsimp only
          split <;> omega
      · cases h

/-- A second that has been read is a leap second only as the last of its minute. -/
theorem regular_of_at? {f : Fields} {z : Int} (hn : f.nanos < 1000000000) (hz : z % 60 = 0)
    (h : f.at? z = some t) : t.Regular := by
  simp only [Fields.at?, Option.ite_none_right_eq_some, Option.some.injEq] at h
  obtain ⟨_, calendar, rfl⟩ := h
  refine ⟨calendar, ?_⟩
  dsimp only
  split <;> omega

private theorem digitsExactly_lt {width n : Nat} {cs rest : List Char}
    (h : digitsExactly width cs = some (n, rest)) : n < 10 ^ width := by
  simp only [digitsExactly, Option.ite_none_right_eq_some, Option.some.injEq, Prod.mk.injEq] at h
  obtain ⟨⟨length, digits⟩, rfl, _⟩ := h
  have below := Text.ofDigitChars_lt (List.all_eq_true.mp digits) 0
  rw [length] at below
  omega

/-- What is read are fields with a year of four digits and less than a second left over, in a zone that
is whole minutes off. -/
theorem exists_fields_of_parse? {text : String} (h : parse? text = some t) :
    ∃ (f : Fields) (z : Int), (0 ≤ f.year ∧ f.year ≤ 9999) ∧ f.nanos < 1000000000 ∧ z % 60 = 0 ∧
      f.at? z = some t := by
  simp only [parse?, bind, Option.bind_eq_some_iff] at h
  obtain ⟨⟨year, _⟩, four, _, _, _, _, _, _, _, _, _, _, _, _, _, _, _, _, _, _, _, _, ⟨nanos, _⟩,
    fraction, ⟨zone, _⟩, offset, h⟩ := h
  split at h
  · have digits : year < 10 ^ 4 := digitsExactly_lt four
    refine ⟨_, zone, ?_, fraction_lt fraction, offset_minutes offset, h⟩
    dsimp only
    omega
  · cases h

theorem regular_of_parse? {text : String} (h : parse? text = some t) : t.Regular := by
  obtain ⟨_, _, _, nanos, zone, h⟩ := exists_fields_of_parse? h
  exact regular_of_at? nanos zone h

/-- A year outside of four digits is written with a sign, which no year is read with. -/
private theorem parse?_signed {sign : Char} (hs : sign.isDigit = false) (cs : List Char) :
    parse? (String.ofList (sign :: cs)) = none := by
  have none : digitsExactly 4 (sign :: cs) = none := by
    rw [digitsExactly, if_neg]
    rintro ⟨_, digits⟩
    rw [List.take_succ_cons, List.all_cons, hs] at digits
    cases digits
  rw [parse?, String.toList_ofList, none]
  rfl

/-- No instant is read from the text of one whose year has not four digits. -/
theorem parse?_dateTime_of_year (h : t.day.year < 0 ∨ 9999 < t.day.year) (zone : List Char) :
    parse? (String.ofList (t.dateTimeChars ++ zone)) = none := by
  rcases h with early | late
  · obtain ⟨cs, signed⟩ : ∃ cs, t.dateTimeChars ++ zone = '-' :: cs := by
      rw [dateTimeChars, yearChars, if_pos early]
      exact ⟨_, rfl⟩
    rw [signed, parse?_signed rfl]
  · obtain ⟨cs, signed⟩ : ∃ cs, t.dateTimeChars ++ zone = '+' :: cs := by
      rw [dateTimeChars, yearChars, if_neg (by omega), if_pos late]
      exact ⟨_, rfl⟩
    rw [signed, parse?_signed rfl]

private theorem parse?_dateTime_iff {c : Char} {zone : List Char} (hc : c.isDigit = false) (point : c ≠ '.')
    (utc : offset (char ':') (c :: zone) = some (0, [])) :
    parse? (String.ofList (t.dateTimeChars ++ c :: zone)) = some t ↔ t.Printable := by
  refine ⟨fun h => ⟨?_, (regular_of_parse? h).leap⟩, fun h => parse?_dateTime h hc point utc⟩
  refine Decidable.byContradiction fun other => ?_
  rw [parse?_dateTime_of_year (by omega)] at h
  cases h

theorem parse?_zulu_of_year (h : t.day.year < 0 ∨ 9999 < t.day.year) : parse? t.zulu = none :=
  parse?_dateTime_of_year h ['Z']

/-- Exactly the printable instants are read back from their text. -/
theorem parse?_zulu_iff : parse? t.zulu = some t ↔ t.Printable :=
  parse?_dateTime_iff rfl (by decide) rfl

/-- And from that with the offset in digits. -/
theorem parse?_withOffset_iff : parse? t.withOffset = some t ↔ t.Printable :=
  parse?_dateTime_iff rfl (by decide) (by decide)

end Itinerary.Instant

import Itinerary.Decimal.Layout
import Itinerary.Decimal.Reader
import Itinerary.Proofs.Decimal.Rounding
import Itinerary.Proofs.Text.Digits

/-! What is written of a double reads back as that double. -/
namespace Itinerary.Decimal

private theorem toBits_of_cut {tie : Tie} {bits : UInt64} {exact d : Decimal} {n k : Nat}
    (h : cut tie bits exact n k = some d) : d.toFloat.toBits = bits := by
  rw [cut] at h
  split at h
  · rename_i below above
    split at h <;> cases h
    · exact beq_iff_eq.mp below
    · exact beq_iff_eq.mp above
  · rename_i below _
    cases h
    exact beq_iff_eq.mp below
  · rename_i _ above
    cases h
    exact beq_iff_eq.mp above
  · cases h

/-- The shortest digits read back, since none are taken that do not, and all of them do. -/
theorem toFloat_shortest (tie : Tie) {x : Float} (h : (Binary64.ofFloat x).decimal.toFloat = x.abs) :
    (shortest tie x).toFloat = x.abs := by
  rw [shortest, toFloat_stripped]
  cases hs : (List.range' 1 (width (Binary64.ofFloat x).decimal.digits)).findSome?
      (cut tie x.abs.toBits (Binary64.ofFloat x).decimal (width (Binary64.ofFloat x).decimal.digits)) with
  | none => exact h
  | some d =>
    obtain ⟨k, _, hk⟩ := List.exists_of_findSome?_eq_some hs
    exact Float.toBits_inj.mp (toBits_of_cut hk)

/-- Sign and shortest digits make up a finite double. -/
theorem signed_shortest (tie : Tie) {x : Float} (h : x.isFinite = true) :
    (if (Binary64.ofFloat x).negative then -(shortest tie x).toFloat else (shortest tie x).toFloat) = x := by
  obtain ⟨sign, field, fraction, hx⟩ := Binary64.exists_has x
  have top := hx.not_top h
  rw [toFloat_shortest tie (Binary64.toFloat_decimal hx top)]
  exact Binary64.signed_abs hx fun he => absurd he top

private theorem readNumeral_whole {cs : List Char} (hc : ∀ c ∈ cs, c.isDigit = true) (hn : cs ≠ []) :
    readNumeral cs = some ⟨digitsValue cs, 0⟩ := by
  have taken := List.takeWhile_eq_self_iff.mpr hc
  have left := List.dropWhile_eq_nil_iff.mpr hc
  simp [readNumeral, taken, left, hn, readPower]

private theorem readNumeral_point {cs ds : List Char} (hc : ∀ c ∈ cs, c.isDigit = true) (hn : cs ≠ [])
    (hd : ∀ c ∈ ds, c.isDigit = true) :
    readNumeral (cs ++ '.' :: ds) = some ⟨digitsValue (cs ++ ds), -(ds.length : Int)⟩ := by
  have point : Char.isDigit '.' = false := by decide
  have whole := Text.takeWhile_run hc point ds
  have rest := Text.dropWhile_run hc point ds
  have fraction := List.takeWhile_eq_self_iff.mpr hd
  have left := List.dropWhile_eq_nil_iff.mpr hd
  simp [readNumeral, whole, rest, fraction, left, hn, readPower]

/-- A numeral written out is read with its zeros among the digits. -/
private theorem readNumeral_positional (d : Decimal) : readNumeral (positional d) =
    some ⟨d.digits * 10 ^ d.exponent.toNat, min d.exponent 0⟩ := by
  have digits := Text.isDigit_toDigits d.digits
  have some : Nat.toDigits 10 d.digits ≠ [] := Nat.toDigits_ne_nil
  rw [positional]
  by_cases whole : 0 ≤ d.exponent
  · rw [if_pos whole, readNumeral_whole, digitsValue, Text.ofDigitChars_append_zeros,
      Nat.ofDigitChars_ten_toDigits, Int.min_eq_right whole]
    · intro c hc
      rcases List.mem_append.mp hc with hc | hc
      · exact digits c hc
      · exact Text.isDigit_zeros _ c hc
    · exact fun he => some (List.append_eq_nil_iff.mp he).1
  · have below : min d.exponent 0 = d.exponent := Int.min_eq_left (by omega)
    have power : d.exponent.toNat = 0 := by omega
    rw [if_neg whole, below, power, Nat.pow_zero, Nat.mul_one]
    by_cases inside : (-d.exponent).toNat < (Nat.toDigits 10 d.digits).length
    · have places : -((Nat.toDigits 10 d.digits).drop
          ((Nat.toDigits 10 d.digits).length - (-d.exponent).toNat)).length = d.exponent := by
        rw [List.length_drop]
        omega
      rw [if_pos inside, readNumeral_point, List.take_append_drop, digitsValue,
        Nat.ofDigitChars_ten_toDigits, places]
      · exact fun c hc => digits c (List.mem_of_mem_take hc)
      · intro he
        have taken := congrArg List.length he
        rw [List.length_take, List.length_nil] at taken
        omega
      · exact fun c hc => digits c (List.mem_of_mem_drop hc)
    · have places : -(List.replicate ((-d.exponent).toNat - (Nat.toDigits 10 d.digits).length) '0' ++
          Nat.toDigits 10 d.digits).length = d.exponent := by
        rw [List.length_append, List.length_replicate]
        omega
      have value : digitsValue (List.replicate 1 '0' ++ (List.replicate
          ((-d.exponent).toNat - (Nat.toDigits 10 d.digits).length) '0' ++ Nat.toDigits 10 d.digits)) =
          d.digits := by
        rw [digitsValue, Text.ofDigitChars_zeros_append, Text.ofDigitChars_zeros_append,
          Nat.ofDigitChars_ten_toDigits]
      rw [if_neg inside]
      refine (readNumeral_point (Text.isDigit_zeros 1) (List.cons_ne_nil _ _) ?_).trans ?_
      · intro c hc
        rcases List.mem_append.mp hc with hc | hc
        · exact Text.isDigit_zeros _ c hc
        · exact digits c hc
      · rw [places, value]

/-- A numeral written out is read as the same double. -/
private theorem toFloat_positional (d : Decimal) :
    (readNumeral (positional d)).map toFloat = some d.toFloat := by
  have same : min d.exponent 0 + (d.exponent.toNat : Int) = d.exponent := by omega
  rw [readNumeral_positional, Option.map_some, toFloat_mul_pow_ten, same]

/-- What is written begins with a digit. -/
private theorem exists_positional (d : Decimal) : ∃ c cs, positional d = c :: cs ∧ c.isDigit = true := by
  obtain ⟨c, cs, hd⟩ := List.exists_cons_of_ne_nil (Nat.toDigits_ne_nil (n := d.digits) (b := 10))
  have digit : c.isDigit = true := Text.isDigit_toDigits d.digits c (hd ▸ List.mem_cons_self)
  rw [positional, hd]
  dsimp only
  split
  · exact ⟨c, _, rfl, digit⟩
  · split
    · rename_i inside
      obtain ⟨k, hk⟩ : ∃ k, (c :: cs).length - (-d.exponent).toNat = k + 1 :=
        ⟨_, (Nat.succ_pred_eq_of_pos (Nat.sub_pos_of_lt inside)).symm⟩
      rw [hk]
      exact ⟨c, _, rfl, digit⟩
    · exact ⟨'0', _, rfl, rfl⟩

private theorem takeSign_signed (negative : Bool) {c : Char} (cs : List Char) (hc : c.isDigit = true) :
    takeSign (signed negative (c :: cs)) = (negative, c :: cs) := by
  cases negative with
  | true => rfl
  | false =>
    rw [signed, if_neg Bool.false_ne_true, takeSign]
    · rintro rest he
      cases he
      cases hc
    · rintro rest he
      cases he
      cases hc

/-- No digit is a letter. -/
private theorem equalIgnoringCase_digit {c d : Char} {cs ds : List Char} (hc : c.isDigit = true)
    (hd : d.isDigit = false) (lower : d.toLower = d) :
    Text.equalIgnoringCase (c :: cs) (d :: ds) = false := by
  have kept : c.toLower = c := by
    have upper : ¬ (c.val ≥ 'A'.val ∧ c.val ≤ 'Z'.val) := by
      rintro ⟨above, _⟩
      have below : c.val ≤ '9'.val := of_decide_eq_true ((Bool.and_eq_true _ _).mp hc).2
      exact absurd (UInt32.le_trans above below) (by decide)
    rw [Char.toLower, dif_neg upper]
  rw [Text.equalIgnoringCase, List.map_cons, List.map_cons, kept, lower, List.cons_beq_cons]
  have other : (c == d) = false := by
    refine beq_eq_false_iff_ne.mpr ?_
    rintro rfl
    rw [hc] at hd
    cases hd
  rw [other, Bool.false_and]

private theorem readFloat_signed (negative : Bool) (d : Decimal) :
    readFloat (signed negative (positional d)) = some (if negative then -d.toFloat else d.toFloat) := by
  obtain ⟨c, cs, hd, digit⟩ := exists_positional d
  have read := toFloat_positional d
  rw [hd] at read ⊢
  rw [readFloat, takeSign_signed negative cs digit]
  have inf : Text.equalIgnoringCase (c :: cs) ['i', 'n', 'f'] = false :=
    equalIgnoringCase_digit digit rfl rfl
  have infinity : Text.equalIgnoringCase (c :: cs) ['i', 'n', 'f', 'i', 'n', 'i', 't', 'y'] = false :=
    equalIgnoringCase_digit digit rfl rfl
  have nan : Text.equalIgnoringCase (c :: cs) ['n', 'a', 'n'] = false :=
    equalIgnoringCase_digit digit rfl rfl
  simp only [inf, infinity, nan, read, Bool.or_self, Bool.false_eq_true, if_false, Option.map_some]

private theorem readFloat_infinity : readFloat "inf".toList = some infinity := by
  decide +kernel

private theorem readFloat_neg_infinity : readFloat "-inf".toList = some (-infinity) := by
  decide +kernel

private theorem has_infinity : Binary64.Has infinity .positive 2047#11 0#52 := by
  rw [Binary64.Has]
  decide +kernel

private theorem eq_notANumber {x : Float} (h : x.isNaN = true) : x = notANumber := by
  have nan : notANumber = Float.nan := Float.toBits_inj.mp (by decide +kernel)
  rw [Float.isNaN_eq_decide_eq_nan, decide_eq_true_eq] at h
  rw [h, nan]

/-- What is written of a double reads back as that double. -/
theorem readFloat_plain (x : Float) : readFloat (plain x).toList = some x := by
  rw [plain]
  by_cases nan : x.isNaN = true
  · rw [if_pos nan, eq_notANumber nan]
    decide +kernel
  obtain ⟨sign, field, fraction, hx⟩ := Binary64.exists_has x
  have names := hx.names (Bool.eq_false_iff.mpr nan)
  rw [if_neg nan]
  by_cases top : field = 2047#11
  · have infinite : x.isInf = true := (hx.isInf_iff names).mpr top
    cases top
    cases names rfl
    rw [if_pos infinite]
    cases sign with
    | negative =>
      rw [if_pos ((hx.lt_zero_iff names rfl).mpr rfl), hx.eq (has_infinity.neg names)]
      exact readFloat_neg_infinity
    | positive =>
      have above : ¬ x < 0 := by
        rw [hx.lt_zero_iff names rfl]
        simp
      rw [if_neg above, hx.eq has_infinity]
      exact readFloat_infinity
  · have finite : ¬ x.isInf = true := by
      rw [hx.isInf_iff names]
      exact top
    rw [if_neg finite, String.toList_ofList, readFloat_signed,
      toFloat_shortest .up (Binary64.toFloat_decimal hx top), Binary64.signed_abs hx names]

/-- The characters that a double is written with. -/
def isWritten (c : Char) : Bool := c.isDigit || ['-', '.', 'i', 'n', 'f', 'N', 'a'].contains c

private theorem isWritten_of_isDigit {c : Char} (h : c.isDigit = true) : isWritten c = true := by
  rw [isWritten, h, Bool.true_or]

private theorem isWritten_positional (d : Decimal) : ∀ c ∈ positional d, isWritten c = true := by
  have digits : ∀ c ∈ Nat.toDigits 10 d.digits, isWritten c = true :=
    fun c hc => isWritten_of_isDigit (Text.isDigit_toDigits _ c hc)
  have zeros (k : Nat) : ∀ c ∈ List.replicate k '0', isWritten c = true :=
    fun c hc => isWritten_of_isDigit (Text.isDigit_zeros k c hc)
  rw [positional]
  dsimp only
  intro c hc
  split at hc
  · rcases List.mem_append.mp hc with hc | hc
    · exact digits c hc
    · exact zeros _ c hc
  · split at hc
    · rcases List.mem_append.mp hc with hc | hc
      · exact digits c (List.mem_of_mem_take hc)
      · rcases List.mem_cons.mp hc with rfl | hc
        · rfl
        · exact digits c (List.mem_of_mem_drop hc)
    · rcases List.mem_cons.mp hc with rfl | hc
      · rfl
      · rcases List.mem_cons.mp hc with rfl | hc
        · rfl
        · rcases List.mem_append.mp hc with hc | hc
          · exact zeros _ c hc
          · exact digits c hc

private theorem isWritten_plain (x : Float) : ∀ c ∈ (plain x).toList, isWritten c = true := by
  rw [plain]
  split
  · exact List.all_eq_true.mp (by decide)
  · split
    · split <;> exact List.all_eq_true.mp (by decide)
    · rw [String.toList_ofList, signed]
      split
      · exact List.forall_mem_cons.mpr ⟨rfl, isWritten_positional _⟩
      · exact isWritten_positional _

private theorem not_blank_of_isWritten {c : Char} (h : isWritten c = true) : Text.isBlank c = false := by
  rcases (Bool.or_eq_true _ _).mp h with digit | other
  · exact Text.isBlank_of_isDigit digit
  · have free : ['-', '.', 'i', 'n', 'f', 'N', 'a'].any Text.isBlank = false := by decide
    rw [List.any_eq_false] at free
    exact Bool.eq_false_iff.mpr (free c (List.contains_iff_mem.mp other))

theorem trim_plain (x : Float) : Text.trim (plain x).toList = (plain x).toList :=
  Text.trim_of_no_blank fun c hc => not_blank_of_isWritten (isWritten_plain x c hc)

theorem comma_not_mem_plain (x : Float) : ',' ∉ (plain x).toList := by
  intro hc
  cases isWritten_plain x ',' hc

private theorem readDigits_toDigits (n : Nat) : readDigits (Nat.toDigits 10 n) = some n := by
  have some : (Nat.toDigits 10 n).isEmpty = false := by simp [Nat.toDigits_ne_nil]
  rw [readDigits, some, List.all_eq_true.mpr (Text.isDigit_toDigits n), digitsValue,
    Nat.ofDigitChars_ten_toDigits]
  rfl

/-- A count is read back from its digits. -/
theorem readCount_toDigits (n : UInt32) : readCount (Nat.toDigits 10 n.toNat) = some n := by
  have digits := Text.isDigit_toDigits n.toNat
  have read := readDigits_toDigits n.toNat
  generalize Nat.toDigits 10 n.toNat = cs at digits read ⊢
  rw [readCount.eq_def]
  split
  · exact absurd (digits '+' List.mem_cons_self) (by decide)
  · dsimp only
    rw [read, Option.bind_some, if_pos n.toNat_lt, UInt32.ofNat_toNat]

end Itinerary.Decimal

import Itinerary.Json.Printer
import Itinerary.Json.Token
import Itinerary.Proofs.Text.Digits

/-! Strings and numerals read back as they were written, whatever follows. -/
namespace Itinerary.Json

namespace Token
variable {mode : Mode}

private theorem string_backslash (cs : List Char) :
    string mode (.plain none) ('\\' :: cs) = string mode (.escaped none) cs := by
  rw [string]
  simp

private theorem hexDigit_digitChar : ∀ n < 16, hexDigit (Nat.digitChar n) = some n := by decide

private theorem utf8Size_digitChar : ∀ n < 16, (Nat.digitChar n).utf8Size = 1 := by decide

private theorem string_digit {c : Char} {digit : Nat} (hc : hexDigit c = some digit) (due value : Nat)
    (cs : List Char) : string mode (.hex none (due + 2) value) (c :: cs) =
      string mode (.hex none (due + 1) (value * 16 + digit)) cs := by
  rw [string, hc]
  exact if_pos (by omega)

section
variable {cs body rest : List Char} (h : string mode (.plain none) cs = .ok (some body, rest))
include h

private theorem string_char {c : Char} (quote : c ≠ '"') (backslash : c ≠ '\\') (control : ¬ c.toNat < 0x20) :
    string mode (.plain none) (c :: cs) = .ok (some (c :: body), rest) := by
  rw [string]
  simp only [Option.isSome_none, Bool.false_eq_true, false_and, if_false, quote, backslash, control, h]
  rfl

private theorem string_short {c d : Char} (short : d ≠ 'u') (hd : escapedChar d = some c) :
    string mode (.plain none) ('\\' :: d :: cs) = .ok (some (c :: body), rest) := by
  rw [string_backslash, string]
  simp only [Option.isSome_none, Bool.false_eq_true, false_and, if_false, short, hd, h]
  rfl

private theorem string_lastDigit {c : Char} {digit value n : Nat} (hc : hexDigit c = some digit)
    (hn : value * 16 + digit = n) (small : n < 0xD800) :
    string mode (.hex none 1 value) (c :: cs) = .ok (some (Char.ofNat n :: body), rest) := by
  have high : isHigh n = false := by
    simp only [isHigh, Bool.and_eq_false_iff, decide_eq_false_iff_not]
    omega
  have low : isLow n = false := by
    simp only [isLow, Bool.and_eq_false_iff, decide_eq_false_iff_not]
    omega
  rw [string, hc]
  simp only [Nat.lt_irrefl, if_false, hn, high, low, Bool.false_eq_true, h]
  rfl

/-- A control character, by its number. -/
private theorem string_hex {n : Nat} (hn : n < 0x20) :
    string mode (.plain none) ('\\' :: 'u' :: '0' :: '0' :: (hexChars n ++ cs)) =
      .ok (some (Char.ofNat n :: body), rest) := by
  have high : n / 16 < 16 := by omega
  have low : n % 16 < 16 := Nat.mod_lt _ (by decide)
  have zero : hexDigit '0' = some 0 := by decide
  have four : ¬ (('0' :: '0' :: (hexChars n ++ cs)).take 4).foldl (fun size c => size + c.utf8Size) 0 < 4 := by
    simp only [hexChars, List.cons_append, List.nil_append, List.take_succ_cons, List.take_zero,
      List.foldl_cons, List.foldl_nil, utf8Size_digitChar _ high, utf8Size_digitChar _ low]
    decide
  rw [string_backslash, string, if_pos rfl, if_neg four, string_digit zero, string_digit zero,
    hexChars, List.cons_append, string_digit (hexDigit_digitChar _ high)]
  refine string_lastDigit h (hexDigit_digitChar _ low) ?_ (by omega)
  omega

/-- A character is read back from what is written for it. -/
private theorem string_escaped (c : Char) :
    string mode (.plain none) (escaped c ++ cs) = .ok (some (c :: body), rest) := by
  rw [escaped.eq_def]
  split
  · exact string_short h (by decide) rfl
  · exact string_short h (by decide) rfl
  · exact string_short h (by decide) rfl
  · exact string_short h (by decide) rfl
  · exact string_short h (by decide) rfl
  · exact string_short h (by decide) rfl
  · exact string_short h (by decide) rfl
  · rename_i quote backslash _ _ _ _ _
    split
    · rename_i control
      rw [List.append_assoc]
      have own : Char.ofNat c.toNat = c := Char.ofNat_toNat c
      have read := string_hex h control
      rw [own] at read
      exact read
    · rename_i control
      exact string_char h quote backslash control

end

/-- A text is read back from inside its quotes. -/
theorem string_quoted (cs rest : List Char) :
    string mode (.plain none) (cs.flatMap escaped ++ '"' :: rest) = .ok (some cs, rest) := by
  induction cs with
  | nil =>
    rw [List.flatMap_nil, List.nil_append, string]
    simp
  | cons c cs ih =>
    rw [List.flatMap_cons, List.append_assoc]
    exact string_escaped ih c

/-- The text is over, or what follows is no part of a scalar. -/
def Ends (cs : List Char) : Prop := ∀ c ∈ cs.head?, isMark c = true

/-- No digit follows. -/
def Stops (cs : List Char) : Prop := ∀ c ∈ cs.head?, c.isDigit = false

theorem not_digit_of_isMark {c : Char} (h : isMark c = true) : c.isDigit = false := by
  simp only [isMark, Bool.or_eq_true, beq_iff_eq] at h
  rcases h with ((((rfl | rfl) | rfl) | rfl) | rfl) | rfl <;> rfl

private theorem Ends.stops {cs : List Char} (h : Ends cs) :
    Stops cs := fun c hc => not_digit_of_isMark (h c hc)

/-- Digits are read up to where they stop. -/
theorem someDigits_run {ds rest : List Char} (hd : ∀ c ∈ ds, c.isDigit = true) (hn : ds ≠ [])
    (h : Stops rest) : someDigits (ds ++ rest) = .ok (ds, rest) := by
  have taken : (ds ++ rest).takeWhile Char.isDigit = ds := by
    cases rest with
    | nil => rw [List.append_nil, List.takeWhile_eq_self_iff.mpr hd]
    | cons c rest => exact Text.takeWhile_run hd (h c rfl) rest
  have left : (ds ++ rest).dropWhile Char.isDigit = rest := by
    cases rest with
    | nil => rw [List.append_nil, List.dropWhile_eq_nil_iff.mpr hd]
    | cons c rest => exact Text.dropWhile_run hd (h c rfl) rest
  rw [someDigits, taken, left]
  split
  · exact absurd rfl hn
  · rfl

end Token

namespace Numeral

def fractionChars (t : Numeral) : List Char := t.fraction.elim [] fun ds => '.' :: ds

def powerChars (t : Numeral) : List Char :=
  t.power.elim [] fun p => 'e' :: (if p.1 then '-' else '+') :: p.2

/-- A numeral written out, with the sign of its power. -/
def chars (t : Numeral) : List Char :=
  Decimal.signed t.negative (t.whole ++ (t.fractionChars ++ t.powerChars))

/-- A numeral as it may be written: digits wherever there must be some, and no zero in front of
another digit. -/
structure Proper (t : Numeral) : Prop where
  whole : ∀ c ∈ t.whole, c.isDigit = true
  whole_ne : t.whole ≠ []
  leading : ¬ (t.whole.head? = some '0' ∧ 1 < t.whole.length)
  fraction : ∀ ds ∈ t.fraction, ds ≠ [] ∧ ∀ c ∈ ds, c.isDigit = true
  power : ∀ p ∈ t.power, p.2 ≠ [] ∧ ∀ c ∈ p.2, c.isDigit = true

variable {t : Numeral} {rest : List Char}

private theorem powerPart_chars (w : t.Proper) (h : Token.Ends rest) :
    Token.powerPart (t.powerChars ++ rest) = .ok (t.power, rest) := by
  cases hp : t.power with
  | none =>
    rw [powerChars, hp]
    cases rest with
    | nil => rfl
    | cons c rest =>
      have other : ¬ (c = 'e' ∨ c = 'E') := by
        have mark := h c rfl
        rintro (rfl | rfl) <;> cases mark
      change Token.powerPart (c :: rest) = _
      rw [Token.powerPart, if_neg other]
  | some p =>
    obtain ⟨some, digits⟩ := w.power p hp
    have read := Token.someDigits_run digits some h.stops
    have sign : Token.powerSign ((if p.1 then '-' else '+') :: (p.2 ++ rest)) = (p.1, p.2 ++ rest) := by
      cases p.1 <;> rfl
    rw [powerChars, hp]
    change Token.powerPart ('e' :: (if p.1 then '-' else '+') :: (p.2 ++ rest)) = _
    rw [Token.powerPart, if_pos (.inl rfl), sign, read]
    rfl

/-- The power begins with its letter. -/
theorem head_power (h : Token.Ends rest) :
    ∀ c ∈ (t.powerChars ++ rest).head?, c = 'e' ∨ Token.isMark c = true := by
  intro c hc
  cases hp : t.power with
  | none =>
    rw [powerChars, hp] at hc
    exact .inr (h c hc)
  | some p =>
    rw [powerChars, hp] at hc
    exact .inl (Option.some.inj hc).symm

private theorem stops_power (h : Token.Ends rest) : Token.Stops (t.powerChars ++ rest) := by
  intro c hc
  rcases head_power h c hc with rfl | mark
  · rfl
  · exact Token.not_digit_of_isMark mark

private theorem fractionPart_chars (w : t.Proper) (h : Token.Ends rest) :
    Token.fractionPart (t.fractionChars ++ (t.powerChars ++ rest)) =
      .ok (t.fraction, t.powerChars ++ rest) := by
  cases hf : t.fraction with
  | none =>
    have point : ∀ cs, t.powerChars ++ rest ≠ '.' :: cs := by
      intro cs he
      rcases head_power h '.' (by rw [he]; rfl) with he | mark
      · cases he
      · cases mark
    rw [fractionChars, hf]
    change Token.fractionPart (t.powerChars ++ rest) = _
    rw [Token.fractionPart.eq_def]
    split
    · rename_i cs he
      exact absurd he (point cs)
    · rfl
  | some ds =>
    obtain ⟨some, digits⟩ := w.fraction ds hf
    have read := Token.someDigits_run digits some (stops_power (t := t) h)
    rw [fractionChars, hf]
    change Token.fractionPart ('.' :: (ds ++ (t.powerChars ++ rest))) = _
    rw [Token.fractionPart, read]
    rfl

private theorem stops_fraction (h : Token.Ends rest) :
    Token.Stops (t.fractionChars ++ (t.powerChars ++ rest)) := by
  intro c hc
  cases hf : t.fraction with
  | none =>
    rw [fractionChars, hf] at hc
    exact stops_power h c hc
  | some ds =>
    rw [fractionChars, hf] at hc
    cases hc
    rfl

private theorem minusSign_signed (negative : Bool) {c : Char} (cs : List Char) (hc : c.isDigit = true) :
    Token.minusSign (Decimal.signed negative (c :: cs)) = (negative, c :: cs) := by
  cases negative with
  | true => rfl
  | false =>
    change Token.minusSign (c :: cs) = _
    rw [Token.minusSign]
    rintro cs he
    cases he
    cases hc

theorem Proper.exists_chars (w : t.Proper) :
    ∃ c cs, t.chars = c :: cs ∧ (c = '-' ∨ c.isDigit = true) := by
  obtain ⟨c, cs, hw⟩ := List.exists_cons_of_ne_nil w.whole_ne
  rw [chars, hw]
  cases t.negative with
  | true => exact ⟨'-', _, rfl, .inl rfl⟩
  | false => exact ⟨c, _, rfl, .inr (w.whole c (hw ▸ List.mem_cons_self))⟩

/-- A proper numeral is read back, whatever follows. -/
theorem numeral_chars (w : t.Proper) (h : Token.Ends rest) :
    Token.numeral (t.chars ++ rest) = .ok (t, rest) := by
  have minus : Token.minusSign (t.chars ++ rest) =
      (t.negative, t.whole ++ (t.fractionChars ++ (t.powerChars ++ rest))) := by
    obtain ⟨c, cs, hw⟩ := List.exists_cons_of_ne_nil w.whole_ne
    have digit : c.isDigit = true := w.whole c (hw ▸ List.mem_cons_self)
    have signed (ds : List Char) : Decimal.signed t.negative ds ++ rest =
        Decimal.signed t.negative (ds ++ rest) := by
      cases t.negative <;> rfl
    rw [chars, signed, List.append_assoc, List.append_assoc, hw]
    exact minusSign_signed t.negative _ digit
  have whole := Token.someDigits_run w.whole w.whole_ne (stops_fraction (t := t) h)
  simp only [Token.numeral, minus, whole, fractionPart_chars w h, powerPart_chars w h, bind,
    Except.bind, w.leading, if_false]
  rfl

end Numeral
end Itinerary.Json

import Mathlib
import Itinerary.Decimal.Reader
import Itinerary.Proofs.Text.Digits

/-! The characters that doubles are read from. -/
namespace Itinerary.Decimal

/-- Letters, digits, the signs and the point. -/
def isLiteral (c : Char) : Bool := c.isAlphanum || c == '+' || c == '-' || c == '.'

private theorem isLiteral_of_isDigit {c : Char} (h : c.isDigit = true) : isLiteral c = true := by
  simp [isLiteral, Char.isAlphanum, h]

variable {cs : List Char}

private theorem mem_takeSign {c : Char} (h : c ∈ cs) : c = '-' ∨ c = '+' ∨ c ∈ (takeSign cs).2 := by
  rw [takeSign.eq_def]
  split
  · exact (List.mem_cons.mp h).imp_right .inr
  · exact .inr (List.mem_cons.mp h)
  · exact .inr (.inr h)

private theorem isLiteral_of_takeSign (h : ∀ c ∈ (takeSign cs).2, isLiteral c = true) :
    ∀ c ∈ cs, isLiteral c = true := by
  intro c hc
  rcases mem_takeSign hc with rfl | rfl | hc
  · rfl
  · rfl
  · exact h c hc

private theorem isLiteral_of_readDigits {n : Nat} (h : readDigits cs = some n) :
    ∀ c ∈ cs, isLiteral c = true := by
  rw [readDigits] at h
  split at h
  · cases h
  · rename_i digits
    simp only [Bool.or_eq_true, not_or, Bool.not_eq_true, Bool.not_eq_false'] at digits
    exact fun c hc => isLiteral_of_isDigit (List.all_eq_true.mp digits.2 c hc)

private theorem isLiteral_of_readPower {power : Int} (h : readPower cs = some power) :
    ∀ c ∈ cs, isLiteral c = true := by
  cases cs with
  | nil => exact fun c hc => absurd hc List.not_mem_nil
  | cons d cs =>
    rw [readPower] at h
    split at h
    · rename_i letter
      obtain ⟨n, read, -⟩ := Option.map_eq_some_iff.mp h
      obtain ⟨m, digits, -⟩ := Option.bind_eq_some_iff.mp read
      refine List.forall_mem_cons.mpr ⟨?_, isLiteral_of_takeSign (isLiteral_of_readDigits digits)⟩
      rcases letter with rfl | rfl <;> rfl
    · cases h

private theorem isLiteral_of_readNumeral {d : Decimal} (h : readNumeral cs = some d) :
    cs ≠ [] ∧ ∀ c ∈ cs, isLiteral c = true := by
  have whole : ∀ c ∈ cs.takeWhile Char.isDigit, isLiteral c = true := fun c hc =>
    isLiteral_of_isDigit (List.all_eq_true.mp List.all_takeWhile c hc)
  have some : cs ≠ [] := by
    rintro rfl
    cases h
  refine ⟨some, ?_⟩
  rw [← List.takeWhile_append_dropWhile (p := Char.isDigit) (l := cs)]
  refine List.forall_mem_append.mpr ⟨whole, ?_⟩
  rw [readNumeral] at h
  split at h
  rename_i fraction rest parts
  split at h
  · cases h
  · obtain ⟨power, read, -⟩ := Option.map_eq_some_iff.mp h
    have behind := isLiteral_of_readPower read
    split at parts
    · rename_i r hr
      cases parts
      rw [hr]
      refine List.forall_mem_cons.mpr ⟨rfl, ?_⟩
      rw [← List.takeWhile_append_dropWhile (p := Char.isDigit) (l := r)]
      refine List.forall_mem_append.mpr ⟨fun c hc => ?_, behind⟩
      exact isLiteral_of_isDigit (List.all_eq_true.mp List.all_takeWhile c hc)
    · cases parts
      exact behind

theorem isLiteral_of_isAlpha {c : Char} (h : c.isAlpha = true) : isLiteral c = true := by
  simp [isLiteral, Char.isAlphanum, h]

private theorem isLiteral_of_equalIgnoringCase {name : List Char} (h : Text.equalIgnoringCase cs name = true)
    (some : name ≠ []) (letters : name.all Char.isAlpha = true) :
    cs ≠ [] ∧ ∀ c ∈ cs, isLiteral c = true := by
  have same : cs.map Char.toLower = name.map Char.toLower := beq_iff_eq.mp h
  constructor
  · rintro rfl
    exact some (List.map_eq_nil_iff.mp same.symm)
  · intro c hc
    have lower : c.toLower ∈ name.map Char.toLower := same ▸ List.mem_map_of_mem hc
    obtain ⟨d, hd, he⟩ := List.mem_map.mp lower
    have letter : c.isAlpha = true := by
      rw [← Char.isAlpha_toLower_eq_isAlpha, ← he, Char.isAlpha_toLower_eq_isAlpha]
      exact List.all_eq_true.mp letters d hd
    exact isLiteral_of_isAlpha letter

/-- What is read as a double is not empty and has no other characters. -/
theorem isLiteral_of_readFloat {x : Float} (h : readFloat cs = some x) :
    cs ≠ [] ∧ ∀ c ∈ cs, isLiteral c = true := by
  obtain ⟨⟨negative, unsigned⟩, hs⟩ : ∃ t, takeSign cs = t := ⟨_, rfl⟩
  have magnitude : unsigned ≠ [] ∧ ∀ c ∈ unsigned, isLiteral c = true := by
    rw [readFloat, hs] at h
    obtain ⟨y, hy, -⟩ := Option.map_eq_some_iff.mp h
    split at hy
    · rename_i named
      rcases (Bool.or_eq_true _ _).mp named with inf | infinity
      · exact isLiteral_of_equalIgnoringCase inf (List.cons_ne_nil _ _) rfl
      · exact isLiteral_of_equalIgnoringCase infinity (List.cons_ne_nil _ _) rfl
    · split at hy
      · rename_i nan
        exact isLiteral_of_equalIgnoringCase nan (List.cons_ne_nil _ _) rfl
      · obtain ⟨d, read, -⟩ := Option.map_eq_some_iff.mp hy
        exact isLiteral_of_readNumeral read
  refine ⟨?_, isLiteral_of_takeSign (hs ▸ magnitude.2)⟩
  rintro rfl
  cases hs
  exact magnitude.1 rfl

section
variable {c : Char} (h : isLiteral c = true)
include h

private theorem bounds_of_isLiteral : 0x21 ≤ c.toNat ∧ c.toNat ≤ 0x7E := by
  simp only [isLiteral, Char.isAlphanum, Char.isAlpha, Char.isUpper, Char.isLower, Char.isDigit,
    Bool.or_eq_true, Bool.and_eq_true, decide_eq_true_eq, beq_iff_eq, ge_iff_le, UInt32.le_iff_toNat_le,
    Char.toNat_val, Char.reduceToNat] at h
  rcases h with ((((capital | small) | digit) | rfl) | rfl) | rfl
  · omega
  · omega
  · omega
  · decide
  · decide
  · decide

theorem not_blank_of_isLiteral : Text.isBlank c = false := by
  obtain ⟨low, high⟩ := bounds_of_isLiteral h
  simp only [Text.isBlank, Bool.or_eq_false_iff, Bool.and_eq_false_iff, beq_eq_false_iff_ne,
    decide_eq_false_iff_not]
  omega

end

end Itinerary.Decimal

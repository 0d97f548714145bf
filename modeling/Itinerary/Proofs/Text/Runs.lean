import Mathlib.Data.List.DropRight
import Mathlib.Data.List.TakeWhile
import Itinerary.Text.Blank

/-! The run of alike characters that a text begins with, and blanks around a text. -/
namespace Itinerary.Text

section
variable {p : Char → Bool} {cs : List Char} (h : ∀ c ∈ cs, p c = true) {d : Char} (hd : p d = false)
include h hd

/-- A run ends before the first character that is not like it. -/
theorem takeWhile_run (rest : List Char) : (cs ++ d :: rest).takeWhile p = cs := by
  have stop : ¬ p d = true := by simp [hd]
  rw [List.takeWhile_append_of_pos h, List.takeWhile_cons_of_neg stop, List.append_nil]

theorem dropWhile_run (rest : List Char) : (cs ++ d :: rest).dropWhile p = d :: rest := by
  have stop : ¬ p d = true := by simp [hd]
  rw [List.dropWhile_append_of_pos h, List.dropWhile_cons_of_neg stop]

end

variable {cs : List Char}

theorem dropWhile_of_none {p : Char → Bool} (h : ∀ c ∈ cs, p c = false) : cs.dropWhile p = cs := by
  rw [List.dropWhile_eq_self_iff]
  intro hl
  rw [h _ (List.getElem_mem hl)]
  exact Bool.false_ne_true

/-- Text without blanks is not cut. -/
theorem trim_of_no_blank (h : ∀ c ∈ cs, isBlank c = false) : trim cs = cs := by
  have back : ∀ c ∈ cs.reverse, isBlank c = false := fun c hc => h c (List.mem_reverse.mp hc)
  rw [trim, trimStart, dropWhile_of_none h, trimEnd, dropWhile_of_none back, List.reverse_reverse]

/-- Trimmed text neither begins nor ends with a blank. -/
theorem trim_trim (cs : List Char) : trim (trim cs) = trim cs := by
  have start : trimStart (trim cs) = trim cs := by
    rw [trimStart, List.dropWhile_eq_self_iff]
    intro some
    have whole : trim cs <+: trimStart cs := List.rdropWhile_prefix isBlank _
    rw [whole.getElem some]
    exact List.dropWhile_get_zero_not isBlank cs (Nat.lt_of_lt_of_le some whole.length_le)
  rw [trim, start, trim]
  exact List.rdropWhile_idempotent isBlank (trimStart cs)

/-- Only blanks are cut off. -/
theorem exists_trim (cs : List Char) : ∃ lead trail, (∀ c ∈ lead, isBlank c = true) ∧
    (∀ c ∈ trail, isBlank c = true) ∧ cs = lead ++ (trim cs ++ trail) := by
  refine ⟨cs.takeWhile isBlank, (trimStart cs).rtakeWhile isBlank, ?_, ?_, ?_⟩
  · exact List.all_eq_true.mp List.all_takeWhile
  · exact fun c hc => List.mem_rtakeWhile_imp hc
  · change cs = _ ++ ((trimStart cs).rdropWhile isBlank ++ _)
    rw [List.rdropWhile_append_rtakeWhile, trimStart, List.takeWhile_append_dropWhile]

theorem mem_of_mem_trim {c : Char} (h : c ∈ trim cs) : c ∈ cs := by
  obtain ⟨lead, trail, -, -, whole⟩ := exists_trim cs
  rw [whole]
  exact List.mem_append_right lead (List.mem_append_left trail h)

/-- A text that does not begin with a blank keeps its beginning. -/
theorem dropWhile_blank (h : ∀ c ∈ cs.head?, isBlank c = false) : cs.dropWhile isBlank = cs := by
  cases cs with
  | nil => rfl
  | cons c rest => simp [h c rfl]

/-- Blanks around a text that neither begins nor ends with one. -/
theorem trim_between {lead trail : List Char} (hl : ∀ c ∈ lead, isBlank c = true)
    (ht : ∀ c ∈ trail, isBlank c = true) (some : cs ≠ []) (first : ∀ c ∈ cs.head?, isBlank c = false)
    (last : ∀ c ∈ cs.getLast?, isBlank c = false) : trim (lead ++ (cs ++ trail)) = cs := by
  have start : (cs ++ trail).dropWhile isBlank = cs ++ trail := by
    apply dropWhile_blank
    rwa [List.head?_append_of_ne_nil _ some]
  have stop : cs.reverse.dropWhile isBlank = cs.reverse := by
    apply dropWhile_blank
    rwa [List.head?_reverse]
  have back : ∀ c ∈ trail.reverse, isBlank c = true := fun c hc => ht c (List.mem_reverse.mp hc)
  rw [trim, trimStart, List.dropWhile_append_of_pos hl, start, trimEnd, List.reverse_append,
    List.dropWhile_append_of_pos back, stop, List.reverse_reverse]

theorem trimmed_trimmed (s : String) : trimmed (trimmed s) = trimmed s := by
  rw [trimmed, trimmed, String.toList_ofList, trim_trim]

/-- Nothing but blanks is left only where nothing is left. -/
theorem allBlank_trimmed_iff (s : String) : allBlank (trimmed s) = true ↔ trimmed s = "" := by
  constructor
  · intro h
    rw [allBlank, trimmed, String.toList_ofList] at h
    have none : trimStart (trim s.toList) = [] := List.dropWhile_eq_nil_iff.mpr (List.all_eq_true.mp h)
    rw [trimmed, ← trim_trim, trim, none]
    rfl
  · intro h
    rw [h]
    rfl

/-- Lines are blank together if each of them is. -/
theorem allBlank_intercalate (lines : List String) :
    allBlank ("\n".intercalate lines) = lines.all allBlank := by
  rw [allBlank, String.toList_intercalate]
  induction lines with
  | nil => rfl
  | cons line lines ih =>
    cases lines with
    | nil => simp [allBlank]
    | cons next lines =>
      have feed : isBlank '\n' = true := rfl
      simp_all [allBlank]

end Itinerary.Text

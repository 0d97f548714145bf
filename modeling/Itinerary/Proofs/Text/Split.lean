import Itinerary.Text.Split

/-! What cutting a text at a mark gives back. -/
namespace Itinerary.Text

theorem splitFirst_of_not_mem {mark : Char} {cs : List Char} (h : mark ∉ cs) :
    splitFirst mark cs = none := by
  induction cs with
  | nil => rfl
  | cons c cs ih =>
    rw [List.mem_cons, not_or] at h
    rw [splitFirst, if_neg (Ne.symm h.1), ih h.2]
    rfl

theorem splitFirst_append {mark : Char} {before : List Char} (h : mark ∉ before) (after : List Char) :
    splitFirst mark (before ++ mark :: after) = some (before, after) := by
  induction before with
  | nil => rw [List.nil_append, splitFirst, if_pos rfl]
  | cons c cs ih =>
    rw [List.mem_cons, not_or] at h
    rw [List.cons_append, splitFirst, if_neg (Ne.symm h.1), ih h.2]
    rfl

/-- The last mark is the one that no other follows. -/
theorem splitLast_append {mark : Char} {after : List Char} (h : mark ∉ after) (before : List Char) :
    splitLast mark (before ++ mark :: after) = some (before, after) := by
  have none (cs : List Char) (hc : mark ∉ cs) : splitLast mark cs = none := by
    induction cs with
    | nil => rfl
    | cons c cs ih =>
      rw [List.mem_cons, not_or] at hc
      rw [splitLast, ih hc.2]
      exact if_neg (Ne.symm hc.1)
  induction before with
  | nil =>
    rw [List.nil_append, splitLast, none after h]
    exact if_pos rfl
  | cons c cs ih => rw [List.cons_append, splitLast, ih]

theorem pieces_ne_nil (mark : Char) (cs : List Char) : pieces mark cs ≠ [] := by
  cases cs with
  | nil => exact List.cons_ne_nil _ _
  | cons c cs =>
    rw [pieces]
    split
    · exact List.cons_ne_nil _ _
    · split <;> exact List.cons_ne_nil _ _

theorem pieces_of_not_mem {mark : Char} {cs : List Char} (h : mark ∉ cs) : pieces mark cs = [cs] := by
  induction cs with
  | nil => rfl
  | cons c cs ih =>
    rw [List.mem_cons, not_or] at h
    rw [pieces, if_neg (Ne.symm h.1), ih h.2]

/-- A mark parts the pieces before it from those after it. -/
theorem pieces_append (mark : Char) (before after : List Char) :
    pieces mark (before ++ mark :: after) = pieces mark before ++ pieces mark after := by
  induction before with
  | nil =>
    show pieces mark (mark :: after) = [] :: pieces mark after
    rw [pieces, if_pos rfl]
  | cons c cs ih =>
    rw [List.cons_append, pieces, pieces, ih]
    by_cases hc : c = mark
    · rw [if_pos hc, if_pos hc]
      rfl
    · rw [if_neg hc, if_neg hc]
      cases hp : pieces mark cs with
      | nil => exact absurd hp (pieces_ne_nil mark cs)
      | cons first others => rfl

/-- What is put behind a text without a mark goes to its last piece. -/
theorem exists_pieces_append {mark : Char} {more : List Char} (h : mark ∉ more) (cs : List Char) :
    ∃ front last, pieces mark cs = front ++ [last] ∧
      pieces mark (cs ++ more) = front ++ [last ++ more] := by
  induction cs with
  | nil => exact ⟨[], [], rfl, pieces_of_not_mem h⟩
  | cons c cs ih =>
    obtain ⟨front, last, short, long⟩ := ih
    rw [List.cons_append, pieces, pieces, short, long]
    by_cases hc : c = mark
    · rw [if_pos hc, if_pos hc]
      exact ⟨[] :: front, last, rfl, rfl⟩
    · rw [if_neg hc, if_neg hc]
      cases front with
      | nil => exact ⟨[], c :: last, rfl, rfl⟩
      | cons piece front => exact ⟨(c :: piece) :: front, last, rfl, rfl⟩

/-- Texts without a mark that are put together with marks come apart again. -/
theorem pieces_intercalate {mark : Char} {texts : List (List Char)} (some : texts ≠ [])
    (h : ∀ text ∈ texts, mark ∉ text) : pieces mark ([mark].intercalate texts) = texts := by
  induction texts with
  | nil => exact absurd rfl some
  | cons text texts ih =>
    obtain ⟨first, rest⟩ := List.forall_mem_cons.mp h
    cases texts with
    | nil => simpa using pieces_of_not_mem first
    | cons next texts =>
      have parted : [mark].intercalate (text :: next :: texts) =
          text ++ mark :: [mark].intercalate (next :: texts) := by
        simp
      rw [parted, pieces_append, pieces_of_not_mem first, ih (List.cons_ne_nil _ _) rest]
      rfl

theorem holds_of_not_mem {word : List Char} {c : Char} (hw : c ∈ word) {cs : List Char} (hc : c ∉ cs) :
    holds word cs = false := by
  induction cs with
  | nil =>
    cases word with
    | nil => cases hw
    | cons d word => rfl
  | cons d cs ih =>
    have other : ((d :: cs).take word.length == word) = false := by
      refine beq_eq_false_iff_ne.mpr fun he => hc ?_
      exact List.mem_of_mem_take (he ▸ hw)
    rw [holds, other, ih fun h => hc (List.mem_cons_of_mem _ h)]
    rfl

/-- A text holds what is part of it in one piece. -/
theorem holds_iff (word cs : List Char) : holds word cs = true ↔ word <:+: cs := by
  induction cs with
  | nil => rw [holds, List.isEmpty_iff, List.infix_nil]
  | cons c cs ih =>
    rw [holds, Bool.or_eq_true, ih, List.infix_cons_iff, beq_iff_eq, List.prefix_iff_eq_take, eq_comm]

end Itinerary.Text

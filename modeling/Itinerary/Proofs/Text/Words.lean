import Itinerary.Proofs.Text.Runs
import Itinerary.Proofs.Text.Split

/-! The words of a text, whatever blanks stand between and around them. -/
namespace Itinerary.Text
variable {gap : List Char} (hg : ∀ c ∈ gap, isBlank c = true)

private theorem wordsFrom_append {word : List Char} (h : ∀ c ∈ word, isBlank c = false)
    (run rest : List Char) : wordsFrom run (word ++ rest) = wordsFrom (word.reverse ++ run) rest := by
  induction word generalizing run with
  | nil => rfl
  | cons c word ih =>
    obtain ⟨solid, others⟩ := List.forall_mem_cons.mp h
    simp [wordsFrom, solid, ih others]

/-- A word ends where a blank follows, or nothing. -/
theorem words_append {word rest : List Char} (some : word ≠ []) (h : ∀ c ∈ word, isBlank c = false)
    (stop : ∀ c ∈ rest.head?, isBlank c = true) : words (word ++ rest) = word :: words rest := by
  rw [words, wordsFrom_append h]
  cases rest with
  | nil => simp [words, wordsFrom, some]
  | cons c rest => simp [words, wordsFrom, stop c rfl, some]

include hg

theorem words_blanks_append (cs : List Char) : words (gap ++ cs) = words cs := by
  induction gap with
  | nil => rfl
  | cons c gap ih =>
    obtain ⟨blank, others⟩ := List.forall_mem_cons.mp hg
    have next : words (c :: (gap ++ cs)) = words (gap ++ cs) := by
      simp [words, wordsFrom, blank]
    exact next.trans (ih others)

private theorem wordsFrom_append_blanks (cs run : List Char) :
    wordsFrom run (cs ++ gap) = wordsFrom run cs := by
  induction cs generalizing run with
  | nil =>
    cases gap with
    | nil => rfl
    | cons c gap =>
      obtain ⟨blank, others⟩ := List.forall_mem_cons.mp hg
      have none : wordsFrom [] gap = [] := by
        have trailing := words_blanks_append others []
        rwa [List.append_nil] at trailing
      simp [wordsFrom, blank, none]
  | cons c cs ih => simp only [List.cons_append, wordsFrom, ih]

theorem words_append_blanks (cs : List Char) : words (cs ++ gap) = words cs :=
  wordsFrom_append_blanks hg cs []

section
variable {mark : Char} (solid : isBlank mark = false)
include solid

private theorem mark_not_mem : mark ∉ gap := by
  intro hm
  rw [hg mark hm] at solid
  cases solid

/-- Blanks before a text change no words of its pieces. -/
private theorem map_words_pieces_blanks (cs : List Char) :
    (pieces mark (gap ++ cs)).map words = (pieces mark cs).map words := by
  induction gap with
  | nil => rfl
  | cons c gap ih =>
    obtain ⟨blank, others⟩ := List.forall_mem_cons.mp hg
    have other : c ≠ mark := by
      rintro rfl
      rw [blank] at solid
      cases solid
    rw [← ih others, List.cons_append, pieces, if_neg other]
    cases hp : pieces mark (gap ++ cs) with
    | nil => exact absurd hp (pieces_ne_nil mark _)
    | cons piece pieces =>
      have single : ∀ d ∈ [c], isBlank d = true := by simpa using blank
      have same : words (c :: piece) = words piece := words_blanks_append single piece
      simp [same]

/-- Nor do blanks behind it. -/
private theorem map_words_pieces_append (cs : List Char) :
    (pieces mark (cs ++ gap)).map words = (pieces mark cs).map words := by
  obtain ⟨front, last, short, long⟩ := exists_pieces_append (mark_not_mem hg solid) cs
  simp [short, long, words_append_blanks hg]

end

omit hg

theorem map_words_pieces_trim {mark : Char} (solid : isBlank mark = false) (cs : List Char) :
    (pieces mark (trim cs)).map words = (pieces mark cs).map words := by
  obtain ⟨lead, trail, hl, ht, whole⟩ := exists_trim cs
  rw [whole, map_words_pieces_blanks hl solid, map_words_pieces_append ht solid, ← whole]

end Itinerary.Text

import Itinerary.Proofs.Json.Rendered

/-! The text of a value is read as that value, each of its numbers as its numeral is read. -/
namespace Itinerary.Json

/-- The usual value of a numeral. -/
def usual (t : Numeral) : Json := t.value.getD .unusable

/-- What the text of a value is read as. -/
def reread (j : Json) : Json := rereadBy usual j

namespace Token

private theorem scalarAt_eq (c : Char) (cs : List Char) : scalarAt .tolerant c cs = scalarBy usual c cs := by
  rw [scalarBy]
  split
  · rename_i first
    have plain : c ≠ '"' := by
      rintro rfl
      revert first
      decide
    rw [scalarAt, if_neg plain, if_pos first]
    cases numeral (c :: cs) with
    | error e => rfl
    | ok read =>
      obtain ⟨t, rest⟩ := read
      cases hv : t.value <;> simp [bind, Except.bind, pure, Except.pure, usual, hv]
  · rfl

private theorem scan_cons (mode : Mode) (c : Char) (cs : List Char) : scan mode (c :: cs) =
    if isGap c then scan mode cs
    else if isMark c then .mark c :: scan mode cs
    else followed c (scan mode) (scalarAt mode c cs) := by
  rw [scan]
  split
  · rfl
  · split
    · rfl
    · split <;> rename_i read <;> rw [read] <;> rfl

private theorem scan_eq (cs : List Char) : scan .tolerant cs = scanBy usual cs := by
  induction hn : cs.length using Nat.strongRecOn generalizing cs with
  | ind n ih =>
    cases cs with
    | nil => rw [scan, scanBy]
    | cons c cs =>
      have behind : scan .tolerant cs = scanBy usual cs := ih cs.length (hn ▸ Nat.lt_succ_self _) cs rfl
      rw [scan_cons, scanBy_cons, scalarAt_eq, behind]
      cases read : scalarBy usual c cs with
      | error e => rfl
      | ok found =>
        obtain ⟨t, rest⟩ := found
        rw [followed, followed, ih rest.length (hn ▸ scalarBy_shortens usual read) rest rfl]

end Token

/-- The text of any value is a JSON text. -/
theorem read_render (j : Json) : read j.render = some j.reread := by
  have whole := readBy_render usual j
  rw [readBy, ← Token.scan_eq] at whole
  rw [read, parse, whole, reread]

end Itinerary.Json

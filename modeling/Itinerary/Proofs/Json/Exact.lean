import Itinerary.Proofs.Decimal.Reading
import Itinerary.Proofs.Json.Record

/-! A reader for which a numeral is the number that it stands for, rounded once to the nearest double if
it is not whole: what it reads of a value's text is the value. -/
namespace Itinerary.Json
open Decimal

/-- What a numeral stands for. -/
def Numeral.exact (t : Numeral) : Json :=
  if t.fraction.isSome || t.power.isSome then
    .float (if t.negative then -t.decimal.toFloat else t.decimal.toFloat)
  else .int (if t.negative then -(digitsValue t.whole : Int) else digitsValue t.whole)

/-- The value of a text, exactly. -/
def decode? (text : String) : Option Json := readBy Numeral.exact text

private theorem numberBy_whole (n : Int) : numberBy Numeral.exact (Json.int n).chars = .int n := by
  have digits : digitsValue (wholeNumeral n).whole = n.natAbs := Nat.ofDigitChars_ten_toDigits
  have signed : (if (wholeNumeral n).negative then -(n.natAbs : Int) else n.natAbs) = n := by
    change (if decide (n < 0) then _ else _) = _
    simp only [decide_eq_true_eq]
    omega
  rw [← chars_wholeNumeral, Token.numberBy_chars (wholeNumeral_proper n), Numeral.exact, digits, signed]
  rfl

/-- A finite double is the one nearest to the numeral that it is written as. -/
private theorem numberBy_floatChars {x : Float} (h : x.isFinite = true) :
    numberBy Numeral.exact (floatChars x) = .float x := by
  obtain ⟨t, spells, written⟩ := exists_floatChars x
  have double : (t.fraction.isSome || t.power.isSome) = true := Bool.or_eq_true_iff.mpr spells.parts
  rw [← written, Token.numberBy_chars spells.proper, Numeral.exact, if_pos double, spells.sign, spells.value,
    signed_shortest .even h]

mutual

/-- Everything in the value stands for something. -/
def isUsable : Json → Bool
  | .unusable => false
  | .arr items => areUsable items
  | .obj members => membersUsable members
  | _ => true

def areUsable : List Json → Bool
  | [] => true
  | j :: js => isUsable j && areUsable js

def membersUsable : List (String × Json) → Bool
  | [] => true
  | (_, j) :: ms => isUsable j && membersUsable ms

end

mutual

/-- All the doubles in the value. -/
def floats : Json → List Float
  | .float x => [x]
  | .arr items => itemFloats items
  | .obj members => memberFloats members
  | _ => []

def itemFloats : List Json → List Float
  | [] => []
  | j :: js => floats j ++ itemFloats js

def memberFloats : List (String × Json) → List Float
  | [] => []
  | (_, j) :: ms => floats j ++ memberFloats ms

end

mutual

/-- A value whose doubles are finite is read back exactly. -/
theorem rereadBy_exact (j : Json) (usable : j.isUsable = true) (finite : ∀ x ∈ j.floats, x.isFinite = true) :
    rereadBy Numeral.exact j = j := by
  cases j with
  | null | bool | str => rfl
  | int n => exact numberBy_whole n
  | float x =>
    have number : x.isFinite = true := finite x (List.mem_singleton_self x)
    rw [rereadBy, if_pos number, numberBy_floatChars number]
  | arr items => rw [rereadBy, rereadItemsBy_exact items usable finite]
  | obj members => rw [rereadBy, rereadMembersBy_exact members usable finite]
  | unusable => cases usable

theorem rereadItemsBy_exact (js : List Json) (usable : areUsable js = true)
    (finite : ∀ x ∈ itemFloats js, x.isFinite = true) : rereadItemsBy Numeral.exact js = js := by
  cases js with
  | nil => rfl
  | cons j js =>
    obtain ⟨first, others⟩ := (Bool.and_eq_true _ _).mp usable
    obtain ⟨here, behind⟩ := List.forall_mem_append.mp finite
    rw [rereadItemsBy, rereadBy_exact j first here, rereadItemsBy_exact js others behind]

theorem rereadMembersBy_exact (ms : List (String × Json)) (usable : membersUsable ms = true)
    (finite : ∀ x ∈ memberFloats ms, x.isFinite = true) : rereadMembersBy Numeral.exact ms = ms := by
  cases ms with
  | nil => rfl
  | cons m ms =>
    obtain ⟨k, j⟩ := m
    obtain ⟨first, others⟩ := (Bool.and_eq_true _ _).mp usable
    obtain ⟨here, behind⟩ := List.forall_mem_append.mp finite
    rw [rereadMembersBy, rereadBy_exact j first here, rereadMembersBy_exact ms others behind]

end

/-- What is written of a value is read back exactly. -/
theorem decode?_render {j : Json} (usable : j.isUsable = true) (finite : ∀ x ∈ j.floats, x.isFinite = true) :
    decode? j.render = some j := by
  rw [decode?, readBy_render, rereadBy_exact j usable finite]

theorem areUsable_eq (js : List Json) : areUsable js = js.all isUsable := by
  induction js with
  | nil => rfl
  | cons j js ih => rw [areUsable, ih, List.all_cons]

theorem membersUsable_eq (ms : List (String × Json)) : membersUsable ms = ms.all (·.2.isUsable) := by
  induction ms with
  | nil => rfl
  | cons m ms ih =>
    obtain ⟨k, j⟩ := m
    rw [membersUsable, ih, List.all_cons]

theorem itemFloats_eq (js : List Json) : itemFloats js = js.flatMap floats := by
  induction js with
  | nil => rfl
  | cons j js ih => rw [itemFloats, ih, List.flatMap_cons]

theorem memberFloats_eq (ms : List (String × Json)) : memberFloats ms = ms.flatMap (·.2.floats) := by
  induction ms with
  | nil => rfl
  | cons m ms ih =>
    obtain ⟨k, j⟩ := m
    rw [memberFloats, ih, List.flatMap_cons]

mutual

/-- What is usable stands for something throughout. -/
theorem isUsable_of_usable? {room : Nat} {j k : Json} (h : j.usable? room = some k) : k.isUsable = true := by
  cases j with
  | null | bool | int | float | str =>
    rw [usable?] at h
    cases h
    rfl
  | arr items =>
    cases room with
    | zero => cases h
    | succ room =>
      rw [usable?] at h
      obtain ⟨read, items, rfl⟩ := Option.map_eq_some_iff.mp h
      exact areUsable_of_usableItems? items
  | obj members =>
    cases room with
    | zero => cases h
    | succ room =>
      rw [usable?] at h
      obtain ⟨read, members, rfl⟩ := Option.map_eq_some_iff.mp h
      have usable := membersUsable_of_usableMembers? members
      rw [membersUsable_eq, List.all_eq_true] at usable
      rw [isUsable, membersUsable_eq, List.all_eq_true]
      exact fun m hm => usable m (mem_sortMembers hm)
  | unusable => cases h

theorem areUsable_of_usableItems? {room : Nat} {js ks : List Json} (h : usableItems? room js = some ks) :
    areUsable ks = true := by
  cases js with
  | nil =>
    cases h
    rfl
  | cons j js =>
    simp only [usableItems?, bind, Option.bind_eq_some_iff] at h
    obtain ⟨k, first, ks, others, he⟩ := h
    cases he
    rw [areUsable, isUsable_of_usable? first, areUsable_of_usableItems? others]
    rfl

theorem membersUsable_of_usableMembers? {room : Nat} {ms ks : List (String × Json)}
    (h : usableMembers? room ms = some ks) : membersUsable ks = true := by
  cases ms with
  | nil =>
    cases h
    rfl
  | cons m ms =>
    obtain ⟨key, j⟩ := m
    simp only [usableMembers?, bind, Option.bind_eq_some_iff] at h
    obtain ⟨k, first, ks, others, he⟩ := h
    cases he
    rw [membersUsable, isUsable_of_usable? first, membersUsable_of_usableMembers? others]
    rfl

end

end Itinerary.Json

import Itinerary.Geometry
import Itinerary.Proofs.Polyline.Grammar
import Itinerary.Proofs.Polyline.Wkt
import Mathlib.Tactic.IntervalCases

/-! When a text is taken for well-known text although it is an encoded polyline: the letters of the
keyword are octets of numbers as well. -/
namespace Itinerary

open Polyline Polyline.Varint

namespace Polyline
variable {p : Polyline}

/-- An encoded polyline has printable octets only. -/
private theorem printable_of_decode {text : String} {elevation : Bool} (h : decode text elevation = .ok p) :
    ∀ b ∈ octetsOf text, Printable b := by
  obtain ⟨-, numbers, split, -⟩ := (exists_decode_iff text elevation).mp ⟨p, h⟩
  rw [split.octets, List.append_nil]
  intro b hb
  obtain ⟨number, member, hb⟩ := List.mem_flatten.mp hb
  exact (split.numbers number member).printable b hb

/-- The octet of a parenthesis is not printable in this sense. -/
theorem not_mem_of_printable {text : String} (h : ∀ b ∈ octetsOf text, Printable b) :
    '(' ∉ text.toList := by
  intro opened
  have octet : 40 ∈ octetsOf text := List.mem_flatMap.mpr ⟨'(', opened, by decide⟩
  exact absurd (h 40 octet).1 (by decide)

private theorem decode_not_refused (text : String) (elevation : Bool) :
    ¬ Refused (decode text elevation) := by
  rintro ⟨reason, he⟩
  obtain ⟨_, _, ⟨_, _, p, other⟩ | ⟨_, _, other⟩ | ⟨_, _, _, _, other⟩⟩ | ⟨_, other⟩ :=
    decode_cases text elevation
  all_goals
    rw [other] at he
    cases he

/-- What the letters of the keyword carry as octets. -/
def keywordGroups : List Nat := [13, 10, 15, 6, 20, 21, 19, 10, 15, 8]

private theorem keywordGroups_eq : wktKeyword.map (·.toNat - 63) = keywordGroups := rfl

/-- The character that a printable octet is. -/
def letter (b : UInt8) : Char := Char.ofNat b.toNat

private theorem toList_encode (p : Polyline) : p.encode.toList = p.octets.map letter := String.toList_ofList

section
variable {b : UInt8} (hb : Printable b)
include hb

private theorem letter_not_blank : Text.isBlank (letter b) = false := by
  have table : ∀ n, n < 127 → 63 ≤ n → Text.isBlank (Char.ofNat n) = false := by decide
  exact table b.toNat (Nat.lt_succ_of_le hb.2) hb.1

/-- A letter in capitals ends a number and a small one does not, but both carry the same. -/
private theorem toUpper_letter_eq_iff {c : Char} (hc : c ∈ wktKeyword) :
    (letter b).toUpper = c ↔ carried b = c.toNat - 63 := by
  have table : ∀ n, n < 127 → 63 ≤ n → (wktKeyword.all fun c =>
      (Char.ofNat n).toUpper = c ↔ (n - 63) % 32 = c.toNat - 63) = true := by decide +kernel
  have row := table b.toNat (Nat.lt_succ_of_le hb.2) hb.1
  exact of_decide_eq_true (List.all_eq_true.mp row c hc)

end

private theorem map_toUpper_letter_eq_iff {bs : List UInt8} (hb : ∀ b ∈ bs, Printable b) {word : List Char}
    (hw : ∀ c ∈ word, c ∈ wktKeyword) :
    (bs.map letter).map Char.toUpper = word ↔ bs.map carried = word.map (·.toNat - 63) := by
  induction bs generalizing word with
  | nil => cases word <;> simp
  | cons b bs ih =>
    obtain ⟨first, others⟩ := List.forall_mem_cons.mp hb
    cases word with
    | nil => simp
    | cons c word =>
      obtain ⟨hc, hw⟩ := List.forall_mem_cons.mp hw
      simp only [List.map_cons, List.cons.injEq, toUpper_letter_eq_iff first hc, ih others hw]

end Polyline

namespace Geometry

/-- The text begins as well-known text does. -/
def TakenForWkt (s : String) : Prop :=
  Text.startsWithIgnoringCase wktKeyword (Text.trimStart s.toList) = true

instance (s : String) : Decidable (TakenForWkt s) := inferInstanceAs (Decidable (_ = true))

variable {p : Polyline}

theorem decode_of_taken {s : String} (h : TakenForWkt s) (elevation : Bool) :
    (text s).decode elevation = ofWkt s := if_pos h

theorem decode_of_not_taken {s : String} (h : ¬ TakenForWkt s) (elevation : Bool) :
    (text s).decode elevation = Polyline.decode s elevation := if_neg h

/-- The two readings of a text never agree. -/
private theorem ofWkt_ne_decode (s : String) (elevation : Bool) : ofWkt s ≠ Polyline.decode s elevation := by
  intro same
  rcases ofWkt_cases s with refused | ⟨opened, made⟩
  · exact decode_not_refused s elevation (same ▸ refused)
  · obtain ⟨p, hp⟩ : ∃ p, ofWkt s = .ok p := by
      rcases made with empty | ⟨tuples, made⟩
      · exact ⟨_, empty⟩
      · exact ⟨_, made⟩
    exact not_mem_of_printable (printable_of_decode (same ▸ hp)) opened

private theorem decode_text_eq_iff (s : String) (elevation : Bool) :
    (text s).decode elevation = Polyline.decode s elevation ↔ ¬ TakenForWkt s := by
  constructor
  · intro same taken
    rw [decode_of_taken taken] at same
    exact ofWkt_ne_decode s elevation same
  · exact fun other => decode_of_not_taken other elevation

private theorem takenForWkt_encode_iff (first : ∀ b ∈ p.octets.head?, Printable b) : TakenForWkt p.encode ↔
    ((p.octets.take 10).map letter).map Char.toUpper = wktKeyword := by
  have start : Text.trimStart p.encode.toList = p.octets.map letter := by
    rw [toList_encode]
    apply Text.dropWhile_blank
    intro c hc
    rw [List.head?_map] at hc
    obtain ⟨b, hb, rfl⟩ := Option.map_eq_some_iff.mp hc
    exact letter_not_blank (first b hb)
  rw [TakenForWkt, start, Text.startsWithIgnoringCase, beq_iff_eq, eq_comm, ← List.map_take]
  rfl

section
variable (h : ∀ v ∈ p.vertices, v.Within)
include h

/-- Its first ten octets carry what the letters of the keyword carry. -/
private theorem takenForWkt_encode_iff_carried :
    TakenForWkt p.encode ↔ (p.octets.take 10).map carried = keywordGroups := by
  have printable := octets_printable h
  rw [takenForWkt_encode_iff fun b hb => printable b (List.mem_of_mem_head? hb),
    map_toUpper_letter_eq_iff (fun b hb => printable b (List.mem_of_mem_take hb)) fun _ hc => hc,
    keywordGroups_eq]

private theorem ofWkt_encode_of_taken (taken : TakenForWkt p.encode) :
    ofWkt p.encode = .error (.invalidWkt "missing '('") := by
  have printable := octets_printable h
  have solid : ∀ c ∈ p.encode.toList, Text.isBlank c = false := by
    rw [toList_encode]
    exact List.forall_mem_map.mpr fun b hb => letter_not_blank (printable b hb)
  have whole : Text.trim p.encode.toList = p.encode.toList := Text.trim_of_no_blank solid
  have start : Text.trimStart p.encode.toList = p.encode.toList := Text.dropWhile_of_none solid
  have closed : '(' ∉ p.encode.toList := not_mem_of_printable (by rwa [octetsOf, utf8_encode h])
  rw [TakenForWkt, start] at taken
  simp only [ofWkt, whole, taken, if_true, wktBody_of_not_mem closed]
  rfl

end

/-- The latitudes in encoded units whose octets begin the keyword, if they are no more than 90 degrees. -/
def keywordLatitudes : List Int := [-7, -167, -7847, -106151]

section
variable {d : Int} (inside : d.natAbs ≤ 9000000)
include inside

private theorem halfWord_of_latitude : HalfWord d := by
  constructor <;> omega

private theorem length_groups_latitude : (groups (zigzag d).toNat).length ≤ 5 := by
  refine length_groups_le (by decide) ?_
  rw [zigzag_of_halfWord (halfWord_of_latitude inside)]
  split <;> omega

/-- A latitude that carries the beginning of the keyword, of which at most five octets count. -/
private theorem mem_keywordLatitudes (h : (groups (zigzag d).toNat).map carried =
    keywordGroups.take (groups (zigzag d).toNat).length) : d ∈ keywordLatitudes := by
  have value := zigzag_of_halfWord (halfWord_of_latitude inside)
  have few := length_groups_latitude inside
  have some := List.length_pos_iff.mpr (groups_ne_nil (zigzag d).toNat)
  have digits := ofDigits_carried (zigzag d).toNat
  rw [h] at digits
  generalize (groups (zigzag d).toNat).length = length at digits few some
  interval_cases length <;>
    simp [keywordGroups, Nat.ofDigits] at digits <;>
    simp [keywordLatitudes] <;> split at value <;> omega

end

private theorem octets_eq_append {v : Vertex} {vs : List Vertex} (hv : p.vertices = v :: vs)
    (inside : v.lat.natAbs ≤ 9000000) : ∃ rest, p.octets = groups (zigzag v.lat).toNat ++ rest := by
  have half := halfWord_of_latitude inside
  have same : Varint.wrap (v.lat - Vertex.origin.lat) = v.lat := by
    rw [show v.lat - Vertex.origin.lat = v.lat from Int.sub_zero _, half.wrap]
  rw [octets, hv, differences]
  simp only [List.cons_append, List.flatMap_cons, same, write_of_halfWord half]
  exact ⟨_, rfl⟩

private theorem not_taken_of_latitude
    (h : ∀ v ∈ p.vertices.head?, v.lat.natAbs ≤ 9000000 ∧ v.lat ∉ keywordLatitudes) :
    ¬ TakenForWkt p.encode := by
  cases hv : p.vertices with
  | nil =>
    have none : p.encode = "" := by
      rw [encode, octets, hv]
      rfl
    rw [none]
    decide
  | cons v vs =>
    obtain ⟨inside, other⟩ := h v (hv ▸ rfl)
    obtain ⟨rest, octets⟩ := octets_eq_append hv inside
    have printable := groups_printable (zigzag v.lat).toNat
    have few := length_groups_latitude inside
    have first : ∀ b ∈ p.octets.head?, Printable b := by
      rw [octets, List.head?_append_of_ne_nil _ (groups_ne_nil _)]
      exact fun b hb => printable b (List.mem_of_mem_head? hb)
    rw [takenForWkt_encode_iff first, octets]
    intro taken
    -- the number of the latitude is the beginning of what stands there
    have begun := congrArg (List.take (groups (zigzag v.lat).toNat).length) taken
    rw [← List.map_take, ← List.map_take, List.take_take, Nat.min_eq_left (by omega), List.take_left] at begun
    rw [map_toUpper_letter_eq_iff printable fun c => List.mem_of_mem_take, List.map_take,
      keywordGroups_eq] at begun
    exact other (mem_keywordLatitudes inside begun)

/-- Whatever the text, it is decoded as an encoded polyline exactly if it does not begin as well-known text
does. For an encoded polyline whose numbers are not too far out that is to say what its first ten octets
carry, and if they carry the keyword it is refused for want of a parenthesis. No polyline is taken for
well-known text that begins in a latitude other than four near the equator. -/
theorem decode_text_of_encode (p : Polyline) (h : ∀ v ∈ p.vertices, v.Within) :
    (∀ (s : String) (elevation : Bool),
      (text s).decode elevation = Polyline.decode s elevation ↔ ¬ TakenForWkt s) ∧
    (TakenForWkt p.encode ↔ (p.octets.take 10).map carried = keywordGroups) ∧
    (TakenForWkt p.encode → ∀ elevation,
      (text p.encode).decode elevation = .error (.invalidWkt "missing '('")) ∧
    ((∀ v ∈ p.vertices.head?, v.lat.natAbs ≤ 9000000 ∧ v.lat ∉ keywordLatitudes) →
      ∀ elevation, (text p.encode).decode elevation = Polyline.decode p.encode elevation) := by
  refine ⟨decode_text_eq_iff, takenForWkt_encode_iff_carried h, fun taken elevation => ?_,
    fun other elevation => decode_of_not_taken (not_taken_of_latitude other) elevation⟩
  rw [decode_of_taken taken]
  exact ofWkt_encode_of_taken h taken

/-- Five vertices next to the origin spell the keyword; three that are elsewhere are decoded. -/
theorem fiveVertices_refused :
    let near : Polyline := { points := [⟨-0.00007, 0.00005⟩, ⟨-0.00015, 0.00008⟩, ⟨-0.00005, -0.00003⟩,
      ⟨-0.00015, 0.00002⟩, ⟨-0.00023, 0.00006⟩] }
    let far : Polyline := { points := [⟨38.5, -120.2⟩, ⟨40.7, -120.95⟩, ⟨43.252, -126.453⟩] }
    ((∀ v ∈ near.vertices, v.Within) ∧ TakenForWkt near.encode ∧ near.encode = "LINESTRING" ∧
      (text near.encode).decode false = .error (.invalidWkt "missing '('") ∧
      (text near.encode).decode false ≠ Polyline.decode near.encode false) ∧
    (∀ v ∈ far.vertices, v.Within) ∧
      (∀ v ∈ far.vertices.head?, v.lat.natAbs ≤ 9000000 ∧ v.lat ∉ keywordLatitudes) ∧
      (text far.encode).decode false = Polyline.decode far.encode false := by
  intro near far
  have near_within : ∀ v ∈ near.vertices, v.Within := by decide +kernel
  have far_within : ∀ v ∈ far.vertices, v.Within := by decide +kernel
  obtain ⟨differ, -, refused, -⟩ := decode_text_of_encode near near_within
  obtain ⟨-, -, -, decoded⟩ := decode_text_of_encode far far_within
  have spelled : near.encode = "LINESTRING" := by decide +kernel
  have taken : TakenForWkt near.encode := by
    rw [spelled]
    decide
  have elsewhere : ∀ v ∈ far.vertices.head?, v.lat.natAbs ≤ 9000000 ∧ v.lat ∉ keywordLatitudes := by
    decide +kernel
  exact ⟨⟨near_within, taken, spelled, refused taken false, fun same => (differ _ _).mp same taken⟩,
    far_within, elsewhere, decoded elsewhere false⟩

/-- With elevations four vertices do. -/
example : encode ⟨[⟨-0.00007, 0.00005⟩, ⟨-0.00004, 0.00015⟩, ⟨-0.00014, 0.0002⟩, ⟨-0.0001, 0.0002⟩],
    some [-0.08, -0.19, -0.27, -0.27]⟩ = "LINESTRING??" := by decide +kernel

end Geometry
end Itinerary

import Itinerary.Polyline.Wkt
import Itinerary.Proofs.Json.Record
import Itinerary.Proofs.Polyline.Encoded
import Itinerary.Proofs.Text.Runs
import Itinerary.Proofs.Text.Split

/-! What is made of tuples and of well-known text, and that elevations never come apart from the points. -/
namespace Itinerary.Polyline

/-- If there are elevations, there is one for every point. -/
def Aligned (p : Polyline) : Prop := ∀ es, p.elevations = some es → es.length = p.points.length

/-- The second number of a tuple is its latitude. -/
def vertexOf? : List Float → Option Coordinate
  | lng :: lat :: _ => some ⟨lat, lng⟩
  | _ => none

def elevationOf? : List Float → Option Float
  | _ :: _ :: elevation :: _ => some elevation
  | _ => none

theorem elevations_ofLngLat_eq_some_iff {tuples : List (List Float)} {es : List Float} :
    (ofLngLat tuples).elevations = some es ↔ tuples ≠ [] ∧ tuples.map elevationOf? = es.map some := by
  cases tuples with
  | nil => simp [ofLngLat]
  | cons t tuples => exact Json.mapM_eq_some.trans (iff_and_self.mpr fun _ => List.cons_ne_nil t tuples)

/-- What has an elevation is a vertex. -/
private theorem vertexOf?_of_elevationOf? {t : List Float} (h : (elevationOf? t).isSome = true) :
    (vertexOf? t).isSome = true := by
  match t with
  | [] | [_] | [_, _] => cases h
  | _ :: _ :: _ :: _ => rfl

theorem aligned_ofLngLat (tuples : List (List Float)) : (ofLngLat tuples).Aligned := by
  intro es he
  obtain ⟨-, same⟩ := elevations_ofLngLat_eq_some_iff.mp he
  have vertices : ∀ t ∈ tuples, (vertexOf? t).isSome = true := by
    intro t ht
    obtain ⟨e, -, he⟩ := List.mem_map.mp (same ▸ List.mem_map_of_mem ht)
    exact vertexOf?_of_elevationOf? (he ▸ rfl)
  have points : (ofLngLat tuples).points = tuples.filterMap vertexOf? := rfl
  have lengths := congrArg List.length same
  rw [List.length_map, List.length_map] at lengths
  rw [points, List.length_filterMap_eq_countP, List.countP_eq_length.mpr vertices, lengths]

theorem aligned_of_decode {encoded : String} {elevation : Bool} {p : Polyline}
    (h : decode encoded elevation = .ok p) : p.Aligned := by
  obtain ⟨-, _, vertices, -, -, rfl⟩ := decode_eq_ok_iff.mp h
  intro es he
  cases elevation with
  | false => cases he
  | true =>
    cases he
    simp [ofVertices]

/-- Well-known text is refused with a reason. -/
def Refused {α : Type} (result : Except GeometryError α) : Prop :=
  ∃ reason, result = .error (.invalidWkt reason)

private theorem wktVertex_cases (cs : List Char) :
    Refused (wktVertex cs) ∨ ∃ numbers, wktVertex cs = .ok numbers := by
  rw [wktVertex]
  split
  · exact .inl ⟨_, rfl⟩
  · split
    · exact .inl ⟨_, rfl⟩
    · exact .inr ⟨_, rfl⟩

private theorem mapM_wktVertex_cases (texts : List (List Char)) :
    Refused (texts.mapM wktVertex) ∨ ∃ tuples, texts.mapM wktVertex = .ok tuples := by
  induction texts with
  | nil => exact .inr ⟨[], rfl⟩
  | cons text texts ih =>
    rw [List.mapM_cons]
    rcases wktVertex_cases text with ⟨reason, first⟩ | ⟨numbers, first⟩
    · exact .inl ⟨reason, by rw [first]; rfl⟩
    · rcases ih with ⟨reason, others⟩ | ⟨tuples, others⟩
      · exact .inl ⟨reason, by rw [first, others]; rfl⟩
      · exact .inr ⟨numbers :: tuples, by rw [first, others]; rfl⟩

theorem wktBody_of_not_mem {cs : List Char} (h : '(' ∉ cs) :
    wktBody cs = .error (.invalidWkt "missing '('") := by
  rw [wktBody, Text.splitFirst_of_not_mem h]
  rfl

private theorem wktBody_cases (cs : List Char) :
    Refused (wktBody cs) ∨ '(' ∈ cs ∧ ∃ body, wktBody cs = .ok body := by
  by_cases opened : '(' ∈ cs
  · rw [wktBody]
    split
    · exact .inl ⟨_, rfl⟩
    · split
      · exact .inr ⟨opened, _, rfl⟩
      · split <;> exact .inl ⟨_, rfl⟩
  · exact .inl ⟨_, wktBody_of_not_mem opened⟩

/-- Well-known text that is not refused has a parenthesis, and is empty or made of tuples. -/
theorem ofWkt_cases (wkt : String) : Refused (ofWkt wkt) ∨
    '(' ∈ wkt.toList ∧ (ofWkt wkt = .ok {} ∨ ∃ tuples, ofWkt wkt = .ok (ofLngLat tuples)) := by
  rw [ofWkt]
  split
  · rcases wktBody_cases (Text.trim wkt.toList) with ⟨reason, refused⟩ | ⟨opened, body, parted⟩
    · exact .inl ⟨reason, by rw [refused]; rfl⟩
    · rw [parted]
      simp only [bind, Except.bind]
      split
      · exact .inr ⟨Text.mem_of_mem_trim opened, .inl rfl⟩
      · rcases mapM_wktVertex_cases (Text.pieces ',' (Text.trim body)) with
          ⟨reason, refused⟩ | ⟨tuples, read⟩
        · exact .inl ⟨reason, by rw [refused]⟩
        · exact .inr ⟨Text.mem_of_mem_trim opened, .inr ⟨tuples, by rw [read]; rfl⟩⟩
  · exact .inl ⟨_, rfl⟩

theorem aligned_of_ofWkt {wkt : String} {p : Polyline} (h : ofWkt wkt = .ok p) : p.Aligned := by
  rcases ofWkt_cases wkt with ⟨reason, refused⟩ | ⟨-, empty | ⟨tuples, made⟩⟩
  · rw [h] at refused
    cases refused
  · rw [h] at empty
    cases empty
    rintro es ⟨⟩
  · rw [h] at made
    cases made
    exact aligned_ofLngLat tuples

end Itinerary.Polyline

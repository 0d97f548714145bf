import Itinerary.Proofs.Polyline.Running
import Itinerary.Proofs.Text.Utf8

/-! Encoded polylines are read back with their numbers rounded, and nothing wraps around, as long as
the rounded numbers are below a bound that leaves room for the difference of two. -/
namespace Itinerary.Polyline

/-- The coordinate in encoded units and back. -/
def onGrid (c : Coordinate) : Coordinate :=
  ⟨Float.ofInt (Decimal.roundToInt64 (c.lat * coordinateFactor)) / coordinateFactor,
    Float.ofInt (Decimal.roundToInt64 (c.lng * coordinateFactor)) / coordinateFactor⟩

/-- The elevation in encoded units and back. -/
def levelled (height : Float) : Float :=
  Float.ofInt (Decimal.roundToInt64 (height * elevationFactor)) / elevationFactor

namespace Vertex

/-- The difference of two such vertices is half a word at most. -/
def Within (v : Vertex) : Prop :=
  v.lat.natAbs < 2 ^ 61 ∧ v.lng.natAbs < 2 ^ 61 ∧ v.elevation.natAbs < 2 ^ 61

instance (v : Vertex) : Decidable v.Within := inferInstanceAs (Decidable (_ ∧ _))

/-- The vertex as it is written: without elevation the third number is left out. -/
def flat (elevation : Bool) (v : Vertex) : Vertex := if elevation then v else { v with elevation := 0 }

private theorem Within.sub {u v : Vertex} (hu : u.Within) (hv : v.Within) : Varint.HalfWord (v.lat - u.lat) ∧
    Varint.HalfWord (v.lng - u.lng) ∧ Varint.HalfWord (v.elevation - u.elevation) := by
  obtain ⟨lat, lng, elevation⟩ := hv
  obtain ⟨lat', lng', elevation'⟩ := hu
  refine ⟨⟨?_, ?_⟩, ⟨?_, ?_⟩, ?_, ?_⟩ <;> omega

/-- The differences to a vertex lead to it. -/
private theorem plus_flat (elevation : Bool) (u v : Vertex) :
    (u.flat elevation).plus (v.lat - u.lat) (v.lng - u.lng)
      (if elevation then v.elevation - u.elevation else 0) = v.flat elevation := by
  cases elevation <;> simp [plus, flat]

private theorem Within.numbers_flat {v : Vertex} (h : v.Within) (elevation : Bool) :
    ∀ t ∈ (v.flat elevation).numbers elevation, Varint.Word t := by
  obtain ⟨lat, lng, height⟩ := h
  have words : Varint.Word v.lat ∧ Varint.Word v.lng ∧ Varint.Word v.elevation := by
    refine ⟨⟨?_, ?_⟩, ⟨?_, ?_⟩, ?_, ?_⟩ <;> omega
  cases elevation <;> simp [numbers, flat, words]

end Vertex

private theorem increments_halfWord (elevation : Bool) {u : Vertex} (hu : u.Within) {vs : List Vertex}
    (h : ∀ v ∈ vs, v.Within) : ∀ d ∈ increments elevation u vs, Varint.HalfWord d := by
  induction vs generalizing u with
  | nil => exact fun d hd => absurd hd List.not_mem_nil
  | cons v vs ih =>
    obtain ⟨next, rest⟩ := List.forall_mem_cons.mp h
    obtain ⟨lat, lng, height⟩ := hu.sub next
    rw [increments]
    refine List.forall_mem_append.mpr ⟨List.forall_mem_append.mpr ⟨?_, ?_⟩, ih next rest⟩
    · simp [lat, lng]
    · cases elevation <;> simp [height]

/-- No difference wraps around. -/
private theorem differences_eq_increments (elevation : Bool) {u : Vertex} (hu : u.Within) {vs : List Vertex}
    (h : ∀ v ∈ vs, v.Within) : differences elevation u vs = increments elevation u vs := by
  induction vs generalizing u with
  | nil => rfl
  | cons v vs ih =>
    obtain ⟨next, rest⟩ := List.forall_mem_cons.mp h
    obtain ⟨lat, lng, height⟩ := hu.sub next
    rw [differences, increments, ih next rest, lat.wrap, lng.wrap, height.wrap]

/-- Summing up the differences leads back to the vertices. -/
private theorem verticesFrom_increments (elevation : Bool) (u : Vertex) (vs : List Vertex) :
    verticesFrom elevation (u.flat elevation) (increments elevation u vs) =
      some (vs.map (·.flat elevation)) := by
  induction vs generalizing u with
  | nil => cases elevation <;> rfl
  | cons v vs ih =>
    have lead := Vertex.plus_flat elevation u v
    cases elevation with
    | false =>
      simp only [Bool.false_eq_true, if_false] at lead
      simp only [increments, Bool.false_eq_true, if_false, List.append_nil, List.cons_append,
        List.nil_append, verticesFrom, lead, ih v]
      rfl
    | true =>
      simp only [if_true] at lead
      simp only [increments, if_true, List.cons_append, List.nil_append, verticesFrom, lead, ih v]
      rfl

private theorem origin_within : Vertex.origin.Within := by decide

private theorem origin_flat (elevation : Bool) : Vertex.origin.flat elevation = .origin := by
  cases elevation <;> rfl

variable {p : Polyline}

/-- The octets written for vertices that are not too far out are printable, and stand for the
differences as integers. -/
theorem octets_eq (h : ∀ v ∈ p.vertices, v.Within) :
    p.octets = (increments p.elevations.isSome .origin p.vertices).flatMap Varint.write := by
  rw [octets, differences_eq_increments _ origin_within h]

theorem octets_printable (h : ∀ v ∈ p.vertices, v.Within) : ∀ b ∈ p.octets, Varint.Printable b := by
  rw [octets_eq h]
  intro b hb
  obtain ⟨d, hd, hb⟩ := List.mem_flatMap.mp hb
  exact Varint.write_printable (increments_halfWord _ origin_within h d hd) b hb

/-- Printable octets are those of the text they make. -/
theorem utf8_of_printable {bs : List UInt8} (h : ∀ b ∈ bs, Varint.Printable b) :
    Text.Utf8.encode (String.ofList (bs.map fun b => Char.ofNat b.toNat)).toList = bs := by
  rw [String.toList_ofList]
  apply Text.Utf8.encode_of_whole
  intro b hb
  exact Nat.lt_of_le_of_lt (h b hb).2 (by decide)

theorem utf8_encode (h : ∀ v ∈ p.vertices, v.Within) : Text.Utf8.encode p.encode.toList = p.octets :=
  utf8_of_printable (octets_printable h)

/-- What the vertices of a polyline stand for, with elevations if it has any. -/
private theorem ofVertices_vertices (p : Polyline) :
    ofVertices p.elevations.isSome (p.vertices.map (·.flat p.elevations.isSome)) = {
      points := p.points.map onGrid
      elevations := p.elevations.map fun heights =>
        p.points.mapIdx fun i _ => levelled (heights.getD i 0) } := by
  have points (elevation : Bool) :
      (p.vertices.map (·.flat elevation)).map Vertex.coordinate = p.points.map onGrid := by
    apply List.ext_getElem?
    intro i
    simp only [vertices, List.getElem?_map, List.getElem?_mapIdx, Option.map_map]
    congr 1
    funext c
    cases elevation <;> rfl
  rw [ofVertices, points]
  cases he : p.elevations with
  | none => rfl
  | some heights =>
    have levels : (p.vertices.map (·.flat true)).map Vertex.height =
        p.points.mapIdx fun i _ => levelled (heights.getD i 0) := by
      apply List.ext_getElem?
      intro i
      simp only [vertices, he, List.getElem?_map, List.getElem?_mapIdx, Option.map_map]
      rfl
    rw [Option.isSome_some, if_pos rfl, levels]
    rfl

/-- A polyline whose numbers, in encoded units and rounded, are below `2 ^ 61` is read back from its
encoded text with the numbers rounded, a missing elevation as zero. No difference wraps around on the
way, nor does twice the difference, all the octets written are printable, and nothing stops the writer. -/
theorem decode_encode_onGrid (p : Polyline) (h : ∀ v ∈ p.vertices, v.Within) :
    decode p.encode p.elevations.isSome = .ok {
      points := p.points.map onGrid
      elevations := p.elevations.map fun heights =>
        p.points.mapIdx fun i _ => levelled (heights.getD i 0) } ∧
    p.octets = (increments p.elevations.isSome .origin p.vertices).flatMap Varint.write ∧
    (∀ d ∈ increments p.elevations.isSome .origin p.vertices, Varint.HalfWord d) ∧
    (∀ b ∈ Text.Utf8.encode p.encode.toList, Varint.Printable b) ∧
    p.encodeOrFault = .ok p.encode := by
  have halves := increments_halfWord p.elevations.isSome origin_within h
  have numbers : Varint.readAll 0 (octetsOf p.encode) =
      .ok (increments p.elevations.isSome .origin p.vertices) := by
    rw [octetsOf, utf8_encode h, octets_eq h]
    exact Varint.readAll_write halves 0
  have summed := verticesFrom_increments p.elevations.isSome .origin p.vertices
  rw [origin_flat] at summed
  have fits : Fits p.encode p.elevations.isSome := by
    intro t ht
    rw [runningSums_of_readAll numbers summed] at ht
    obtain ⟨w, hw, ht⟩ := List.mem_flatMap.mp ht
    obtain ⟨v, hv, rfl⟩ := List.mem_map.mp hw
    exact (h v hv).numbers_flat _ t ht
  refine ⟨?_, octets_eq h, halves, ?_, if_pos fun d hd => (halves d hd).word⟩
  · rw [← ofVertices_vertices]
    exact decode_eq_ok_iff.mpr ⟨fits, _, _, numbers, summed, rfl⟩
  · rw [utf8_encode h]
    exact octets_printable h

/-- Three vertices with two elevations are read back as three vertices with three. -/
theorem threeVertices_decode_encode :
    let p : Polyline :=
      ⟨[⟨38.5, -120.2⟩, ⟨40.7, -120.95⟩, ⟨43.252, -126.453⟩], some [10.5, 120]⟩
    (∀ v ∈ p.vertices, v.Within) ∧ decode p.encode true = .ok {
      points := p.points.map onGrid
      elevations := some [levelled 10.5, levelled 120, levelled 0] } := by
  intro p
  have within : ∀ v ∈ p.vertices, v.Within := by decide +kernel
  exact ⟨within, (decode_encode_onGrid p within).1⟩

/-- The example that comes with the format. -/
example : encode ⟨[⟨38.5, -120.2⟩, ⟨40.7, -120.95⟩, ⟨43.252, -126.453⟩], none⟩ =
    "_p~iF~ps|U_ulLnnqC_mqNvxq\x60@" := by decide +kernel

end Itinerary.Polyline

import Itinerary.Polyline.Varint
import Itinerary.Text.Utf8

/-! Encoded polylines: the differences between consecutive vertices, in hundred thousandths of a
degree and hundredths of a metre, as one run of numbers. -/
namespace Itinerary.Polyline

def coordinateFactor : Float := 1e5

def elevationFactor : Float := 100

/-- Latitude, longitude and elevation in encoded units. -/
structure Vertex where
  lat : Int
  lng : Int
  elevation : Int
deriving DecidableEq, Repr

namespace Vertex

def origin : Vertex := ⟨0, 0, 0⟩

def coordinate (v : Vertex) : Coordinate :=
  ⟨Float.ofInt v.lat / coordinateFactor, Float.ofInt v.lng / coordinateFactor⟩

def height (v : Vertex) : Float := Float.ofInt v.elevation / elevationFactor

end Vertex

/-- The next number is added to a sum, which a word has to hold. Also the offset and the octets behind
the number. -/
def addNext (sum : Int) (offset : Nat) (bs : List UInt8) :
    Except GeometryError (Int × Nat × List UInt8) :=
  match Varint.read offset bs with
  | .ok (n, rest) => if Varint.Word (sum + n) then .ok (sum + n, rest) else .error .overflow
  | .error e => .error e

private theorem addNext_shortens {sum total : Int} {offset next : Nat} {bs rest : List UInt8}
    (h : addNext sum offset bs = .ok (total, next, rest)) : rest.length < bs.length := by
  unfold addNext at h
  split at h
  · rename_i n tail heq
    split at h
    · simp only [Except.ok.injEq, Prod.mk.injEq] at h
      obtain ⟨-, rfl⟩ := h
      exact Varint.read_shortens heq
    · cases h
  · cases h

/-- The vertex after `v`. Each sum is taken before the next number is read; without elevation there
are two of them. -/
def Vertex.next (elevation : Bool) (v : Vertex) (offset : Nat) (bs : List UInt8) :
    Except GeometryError (Vertex × Nat × List UInt8) :=
  match addNext v.lat offset bs with
  | .error e => .error e
  | .ok (lat, offset, bs) =>
    match addNext v.lng offset bs with
    | .error e => .error e
    | .ok (lng, offset, bs) =>
      if elevation then
        match addNext v.elevation offset bs with
        | .error e => .error e
        | .ok (height, rest) => .ok (⟨lat, lng, height⟩, rest)
      else .ok (⟨lat, lng, v.elevation⟩, offset, bs)

theorem Vertex.next_shortens {elevation : Bool} {v w : Vertex} {offset next : Nat}
    {bs rest : List UInt8} (h : v.next elevation offset bs = .ok (w, next, rest)) :
    rest.length < bs.length := by
  unfold Vertex.next at h
  split at h
  · cases h
  · rename_i first
    split at h
    · cases h
    · rename_i second
      have shorter := Nat.lt_trans (addNext_shortens second) (addNext_shortens first)
      split at h
      · split at h
        · cases h
        · rename_i third
          cases h
          exact Nat.lt_trans (addNext_shortens third) shorter
      · cases h
        exact shorter

/-- All the vertices after `v`, each read and summed up before the next one. -/
def verticesAfter (elevation : Bool) (v : Vertex) (offset : Nat) (bs : List UInt8) :
    Except GeometryError (List Vertex) :=
  if bs.isEmpty then .ok []
  else
    match h : v.next elevation offset bs with
    | .ok (w, next, rest) =>
      have := Vertex.next_shortens h
      (verticesAfter elevation w next rest).map (w :: ·)
    | .error e => .error e
termination_by bs.length

def ofVertices (elevation : Bool) (vertices : List Vertex) : Polyline where
  points := vertices.map Vertex.coordinate
  elevations := if elevation then some (vertices.map Vertex.height) else none

/-- With `elevation`, every vertex carries a third number. A text that ends inside a vertex is
truncated at its end. -/
def decode (text : String) (elevation : Bool) : Except GeometryError Polyline :=
  (verticesAfter elevation .origin 0 (Text.Utf8.encode text.toList)).map (ofVertices elevation)

/-- The vertices in encoded units; a missing elevation counts as zero. -/
def vertices (p : Polyline) : List Vertex :=
  let heights := p.elevations.getD []
  p.points.mapIdx fun index c =>
    ⟨Decimal.roundToInt64 (c.lat * coordinateFactor), Decimal.roundToInt64 (c.lng * coordinateFactor),
      Decimal.roundToInt64 (heights.getD index 0 * elevationFactor)⟩

/-- The differences between consecutive vertices, from `previous` on, as words. One that no word holds
wraps around here; the writer stops at it. -/
def differences (elevation : Bool) (previous : Vertex) : List Vertex → List Int
  | [] => []
  | v :: vs =>
    [Varint.wrap (v.lat - previous.lat), Varint.wrap (v.lng - previous.lng)] ++
      (if elevation then [Varint.wrap (v.elevation - previous.elevation)] else []) ++
      differences elevation v vs

/-- The differences between consecutive vertices as integers, which never wrap around. -/
def increments (elevation : Bool) (previous : Vertex) : List Vertex → List Int
  | [] => []
  | v :: vs =>
    [v.lat - previous.lat, v.lng - previous.lng] ++
      (if elevation then [v.elevation - previous.elevation] else []) ++ increments elevation v vs

/-- The octets of the encoded form; all are printable unless a number is out of range. -/
def octets (p : Polyline) : List UInt8 :=
  (differences p.elevations.isSome .origin p.vertices).flatMap Varint.write

def encode (p : Polyline) : String := String.ofList (p.octets.map fun b => Char.ofNat b.toNat)

/-- The encoded form, unless the program stops at a difference that no word holds. -/
def encodeOrFault (p : Polyline) : Except Fault String :=
  if ∀ d ∈ increments p.elevations.isSome .origin p.vertices, Varint.Word d then .ok p.encode
  else .error .overflow

end Itinerary.Polyline

import Itinerary.Link.Basic
import Itinerary.Proofs.Coordinate
import Itinerary.Proofs.Decimal.Literal
import Itinerary.Proofs.Json.Shape
import Itinerary.Proofs.Link.Reread
import Itinerary.Proofs.Text.Utf8
import Itinerary.Service.Geocoding
import Itinerary.Service.Routing

/-! The candidates that a geocoding service's answer has, and what becomes of a stop at one of them. -/
namespace Itinerary

private theorem Json.ofFloat_eq_float_iff {x : Float} : ofFloat x = .float x ↔ x.isFinite = true := by
  simp [ofFloat]

private theorem Json.spelled_map_some (q : Quoted) (cs : List Char) : spelled q (cs.map some) = some cs := by
  induction cs generalizing q with
  | nil => rfl
  | cons c cs ih =>
    rw [List.map_cons, spelled, ih]
    rfl

/-- A text is read from its octets as it is. -/
private theorem Json.readOctets_encode (text : String) :
    readOctets (Text.Utf8.encode text.toList) = read text := by
  rw [readOctets, Text.Utf8.pieces_encode, spelled_map_some, Option.bind_some, String.ofList_toList]

private theorem Stop.coordinate_create (id : StopId) (text : String) :
    (create id text).coordinate = Coordinate.parse? text := rfl

namespace Coordinate

/-- Wherever a stop of a journey is at the coordinate, the link to the journey, once it is read, has in its
place the text of a stop that is at `back`. -/
def ComesBack (c : Coordinate) (back : Option Coordinate) : Prop :=
  ∀ (route : Route) (options : Options) (zoom : Bool) (default : Profile) (link : Link) (i : Nat) (s : Stop),
    Link.ofText (Link.capture route options zoom).toQuery default = .ok link →
    route.toList[i]? = some s → s.coordinate = some c →
    ∃ text, link.points[i]? = some text ∧ ∀ id, (Stop.create id text).coordinate = back

/-- Wherever it is asked for in a street request, the body has both of its numbers as numbers. -/
def IsPosted (c : Coordinate) : Prop := ∀ (p : Payload) (i : Nat), p.points[i]? = some c →
  ∃ members points, RoutingService.streetBody p = .obj members ∧
    members.lookup "points" = some (.arr points) ∧ points[i]? = some (.arr [.float c.lng, .float c.lat])

variable {c : Coordinate}

private theorem isPosted_iff : c.IsPosted ↔ c.lat.isFinite = true ∧ c.lng.isFinite = true := by
  constructor
  · intro posted
    obtain ⟨members, points, body, listed, first⟩ :=
      posted ⟨.car, [c], .street none none, false, .metric, false, false⟩ 0 rfl
    cases body
    cases listed
    simpa [Json.ofFloat_eq_float_iff, and_comm] using first
  · rintro ⟨lat, lng⟩ p i listed
    refine ⟨_, _, rfl, rfl, ?_⟩
    rw [List.getElem?_map, listed, Option.map_some, Json.ofFloat_eq_float_iff.mpr lat,
      Json.ofFloat_eq_float_iff.mpr lng]

private theorem isFinite_of_inRange (h : c.inRange = true) :
    c.lat.isFinite = true ∧ c.lng.isFinite = true := by
  simp only [inRange, Bool.and_eq_true] at h
  obtain ⟨⟨⟨⟨finite, -⟩, -⟩, -⟩, -⟩ := h
  exact finite

private theorem comesBack_parse? (c : Coordinate) : c.ComesBack (parse? c.literal) := by
  intro route options zoom default link i s read stands located
  refine ⟨c.literal, ?_, fun id => Stop.coordinate_create id c.literal⟩
  rw [Link.points_of_ofText_toQuery read, Link.capture, List.getElem?_map, stands, Option.map_some, located]

end Coordinate

namespace Decimal

/-- The text of a double, which may be infinite or no number, with blanks around it. -/
def Denotes (text : String) (x : Float) : Prop := ∃ lead numeral trail,
  (∀ c ∈ lead, Text.isBlank c = true) ∧ (∀ c ∈ trail, Text.isBlank c = true) ∧
  text.toList = lead ++ (numeral ++ trail) ∧ readFloat numeral = some x

private theorem readFloat_trim_iff {text : String} {x : Float} :
    readFloat (Text.trim text.toList) = some x ↔ Denotes text x := by
  constructor
  · intro h
    obtain ⟨lead, trail, before, behind, whole⟩ := Text.exists_trim text.toList
    exact ⟨lead, _, trail, before, behind, whole, h⟩
  · rintro ⟨lead, numeral, trail, before, behind, whole, h⟩
    obtain ⟨some, literal⟩ := isLiteral_of_readFloat h
    have solid (c : Char) (hc : c ∈ numeral) : Text.isBlank c = false :=
      not_blank_of_isLiteral (literal c hc)
    rw [whole, Text.trim_between before behind some (fun c hc => solid c (List.mem_of_mem_head? hc))
      (fun c hc => solid c (List.mem_of_mem_getLast? hc)), h]

private theorem denotes_plain (x : Float) : Denotes (plain x) x := by
  rw [← readFloat_trim_iff, trim_plain, readFloat_plain]

end Decimal

namespace GeocodingService
open Decimal

/-- A record of two texts and of a name, which may be missing. -/
def IsPlace (j : Json) (p : Place) : Prop :=
  ∃ named, Json.IsRecord ["lat", "lon", "display_name"] j [[.str p.lat], [.str p.lon], named] ∧
    Json.Defaults (fun j name => j = .str name) "" named p.name

/-- The body is a list of these places. -/
def Listed (body : List UInt8) (places : List Place) : Prop :=
  ∃ j, Json.readOctets body = some j ∧ Json.IsList IsPlace j places

/-- The candidates of places in order: one for each place whose texts are doubles, and none for others. -/
inductive Taken : List Place → List Candidate → Prop
  | nil : Taken [] []
  | take {p : Place} {lat lng : Float} {ps : List Place} {cs : List Candidate} : Denotes p.lat lat →
    Denotes p.lon lng → Taken ps cs → Taken (p :: ps) (⟨lat, lng, p.name⟩ :: cs)
  | pass {p : Place} {ps : List Place} {cs : List Candidate} :
    (∀ lat lng, Denotes p.lat lat → ¬ Denotes p.lon lng) → Taken ps cs → Taken (p :: ps) cs

private theorem Place.ofJson?_eq_some_iff (j : Json) (p : Place) :
    Place.ofJson? j = some p ↔ IsPlace j p := by
  refine (Json.bind_record?_eq_some_iff ["lat", "lon", "display_name"]
    (fun r => do
      return ⟨← r.required 0 Json.str?, ← r.required 1 Json.str?, ← r.defaulted 2 "" Json.str?⟩)
    p
    (fun values => ∃ named, values = [[.str p.lat], [.str p.lon], named] ∧
      Json.Defaults (fun j name => j = .str name) "" named p.name)
    ?makes ?once j).trans ⟨?_, ?_⟩
  case makes =>
    intro values r length once slots
    obtain ⟨north, east, named, rfl⟩ := List.length_eq_three.mp length
    have lat (text : String) : r.required 0 Json.str? = some text ↔ ∃ j, north = [j] ∧ j = .str text :=
      Json.Record.required_eq_some_iff Json.str?_eq_some_iff once slots rfl text
    have lon (text : String) : r.required 1 Json.str? = some text ↔ ∃ j, east = [j] ∧ j = .str text :=
      Json.Record.required_eq_some_iff Json.str?_eq_some_iff once slots rfl text
    have name (text : String) : r.defaulted 2 "" Json.str? = some text ↔
        Json.Defaults (fun j name => j = .str name) "" named text :=
      Json.Record.defaulted_eq_some_iff Json.str?_eq_some_iff once slots rfl "" text
    obtain ⟨_, _, _⟩ := p
    simp [Option.bind_eq_some_iff, lat, lon, name, and_assoc]
  case once =>
    rintro _ ⟨named, rfl, name⟩
    simp [name.length_le]
  · rintro ⟨_, shape, named, rfl, name⟩
    exact ⟨named, shape, name⟩
  · rintro ⟨named, shape, name⟩
    exact ⟨_, shape, named, rfl, name⟩

private theorem Place.candidate?_eq_some_iff {p : Place} {c : Candidate} :
    p.candidate? = some c ↔ Denotes p.lat c.lat ∧ Denotes p.lon c.lng ∧ c.label = p.name := by
  obtain ⟨lat, lng, label⟩ := c
  simp [Place.candidate?, Option.bind_eq_some_iff, readFloat_trim_iff, eq_comm (a := label)]

private theorem filterMap_candidate?_eq_iff {places : List Place} {found : List Candidate} :
    places.filterMap Place.candidate? = found ↔ Taken places found := by
  constructor
  · rintro rfl
    induction places with
    | nil => exact .nil
    | cons p ps ih =>
      rw [List.filterMap_cons]
      cases h : p.candidate? with
      | none =>
        refine .pass (fun lat lng north east => ?_) ih
        have made : p.candidate? = some ⟨lat, lng, p.name⟩ :=
          Place.candidate?_eq_some_iff.mpr ⟨north, east, rfl⟩
        cases h.symm.trans made
      | some c =>
        obtain ⟨lat, lng, label⟩ := c
        obtain ⟨north, east, rfl⟩ := Place.candidate?_eq_some_iff.mp h
        exact .take north east ih
  · intro h
    induction h with
    | nil => rfl
    | @take p lat lng _ _ north east _ ih =>
      have made : p.candidate? = some ⟨lat, lng, p.name⟩ :=
        Place.candidate?_eq_some_iff.mpr ⟨north, east, rfl⟩
      rw [List.filterMap_cons, made, ih]
    | @pass p _ _ neither _ ih =>
      have none : p.candidate? = none := by
        rw [Option.eq_none_iff_forall_ne_some]
        intro c h
        obtain ⟨north, east, -⟩ := Place.candidate?_eq_some_iff.mp h
        exact neither _ _ north east
      rw [List.filterMap_cons, none, ih]

private theorem listed_iff {body : List UInt8} {places : List Place} :
    (Json.readOctets body).bind (Json.list? Place.ofJson?) = some places ↔ Listed body places :=
  Option.bind_eq_some_iff.trans
    (exists_congr fun j => and_congr_right fun _ => Json.list?_eq_some_iff Place.ofJson?_eq_some_iff j places)

private theorem result_eq_ok_iff {reply : Reply (List UInt8)} {found : List Candidate} :
    result reply = .ok found ↔ ∃ status body places, reply = .answered status body ∧
      ¬ (400 ≤ status ∧ status < 600) ∧ Listed body places ∧ Taken places found := by
  simp only [← listed_iff, ← filterMap_candidate?_eq_iff]
  cases reply with
  | failed reason => simp [result]
  | answered status body =>
    rw [result]
    by_cases refused : 400 ≤ status ∧ status < 600
    · rw [if_pos refused]
      simp only [reduceCtorEq, Reply.answered.injEq, false_iff]
      rintro ⟨_, _, places, ⟨rfl, rfl⟩, again, -⟩
      exact again refused
    · rw [if_neg refused]
      cases listed : (Json.readOctets body).bind (Json.list? Place.ofJson?) with
      | none =>
        refine ⟨nofun, ?_⟩
        rintro ⟨_, _, places, ⟨⟩, -, again, -⟩
        cases listed.symm.trans again
      | some places =>
        constructor
        · rintro ⟨⟩
          exact ⟨status, body, places, rfl, refused, listed, rfl⟩
        · rintro ⟨_, _, _, ⟨⟩, -, again, rfl⟩
          cases listed.symm.trans again
          rfl

/-- A service may name any places. -/
private theorem exists_listed (places : List Place) : ∃ body, Listed body places := by
  let described (p : Place) : Json :=
    .obj [("lat", .str p.lat), ("lon", .str p.lon), ("display_name", .str p.name)]
  have isPlace (p : Place) : IsPlace (described p).reread p := ⟨[.str p.name], .object _, .present rfl⟩
  refine ⟨Text.Utf8.encode (Json.arr (places.map described)).render.toList, _,
    (Json.readOctets_encode _).trans (Json.read_render _), _, Json.reread_arr _, ?_⟩
  rw [List.map_map, List.forall₂_map_left_iff]
  exact List.forall₂_same.mpr fun p _ => isPlace p

private theorem taken_plain (found : List Candidate) :
    Taken (found.map fun c => ⟨plain c.lat, plain c.lng, c.label⟩) found := by
  induction found with
  | nil => exact .nil
  | cons c cs ih => exact .take (denotes_plain c.lat) (denotes_plain c.lng) ih

/-- The candidates that are found are those of the places that an answer lists which is no refusal, in
order: one for each place whose texts are doubles. The coordinate of a candidate in range is read from its
literal, stays with its stop through a link, and is posted as numbers. Out of range, as all are of which a
number is infinite or none, the literal is no coordinate, and a link loses it; only finite numbers are posted
as such. Whatever candidates there may be, in range or not, there is an answer in which just these are
found. -/
theorem found_in_answer (reply : Reply (List UInt8)) (found : List Candidate) :
    (result reply = .ok found ↔ ∃ status body places, reply = .answered status body ∧
      ¬ (400 ≤ status ∧ status < 600) ∧ Listed body places ∧ Taken places found) ∧
    (∀ c ∈ found, (c.coordinate.inRange = true →
        Coordinate.parse? c.coordinate.literal = some c.coordinate ∧
        c.coordinate.ComesBack (some c.coordinate) ∧ c.coordinate.IsPosted) ∧
      (c.coordinate.inRange = false →
        Coordinate.parse? c.coordinate.literal = none ∧ c.coordinate.ComesBack none) ∧
      (c.coordinate.IsPosted ↔ c.lat.isFinite = true ∧ c.lng.isFinite = true)) ∧
    ∃ body, result (.answered 200 body) = .ok found := by
  refine ⟨result_eq_ok_iff, fun c _ => ⟨fun inside => ?_, fun outside => ?_, Coordinate.isPosted_iff⟩, ?_⟩
  · have read := Coordinate.parse?_literal inside
    have posted := Coordinate.isPosted_iff.mpr (Coordinate.isFinite_of_inRange inside)
    exact ⟨read, read ▸ Coordinate.comesBack_parse? _, posted⟩
  · have unread : Coordinate.parse? c.coordinate.literal = none := by
      rw [Coordinate.parse?_literal_eq, if_neg (Bool.eq_false_iff.mp outside)]
    exact ⟨unread, unread ▸ Coordinate.comesBack_parse? _⟩
  · obtain ⟨body, listed⟩ := exists_listed (found.map fun c => ⟨plain c.lat, plain c.lng, c.label⟩)
    exact ⟨body, result_eq_ok_iff.mpr ⟨200, body, _, rfl, by decide, listed, taken_plain found⟩⟩

/-- A latitude may be no number, or beyond the pole. -/
example :
    let body := "[\x7b\"lat\":\"NaN\",\"lon\":\"7\"\x7d,[\" 91\",\"7\"],[\"\",\"7\"],[\"50.7\",\"7.1\",\"Bonn\"]]"
    (result (.answered 200 (Text.Utf8.encode body.toList))).toOption.map
      (List.map fun c => (c.label, c.coordinate.inRange)) =
        some [("", false), ("", false), ("Bonn", true)] := by
  decide +kernel

/-- An octet that is no UTF-8 does no harm in a member that is passed over, but does in the name. -/
example :
    let body (key : String) := Text.Utf8.encode ("[\x7b\"lat\":\"50.7\",\"lon\":\"7.1\",\"" ++ key ++ "\":\"").toList ++
      0xFF :: Text.Utf8.encode "\"\x7d]".toList
    ((result (.answered 200 (body "licence"))).toOption.map List.length,
      (result (.answered 200 (body "display_name"))).toOption.map List.length) = (some 1, none) := by
  decide +kernel

end GeocodingService
end Itinerary

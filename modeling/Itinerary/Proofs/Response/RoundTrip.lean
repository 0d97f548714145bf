import Itinerary.Proofs.Geometry
import Itinerary.Proofs.Instant.Lenient
import Itinerary.Service.Routing

/-! A response is read back from its own text, unless it makes a remark on one of its paths. -/
namespace Itinerary
open Json (Record Survives)

private theorem Geometry.optional_reread {g : Option Geometry} {values : List Json} {i : Nat}
    (h : values[i]? = some (.ofOption toJson g)) (numbers : ∀ x ∈ g.toList.flatMap floats, Survives x)
    (room : Nat) : (Record.written values).optional i (ofJson? (room + 3)) = some g := by
  have solid (a : Geometry) : a.toJson.reread ≠ .null := by cases a <;> nofun
  refine Record.optional_written h solid fun a ha => ofJson?_reread (fun x hx => numbers x ?_) room
  exact List.mem_flatMap_of_mem (Option.mem_toList.mpr ha) hx

private theorem LegMode.ofJson?_reread (m : LegMode) : ofJson? m.toJson.reread = some m := by
  cases m <;> decide +kernel

namespace Instant
variable {t : Instant}

private theorem ofJson?_reread (h : t.Regular) : ofJson? t.toJson.reread = some t := by
  rw [toJson, Json.reread, Json.rereadBy, ofJson?, Json.str?, Option.bind_some]
  exact parseLenient?_zulu h

private theorem regular_of_ofJson? {j : Json} (h : ofJson? j = some t) : t.Regular := by
  obtain ⟨text, _, read⟩ := Option.bind_eq_some_iff.mp h
  exact regular_of_parseLenient? read

end Instant

namespace Leg
variable {l : Leg}

/-- The instants of a leg are instants of the calendar. -/
structure Dated (l : Leg) : Prop where
  departure : ∀ t ∈ l.departure, t.Regular
  arrival : ∀ t ∈ l.arrival, t.Regular

private theorem dated_of_ofJson? {room : Nat} {j : Json} (h : ofJson? room j = some l) : l.Dated := by
  simp only [ofJson?, bind, Option.bind_eq_some_iff] at h
  obtain ⟨r, _, mode, _, departure, hd, arrival, ha, geometry, _, fare, _, h⟩ := h
  cases h
  refine ⟨fun t ht => ?_, fun t ht => ?_⟩
  · obtain ⟨j, hj⟩ := Record.exists_of_optional hd ht
    exact Instant.regular_of_ofJson? hj
  · obtain ⟨j, hj⟩ := Record.exists_of_optional ha ht
    exact Instant.regular_of_ofJson? hj

def floats (l : Leg) : List Float := l.geometry.toList.flatMap Geometry.floats

/-- The values of the members that a leg is written with. -/
def values (l : Leg) : List Json :=
  [l.mode.toJson, .ofOption Instant.toJson l.departure, .ofOption Instant.toJson l.arrival,
    .ofOption Geometry.toJson l.geometry, .ofOption .str l.fare]

private theorem record_reread (l : Leg) :
    l.toJson.reread.record? ["type", "departure_time", "arrival_time", "geometry", "fare"] =
      some (.written l.values) := Json.record?_reread rfl (by decide) rfl

private theorem ofJson?_reread (dated : l.Dated) (numbers : ∀ x ∈ l.floats, Survives x) (room : Nat) :
    ofJson? (room + 4) l.toJson.reread = some l := by
  have mode : (Record.written l.values).required 0 LegMode.ofJson? = some l.mode :=
    (Record.required_written rfl).trans l.mode.ofJson?_reread
  have departure : (Record.written l.values).optional 1 Instant.ofJson? = some l.departure :=
    Record.optional_written rfl nofun fun t ht => Instant.ofJson?_reread (dated.departure t ht)
  have arrival : (Record.written l.values).optional 2 Instant.ofJson? = some l.arrival :=
    Record.optional_written rfl nofun fun t ht => Instant.ofJson?_reread (dated.arrival t ht)
  have geometry : (Record.written l.values).optional 3 (Geometry.ofJson? (room + 3)) = some l.geometry :=
    Geometry.optional_reread rfl numbers room
  have fare : (Record.written l.values).optional 4 Json.str? = some l.fare :=
    Record.optional_written rfl nofun fun s _ => rfl
  rw [ofJson?, record_reread]
  simp only [bind, Option.bind, mode, departure, arrival, geometry, fare, Nat.add_one_sub_one]
  rfl

end Leg

namespace Bounds
variable {b : Bounds}

def floats (b : Bounds) : List Float := [b.minLng, b.minLat, b.maxLng, b.maxLat]

private theorem ofBox?_reread (numbers : ∀ x ∈ b.floats, Survives x) : ofBox? b.toBox.reread = some b := by
  simp only [floats, List.forall_mem_cons] at numbers
  obtain ⟨minLng, minLat, maxLng, maxLat, _⟩ := numbers
  change ofBox? (.arr [(Json.ofFloat b.minLng).reread, (Json.ofFloat b.minLat).reread,
    (Json.ofFloat b.maxLng).reread, (Json.ofFloat b.maxLat).reread]) = some b
  simp only [ofBox?, minLng.float?_reread, minLat.float?_reread, maxLng.float?_reread,
    maxLat.float?_reread, bind, Option.bind]
  rfl

end Bounds

/-- A remark is written as a record of three, and a record is not what it is read from. -/
theorem PathDetail.ofJson?_reread (room : Nat) (d : PathDetail) : ofJson? room d.toJson.reread = none := rfl

namespace Path
variable {p : Path}

/-- Instants are instants of the calendar, and the details are in order. -/
structure Sound (p : Path) : Prop where
  details : Json.Ascending p.details
  legs : ∀ l ∈ p.legs, l.Dated

private theorem sound_of_ofJson? {room : Nat} {j : Json} (h : ofJson? room j = some p) : p.Sound := by
  rw [ofJson?] at h
  -- the members before the details, the details, the legs, and the members after them
  iterate 9 obtain ⟨_, _, h⟩ := Option.bind_eq_some_iff.mp h
  obtain ⟨details, hd, h⟩ := Option.bind_eq_some_iff.mp h
  obtain ⟨legs, hl, h⟩ := Option.bind_eq_some_iff.mp h
  iterate 2 obtain ⟨_, _, h⟩ := Option.bind_eq_some_iff.mp h
  cases h
  refine ⟨?_, ?_⟩
  · rcases Record.defaulted_cases hd with rfl | ⟨j, hj⟩
    · exact List.Pairwise.nil
    · exact Json.ascending_of_map? hj
  · intro l mem
    rcases Record.defaulted_cases hl with rfl | ⟨j, hj⟩
    · cases mem
    · obtain ⟨i, hi⟩ := Json.exists_of_list? hj mem
      exact Leg.dated_of_ofJson? hi

def floats (p : Path) : List Float :=
  [p.distance, p.ascend, p.descend] ++ p.points.toList.flatMap Geometry.floats ++
    p.snapped.toList.flatMap Geometry.floats ++ p.bounds.toList.flatMap Bounds.floats ++
    p.legs.flatMap Leg.floats

/-- All remarks on the path. -/
def remarks (p : Path) : List PathDetail := p.details.flatMap Prod.snd

/-- The values of the members that a path is written with. -/
def values (p : Path) : List Json :=
  [.ofFloat p.distance, .int p.time.toNat, .ofFloat p.ascend, .ofFloat p.descend,
    .ofOption Geometry.toJson p.points, .ofOption Geometry.toJson p.snapped,
    .ofOption Bounds.toBox p.bounds,
    .ofOption (fun order => .arr (order.map fun i => .int i.toNat)) p.order,
    .obj (p.details.map fun d => (d.1, .arr (d.2.map PathDetail.toJson))),
    .arr (p.legs.map Leg.toJson), .ofOption .str p.fare, .ofOption .str p.description]

private theorem record_reread (p : Path) :
    p.toJson.reread.record? ["distance", "time", "ascend", "descend", "points", "snapped_waypoints",
      "bbox", "points_order", "details", "legs", "fare", "description"] = some (.written p.values) :=
  Json.record?_reread rfl (by decide) rfl

/-- The details are read back if there is no remark among them. -/
private theorem details_reread (sorted : Json.Ascending p.details) (room : Nat) :
    (Json.obj (p.details.map fun d => (d.1, .arr (d.2.map PathDetail.toJson)))).reread.map?
        (Json.list? (PathDetail.ofJson? room)) =
      if p.remarks.isEmpty then some p.details else none := by
  split
  · rename_i unremarked
    rw [List.isEmpty_iff, remarks, List.flatMap_eq_nil_iff] at unremarked
    refine Json.map?_reread (fun details => .arr (details.map PathDetail.toJson)) sorted fun d hd => ?_
    rw [unremarked d hd]
    rfl
  · rename_i remarked
    rw [List.isEmpty_iff, remarks, List.flatMap_eq_nil_iff] at remarked
    simp only [not_forall] at remarked
    obtain ⟨d, hd, some⟩ := remarked
    obtain ⟨first, rest, hs⟩ := List.exists_cons_of_ne_nil some
    rw [Json.reread_obj, List.map_map]
    refine Json.map?_eq_none (List.mem_map_of_mem hd) ?_
    change (Json.arr (d.2.map PathDetail.toJson)).reread.list? (PathDetail.ofJson? room) = none
    rw [hs, Json.reread_arr, Json.list?]
    exact Json.mapM_eq_none List.mem_cons_self (PathDetail.ofJson?_reread room first)

private theorem ofJson?_reread (sound : p.Sound) (numbers : ∀ x ∈ p.floats, Survives x) (room : Nat) :
    ofJson? (room + 6) p.toJson.reread = if p.remarks.isEmpty then some p else none := by
  simp only [floats, List.forall_mem_append, List.forall_mem_cons] at numbers
  obtain ⟨⟨⟨⟨⟨hd, ha, hb, _⟩, hp⟩, hs⟩, hbox⟩, hl⟩ := numbers
  have distance : (Record.written p.values).defaulted 0 0 Json.float? = some p.distance :=
    (Record.defaulted_written rfl 0).trans hd.float?_reread
  have time : (Record.written p.values).defaulted 1 0 Json.uint64? = some p.time :=
    (Record.defaulted_written rfl 0).trans (Json.uint64?_reread p.time)
  have ascend : (Record.written p.values).defaulted 2 0 Json.float? = some p.ascend :=
    (Record.defaulted_written rfl 0).trans ha.float?_reread
  have descend : (Record.written p.values).defaulted 3 0 Json.float? = some p.descend :=
    (Record.defaulted_written rfl 0).trans hb.float?_reread
  have points : (Record.written p.values).optional 4 (Geometry.ofJson? (room + 5)) = some p.points :=
    Geometry.optional_reread rfl hp (room + 2)
  have snapped : (Record.written p.values).optional 5 (Geometry.ofJson? (room + 5)) = some p.snapped :=
    Geometry.optional_reread rfl hs (room + 2)
  have bounds : (Record.written p.values).optional 6 Bounds.ofBox? = some p.bounds := by
    refine Record.optional_written rfl nofun fun b hb => Bounds.ofBox?_reread fun x hx => hbox x ?_
    exact List.mem_flatMap_of_mem (Option.mem_toList.mpr hb) hx
  have order : (Record.written p.values).optional 7 (Json.list? Json.uint64?) = some p.order :=
    Record.optional_written rfl nofun fun order _ => Json.list?_reread fun i _ => Json.uint64?_reread i
  have details : (Record.written p.values).defaulted 8 [] (Json.map? (Json.list?
      (PathDetail.ofJson? (room + 3)))) = if p.remarks.isEmpty then some p.details else none :=
    (Record.defaulted_written rfl []).trans (details_reread sound.details (room + 3))
  have legs : (Record.written p.values).defaulted 9 [] (Json.list? (Leg.ofJson? (room + 4))) = some p.legs := by
    refine (Record.defaulted_written rfl []).trans (Json.list?_reread fun l mem => ?_)
    exact Leg.ofJson?_reread (sound.legs l mem)
      (fun x hx => hl x (List.mem_flatMap_of_mem mem hx)) room
  have fare : (Record.written p.values).optional 10 Json.str? = some p.fare :=
    Record.optional_written rfl nofun fun s _ => rfl
  have description : (Record.written p.values).optional 11 Json.str? = some p.description :=
    Record.optional_written rfl nofun fun s _ => rfl
  have one : room + 6 - 1 = room + 5 := rfl
  have two : room + 6 - 2 = room + 4 := rfl
  have three : room + 6 - 3 = room + 3 := rfl
  rw [ofJson?, record_reread]
  simp only [bind, Option.bind_some, one, two, three, distance, time, ascend, descend, points, snapped, bounds,
    order, details, legs, fare, description]
  split <;> rfl

end Path

namespace Response
variable {r : Response}

def floats (r : Response) : List Float := r.paths.flatMap Path.floats

/-- All remarks on the paths of a response. -/
def remarks (r : Response) : List PathDetail := r.paths.flatMap Path.remarks

private theorem sound_of_ofJson? {room : Nat} {j : Json} (h : ofJson? room j = some r) :
    ∀ p ∈ r.paths, p.Sound := by
  simp only [ofJson?, bind, Option.bind_eq_some_iff] at h
  obtain ⟨record, _, paths, hp, h⟩ := h
  cases h
  intro p mem
  rcases Record.defaulted_cases hp with rfl | ⟨j, hj⟩
  · cases mem
  · obtain ⟨i, hi⟩ := Json.exists_of_list? hj mem
    exact Path.sound_of_ofJson? hi

private theorem record_reread (r : Response) :
    r.toJson.reread.record? ["paths"] = some (.written [.arr (r.paths.map Path.toJson)]) :=
  Json.record?_reread rfl (by decide) rfl

/-- The paths are read back if there is no remark on any of them. -/
private theorem paths_reread (sound : ∀ p ∈ r.paths, p.Sound) (numbers : ∀ x ∈ r.floats, Survives x)
    (room : Nat) : (Json.arr (r.paths.map Path.toJson)).reread.list? (Path.ofJson? (room + 6)) =
      if r.remarks.isEmpty then some r.paths else none := by
  have path (p : Path) (mem : p ∈ r.paths) : Path.ofJson? (room + 6) p.toJson.reread =
      if p.remarks.isEmpty then some p else none :=
    Path.ofJson?_reread (sound p mem) (fun x hx => numbers x (List.mem_flatMap_of_mem mem hx)) room
  split
  · rename_i unremarked
    rw [List.isEmpty_iff, remarks, List.flatMap_eq_nil_iff] at unremarked
    refine Json.list?_reread fun p mem => ?_
    rw [path p mem, unremarked p mem]
    rfl
  · rename_i remarked
    rw [List.isEmpty_iff, remarks, List.flatMap_eq_nil_iff] at remarked
    simp only [not_forall] at remarked
    obtain ⟨p, mem, some⟩ := remarked
    rw [Json.reread_arr, List.map_map, Json.list?]
    refine Json.mapM_eq_none (List.mem_map_of_mem mem) ?_
    rw [Function.comp_apply, path p mem, List.isEmpty_eq_false_iff.mpr some]
    rfl

private theorem ofJson?_reread (sound : ∀ p ∈ r.paths, p.Sound) (numbers : ∀ x ∈ r.floats, Survives x)
    (room : Nat) : ofJson? (room + 8) r.toJson.reread = if r.remarks.isEmpty then some r else none := by
  have paths : (Record.written [.arr (r.paths.map Path.toJson)]).defaulted 0 []
      (Json.list? (Path.ofJson? (room + 6))) = if r.remarks.isEmpty then some r.paths else none :=
    (Record.defaulted_written rfl []).trans (paths_reread sound numbers room)
  have two : room + 8 - 2 = room + 6 := rfl
  rw [ofJson?, record_reread]
  simp only [bind, Option.bind_some, two, paths]
  split <;> rfl

end Response

namespace RoutingService

/-- A response that has been read is read back from its own text as the same, whatever its paths,
legs and instants are, provided its numbers are; but no response with a remark on a path is read
back at all. -/
theorem response_reread {text : String} {r : Response} (h : readResponse? text = some r)
    (numbers : ∀ x ∈ r.floats, Json.Survives x) :
    readResponse? r.toJson.render = if r.remarks.isEmpty then some r else none := by
  obtain ⟨j, _, read⟩ := Option.bind_eq_some_iff.mp h
  rw [readResponse?, Json.read_render, Option.bind_some]
  exact Response.ofJson?_reread (Response.sound_of_ofJson? read) numbers 119

/-- One leg by transit, with geometries of both forms. -/
def transitText : String :=
  "\x7b\"paths\":[\x7b\"time\":600000,\"points\":\x7b\"coordinates\":[[13.25,52.5]]\x7d," ++
  "\"points_order\":[0],\"legs\":[\x7b\"type\":\"pt\",\"departure_time\":\"2024-05-01T09:00:00+02:00\"," ++
  "\"geometry\":\"_p~iF\"\x7d]\x7d]\x7d"

/-- One remark on the speed. -/
def speedText : String :=
  "\x7b\"paths\":[\x7b\"details\":\x7b\"max_speed\":[[0,1,50]]\x7d\x7d]\x7d"

theorem transit_but_not_speed_reread :
    (∃ r, readResponse? transitText = some r ∧ readResponse? r.toJson.render = some r) ∧
      ∃ r, readResponse? speedText = some r ∧ readResponse? r.toJson.render = none := by
  have transit : (readResponse? transitText).any (fun r =>
      decide (r.remarks.isEmpty = true ∧ ∀ x ∈ r.floats, Json.Survives x)) = true := by decide +kernel
  have speed : (readResponse? speedText).any (fun r =>
      decide (¬ r.remarks.isEmpty = true ∧ ∀ x ∈ r.floats, Json.Survives x)) = true := by decide +kernel
  constructor
  · obtain ⟨r, read, holds⟩ := (Option.any_eq_true _ _).mp transit
    obtain ⟨unremarked, numbers⟩ := of_decide_eq_true holds
    exact ⟨r, read, (response_reread read numbers).trans (if_pos unremarked)⟩
  · obtain ⟨r, read, holds⟩ := (Option.any_eq_true _ _).mp speed
    obtain ⟨remarked, numbers⟩ := of_decide_eq_true holds
    exact ⟨r, read, (response_reread read numbers).trans (if_neg remarked)⟩

end RoutingService
end Itinerary

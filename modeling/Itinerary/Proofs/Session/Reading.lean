import Itinerary.Proofs.Payload
import Itinerary.Proofs.Session.Acceptance
import Itinerary.Proofs.Session.Via
import Mathlib.Data.List.Induction

/-! How the displayed path is read: with the elevation that the options ask for now, whatever the request
asked for that the path answers. -/
namespace Itinerary

/-- The debug view of a response that is read with or without elevation. -/
def Response.detailsRead (r : Response) (elevation : Bool) : Option (List DetailMarker) :=
  r.paths.head?.bind fun path => (path.geometry elevation).toOption.map path.detailMarkers

def Effect.details? : Effect → Option (List DetailMarker)
  | .showDetails markers => some markers
  | _ => none

namespace Session
variable {s t : Session} {e : Event}

/-- Where a click is on the displayed path, if that is read with or without elevation. -/
def indexRead (s : Session) (elevation : Bool) (click : Coordinate) : Option Nat := do
  let path ← s.selectedPath?
  let geometry ← (path.geometry elevation).toOption
  let stops ← (path.snappedStops elevation).toOption
  if stops.points.length ≠ s.route.length then none
  Geodesy.insertIndex geometry.points stops.points click

private theorem indexOnPath_eq (s : Session) (click : Coordinate) :
    s.indexOnPath click = s.indexRead s.options.elevation click := rfl

/-- The elevation that an event sets. -/
def elevationSet (s : Session) : Event → List Bool
  | .edit (.setOptions options) => [options.elevation]
  | .navigate link => [link.options.elevation]
  | .navigateText text => (Link.ofText text s.defaultProfile).toOption.toList.map (·.options.elevation)
  | _ => []

/-- The debug views that an event shows. -/
def detailsShown (s : Session) (e : Event) : List (List DetailMarker) := (s.told e).filterMap Effect.details?

private theorem perform_response (s : Session) (a : Action) : (s.perform a).response = s.response ∧
    (s.perform a).selectedPath? = s.selectedPath? := by
  cases a <;> exact ⟨rfl, rfl⟩

private theorem evaluate_response (s : Session) (always : Bool) : (s.evaluate always).response = s.response ∧
    (s.evaluate always).selectedPath? = s.selectedPath? :=
  perform_response _ _

/-- An edit sets the options and leaves what is displayed. -/
private theorem edit_options (h : s.route.WellFormed) (x : Edit) :
    (s.edit x).2.options = x.optionsFrom s.options ∧ (s.edit x).2.response = s.response := by
  cases edit_cases h x with
  | refused error he =>
    rw [he]
    refine ⟨?_, rfl⟩
    cases x <;> first | rfl | cases he
  | skipped hs he =>
    rw [he]
    refine ⟨?_, rfl⟩
    cases x <;> first | rfl | cases hs
  | done hs route ls hc he =>
    rw [he, afterEdit_eq]
    exact ⟨(evaluate_rest _ true).1, (evaluate_response _ true).1⟩

/-- A link brings its options and leaves what is displayed. -/
private theorem navigate_options (h : s.route.WellFormed) (link : Link) :
    (s.navigate link).options = link.options ∧ (s.navigate link).response = s.response := by
  rcases Nat.lt_or_ge 1 link.nonBlankPoints with hn | hn
  · obtain ⟨route, ls, _, he⟩ := navigate_many h hn
    rw [he]
    exact ⟨(evaluate_rest _ true).1, (evaluate_response _ true).1⟩
  · obtain ⟨route, ls, focusOn, es, _, _, he⟩ := navigate_few h hn
    rw [he]
    exact ⟨rfl, rfl⟩

theorem completeLookup_options (s : Session) (l : Lookup) (result : LookupResult) :
    (s.completeLookup l result).2.options = s.options ∧
      (s.completeLookup l result).2.response = s.response := by
  cases hw : s.route.awaits l with
  | false =>
    rw [completeLookup_stale hw]
    exact ⟨rfl, rfl⟩
  | true =>
    obtain ⟨status, focusOn, es, _, he⟩ := completeLookup_applied hw result
    rw [he]
    exact ⟨(evaluate_rest _ false).1, (evaluate_response _ false).1⟩

private theorem selectAlternative_options (s : Session) (index : Nat) :
    (s.selectAlternative index).2.options = s.options ∧
      (s.selectAlternative index).2.response = s.response := by
  obtain ⟨selected, es, _, he⟩ := selectAlternative_cases s index
  rw [he]
  exact ⟨rfl, rfl⟩

theorem completeRequest_options (s : Session) (number : Nat) (result : RoutingResult) :
    (s.completeRequest number result).2.options = s.options ∧
      (s.completeRequest number result).2.response =
        (s.displayed (.completeRequest number result)).getLast?.or s.response := by
  have counts := completeRequest_fst s number result
  by_cases ha : s.accepts number
  · obtain ⟨es, _, he⟩ := completeRequest_accepted ha result
    refine ⟨by rw [he], ?_⟩
    cases result with
    | ok response =>
      rw [displayed, if_pos (counts.mpr ha), he]
      rfl
    | error failure =>
      rw [he]
      rfl
  · have none : s.displayed (.completeRequest number result) = [] := by
      cases result with
      | ok response => exact if_neg (ha ∘ counts.mp)
      | error failure => rfl
    rw [completeRequest_refused ha, none]
    exact ⟨rfl, rfl⟩

/-- An event sets the elevation or leaves it, and puts a response on display or leaves the one there. -/
private theorem after_options (h : s.route.WellFormed) (e : Event) :
    (s.after e).options.elevation = (s.elevationSet e).getLastD s.options.elevation ∧
      (s.after e).response = (s.displayed e).getLast?.or s.response := by
  have same {t : Session} (ht : t.options = s.options ∧ t.response = s.response) :
      t.options.elevation = s.options.elevation ∧ t.response = s.response :=
    ⟨congrArg Options.elevation ht.1, ht.2⟩
  cases e with
  | edit x =>
    obtain ⟨options, response⟩ := edit_options h x
    refine ⟨?_, response⟩
    rw [after, options]
    cases x <;> rfl
  | selectAlternative index => exact same (selectAlternative_options s index)
  | navigate link =>
    obtain ⟨options, response⟩ := navigate_options h link
    exact ⟨congrArg Options.elevation options, response⟩
  | navigateText text =>
    rw [elevationSet]
    cases hl : Link.ofText text s.defaultProfile with
    | ok link =>
      obtain ⟨options, response⟩ := navigate_options h link
      have asked : s.asksFor link (.navigateText text) := hl
      rw [after_of_asksFor asked]
      exact ⟨congrArg Options.elevation options, response⟩
    | error error =>
      rw [after, navigateText]
      rw [hl]
      exact ⟨rfl, rfl⟩
  | completeLookup l result => exact same (completeLookup_options s l result)
  | completeRequest number result =>
    obtain ⟨options, response⟩ := completeRequest_options s number result
    exact ⟨congrArg Options.elevation options, response⟩
  | _ => exact ⟨rfl, rfl⟩

/-- The elevation is the one set last, and the displayed response the one that came last. -/
theorem play_options (h : s.Settled) (es : List Event) :
    (s.play es).options.elevation = (record elevationSet s es).getLastD s.options.elevation ∧
      (s.play es).response = (record displayed s es).getLast?.or s.response := by
  induction es generalizing s with
  | nil => exact ⟨rfl, rfl⟩
  | cons e es ih =>
    obtain ⟨elevation, response⟩ := ih (h.after e)
    obtain ⟨first, shown⟩ := after_options h.wellFormed e
    have played : s.play (e :: es) = (s.after e).play es := rfl
    rw [played, elevation, response, first, shown, record, record]
    simp only [List.getLastD_eq_getLast?, List.getLast?_append, Option.getD_or, Option.or_assoc, and_self]

/-- What a request asks for is what the options ask for when it is sent. -/
private theorem elevation_of_newRequests (h : s.Settled) {d : Dispatch} (hd : d ∈ s.newRequests e) :
    d.payload.elevation = (s.after e).options.elevation := by
  have decided : .dispatch d ∈ s.actions e :=
    List.mem_append_right _ (List.mem_map_of_mem hd)
  cases (h.decided decided).2 with
  | dispatch built number zoom => exact (Payload.says_of_build built).elevation

/-- The debug view that goes with a response. -/
def detailsOf (s : Session) (response : Response) : List (List DetailMarker) :=
  if s.options.debug then (response.detailsRead s.options.elevation).toList else []

private theorem showDetails_eq_emit (s : Session) (response : Response) :
    (if s.options.debug then s.showDetails response else s) =
      s.emit ((s.detailsOf response).map .showDetails) := by
  have silent : s.emit [] = s := by rw [emit, List.append_nil]
  rw [detailsOf]
  split
  · rw [showDetails, Response.detailsRead]
    cases response.paths.head? with
    | none => exact silent.symm
    | some path =>
      dsimp only [Option.bind_some]
      cases path.geometry s.options.elevation with
      | ok geometry => rfl
      | error error => exact silent.symm
  · exact silent.symm

private theorem display_outbox (s : Session) (response : Response) (zoom : Bool) :
    ∃ ms : List Marker, (s.display response zoom).outbox = s.outbox ++
      (.showPaths response.paths 0 zoom :: (s.detailsOf response).map .showDetails ++
        .clearMarkers :: ms.map .placeMarker) := by
  have detailed :=
    showDetails_eq_emit ({ s with selected := 0 }.emit [.showPaths response.paths 0 zoom]) response
  obtain ⟨u, drawn, said⟩ : ∃ u : Session, s.display response zoom = u.refreshMarkers ∧ u.outbox =
      s.outbox ++ .showPaths response.paths 0 zoom :: (s.detailsOf response).map .showDetails := by
    rw [display]
    rw [detailed]
    exact ⟨_, rfl, List.append_assoc s.outbox _ _⟩
  refine ⟨u.markers, ?_⟩
  rw [drawn, ← List.append_assoc, ← said]
  rfl

/-- The debug view comes with the answer, and is read as the options ask then. -/
private theorem detailsShown_answer {number : Nat} {response : Response}
    (counts : (s.completeRequest number (.ok response)).1 = true) :
    s.detailsShown (.completeRequest number (.ok response)) = s.detailsOf response := by
  have placed (ms : List Marker) : (ms.map Effect.placeMarker).filterMap Effect.details? = [] := by
    rw [List.filterMap_map]
    exact List.filterMap_eq_nil_iff.mpr fun _ _ => rfl
  have views (found : List (List DetailMarker)) :
      (found.map Effect.showDetails).filterMap Effect.details? = found := by
    rw [List.filterMap_map]
    exact List.filterMap_some
  have ha := (completeRequest_fst s number _).mp counts
  obtain ⟨ms, shown⟩ := display_outbox (s.settle number) response (s.zoomOf number)
  have said : (s.after (.completeRequest number (.ok response))).outbox =
      ((s.settle number).display response (s.zoomOf number)).outbox := by
    rw [after, completeRequest_eq_present ha]
    rfl
  rw [detailsShown, told, said, shown]
  change List.filterMap _ (List.drop _ (s.outbox ++ _)) = _
  rw [List.drop_left, List.filterMap_append, List.filterMap_cons_none rfl,
    List.filterMap_cons_none rfl, views, placed, List.append_nil]
  rfl

/-- The elevation that is in force after these events, if the request has gone out before them. -/
def elevationSince (s : Session) (d : Dispatch) (es : List Event) : Bool :=
  (record elevationSet s es).getLastD d.payload.elevation

private theorem play_elevationSince (h : s.Settled) {d : Dispatch} (sent : d ∈ s.newRequests e)
    (es : List Event) : ((s.after e).play es).options.elevation = (s.after e).elevationSince d es := by
  rw [(play_options (h.after e) es).1, ← elevation_of_newRequests h sent]
  rfl

private theorem elevationSince_of_same {d : Dispatch} {es : List Event}
    (same : ∀ elevation ∈ record elevationSet s es, elevation = d.payload.elevation) :
    s.elevationSince d es = d.payload.elevation := by
  rcases List.mem_cons.mp (List.getLastD_mem_cons (l := record elevationSet s es) (a := d.payload.elevation))
    with own | later
  · exact own
  · exact same _ later

/-- Other options leave the displayed path, but not how it is read. -/
private theorem indexOnPath_setOptions (s : Session) (options : Options) (click : Coordinate) :
    (s.after (.edit (.setOptions options))).indexOnPath click = s.indexRead options.elevation click := by
  have edited : s.after (.edit (.setOptions options)) = { s with options }.afterEdit := rfl
  have path : { s with options }.afterEdit.selectedPath? = s.selectedPath? := by
    rw [afterEdit_eq, (evaluate_response _ true).2]
    rfl
  have elevation : { s with options }.afterEdit.options = options := by
    rw [afterEdit_eq, (evaluate_rest _ true).1]
    rfl
  rw [edited, indexOnPath_eq, elevation, indexRead, path, afterEdit_route]
  rfl

/-- A request goes out at an event, its answer is displayed some events later, and nothing else is for
some more events. Then the displayed path and the debug view are read with the elevation that was set
last since the request went out, and with what the request itself asked for only if none was; as soon as
other options are set, a click on the very same path is read as they ask. -/
theorem displayed_read_as_set_last (h : s.Reachable) {d : Dispatch} (sent : d ∈ s.newRequests e)
    (mid rest : List Event) {since : List Event} {response : Response} {t u : Session}
    (ht : t = (s.after e).play mid)
    (counts : (t.completeRequest d.number (.ok response)).1 = true)
    (last : record displayed (t.after (.completeRequest d.number (.ok response))) rest = [])
    (hs : since = mid ++ .completeRequest d.number (.ok response) :: rest)
    (hu : u = (s.after e).play since) :
    u.response = some response ∧
    t.detailsShown (.completeRequest d.number (.ok response)) = (if t.options.debug then
      (response.detailsRead ((s.after e).elevationSince d mid)).toList else []) ∧
    ∀ click,
      u.indexOnPath click = u.indexRead ((s.after e).elevationSince d since) click ∧
      (∃ stop v, u.addIntermediate click = (.ok stop.id, v) ∧
        u.route.Between ((u.indexOnPath click).getD (max (u.route.length - 1) 1)) stop v.route) ∧
      ((∀ elevation ∈ record elevationSet (s.after e) since, elevation = d.payload.elevation) →
        u.indexOnPath click = u.indexRead d.payload.elevation click) ∧
      ∀ options : Options,
        (u.after (.edit (.setOptions options))).indexOnPath click = u.indexRead options.elevation click := by
  have settled := h.settled
  have reachable : (t.after (.completeRequest d.number (.ok response))).Reachable := by
    rw [ht]
    exact ((h.after e).play mid).after _
  have played : u = (t.after (.completeRequest d.number (.ok response))).play rest := by
    rw [hu, hs, play_append, ht]
    rfl
  refine ⟨?_, ?_, fun click => ?_⟩
  · have shown : t.displayed (.completeRequest d.number (.ok response)) = [response] := if_pos counts
    rw [played, (play_options reachable.settled rest).2, last, after, (completeRequest_options _ _ _).2, shown]
    rfl
  · rw [detailsShown_answer counts, detailsOf, ← play_elevationSince settled sent mid, ← ht]
  · have read : u.indexOnPath click = u.indexRead ((s.after e).elevationSince d since) click := by
      rw [indexOnPath_eq, ← play_elevationSince settled sent since, ← hu]
    refine ⟨read, ?_, fun same => ?_, fun options => indexOnPath_setOptions u options click⟩
    · rw [played]
      exact addIntermediate_between (reachable.play rest).settled.wellFormed click
    · rw [read, elevationSince_of_same same]

/-- A path drawn without elevation. -/
def flatPath : Path where
  distance := 25000
  time := 1200000
  ascend := 0
  descend := 0
  points := some (.text "_p~iF~ps|U_ulLnnqC")
  snapped := some (.text "_p~iF~ps|U_ulLnnqC")
  bounds := none
  order := none
  details := []
  legs := []
  fare := none
  description := none

/-- The request asked for no elevation, and so its path has none; but once the options ask for it the
path cannot be read, and no click is found on it. -/
theorem flatPath_unread :
    let e : Event := .completeLookup ⟨⟨2⟩, "Köln", 1⟩ (.ok [⟨50.9, 7.0, "Köln"⟩])
    let u := (halfFound.after e).play
      [.completeRequest 1 (.ok ⟨[flatPath]⟩), .edit (.setOptions { elevation := true })]
    halfFound.Reachable ∧ (∃ d ∈ halfFound.newRequests e, d.number = 1 ∧ d.payload.elevation = false) ∧
      u.response = some ⟨[flatPath]⟩ ∧ ∀ click, u.indexOnPath click = none := by
  intro e u
  have reachable : halfFound.Reachable := (Reachable.start {} false ⟨0, 0⟩).play _
  have asked : (halfFound.newRequests e).map (fun d => (d.number, d.payload.elevation)) = [(1, false)] := by
    decide +kernel
  obtain ⟨d, sent, hd⟩ := List.mem_map.mp (asked ▸ List.mem_singleton_self (1, false))
  obtain ⟨number, elevation⟩ := Prod.mk.inj hd
  have counts : ((halfFound.after e).completeRequest d.number (.ok ⟨[flatPath]⟩)).1 = true := by
    rw [number]
    decide +kernel
  obtain ⟨shown, -, read⟩ := displayed_read_as_set_last reachable sent []
    [.edit (.setOptions { elevation := true })] rfl counts rfl rfl (u := u) (by rw [number]; rfl)
  refine ⟨reachable, ⟨d, sent, number, elevation⟩, shown, fun click => ?_⟩
  have path : u.selectedPath? = some flatPath := by
    rw [selectedPath?, shown]
    rfl
  have unread : (flatPath.geometry true).toOption = none :=
    Option.isNone_iff_eq_none.mp (by decide +kernel)
  have inForce : (halfFound.after e).elevationSince d [.completeRequest d.number (.ok ⟨[flatPath]⟩),
      .edit (.setOptions { elevation := true })] = true := rfl
  rw [(read click).1, List.nil_append, inForce, indexRead, path, Option.bind_eq_bind, Option.bind_some, unread]
  rfl

end Session
end Itinerary

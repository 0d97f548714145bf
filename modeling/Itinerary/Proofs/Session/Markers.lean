import Itinerary.Proofs.Route.Sync
import Itinerary.Proofs.Session.Readiness
import Mathlib.Data.List.Induction
import Mathlib.Data.List.Perm.Subperm

/-! The markers on display. After every event they are those of the route in the order of the selected
path, so that each resolved stop has as many markers as the order has its place. -/
namespace Itinerary

/-- The markers on display after an effect. -/
def Effect.redraw (shown : List Marker) : Effect → List Marker
  | .clearMarkers => []
  | .placeMarker m => shown ++ [m]
  | _ => shown

/-- Whatever was on display, after clearing it just what is placed is. -/
private theorem Effect.redraw_cleared (told : List Effect) (shown ms : List Marker) :
    (told ++ Effect.clearMarkers :: ms.map Effect.placeMarker).foldl redraw shown = ms := by
  have placed (before : List Marker) :
      (ms.map Effect.placeMarker).foldl redraw before = before ++ ms := by
    induction ms generalizing before with
    | nil => exact (List.append_nil before).symm
    | cons m ms ih =>
      rw [List.map_cons, List.foldl_cons, ih]
      exact List.append_assoc before [m] ms
  rw [List.foldl_append, List.foldl_cons]
  exact placed []

private theorem Effect.redraw_geocode (queries : List String) (shown : List Marker) :
    (queries.map Effect.geocode).foldl redraw shown = shown := by
  induction queries with
  | nil => rfl
  | cons query queries ih => exact ih

namespace Session
variable {s t u : Session}

/-- The markers that a run leaves on display. -/
def onDisplay (s : Session) (es : List Event) : List Marker := (record told s es).foldl Effect.redraw []

/-- What has been told from one session to a later one takes the markers of the one to those of the
other. -/
def Redrawn (s t : Session) : Prop :=
  ∃ told, t.outbox = s.outbox ++ told ∧ told.foldl Effect.redraw s.markers = t.markers

namespace Redrawn

private theorem refl (s : Session) : Redrawn s s := ⟨[], (List.append_nil _).symm, rfl⟩

private theorem trans (h : Redrawn s t) (h' : Redrawn t u) : Redrawn s u := by
  obtain ⟨before, ho, hm⟩ := h
  obtain ⟨later, ho', hm'⟩ := h'
  refine ⟨before ++ later, ?_, ?_⟩
  · rw [ho', ho, List.append_assoc]
  · rw [List.foldl_append, hm, hm']

/-- Markers that are placed anew are those of the session, whatever came before. -/
theorem refreshMarkers (es : List Effect) (ho : t.outbox = s.outbox ++ es) :
    Redrawn s t.refreshMarkers := by
  refine ⟨es ++ .clearMarkers :: t.markers.map .placeMarker, ?_, ?_⟩
  · rw [← List.append_assoc, ← ho]
    rfl
  · exact Effect.redraw_cleared es s.markers t.markers

private theorem perform (s : Session) (a : Action) : Redrawn s (s.perform a) := by
  cases a with
  | idle => exact refl s
  | push link => exact ⟨[.pushLink link], rfl, rfl⟩
  | dispatch d => exact ⟨[], (List.append_nil _).symm, rfl⟩
  | reject e => exact ⟨[.showRejection e], rfl, rfl⟩

private theorem evaluate (s : Session) (always : Bool) : Redrawn s (s.evaluate always) :=
  perform { s with dispatcher := (s.dispatcher.evaluate s.route s.options s.clock always).2 } _

private theorem afterEdit (ho : t.outbox = s.outbox) : Redrawn s t.afterEdit := by
  rw [afterEdit_eq]
  apply trans (t := t.refreshMarkers.withDirect false)
  · exact refreshMarkers [] (ho.trans (List.append_nil _).symm)
  · exact evaluate _ true

private theorem edit (h : s.route.WellFormed) (x : Edit) : Redrawn s (s.edit x).2 := by
  cases edit_cases h x with
  | refused error he =>
    rw [he]
    exact refl s
  | skipped hs he =>
    rw [he]
    exact refl s
  | done hs route ls hc he =>
    rw [he]
    exact afterEdit rfl

private theorem selectAlternative (s : Session) (index : Nat) : Redrawn s (s.selectAlternative index).2 := by
  unfold Session.selectAlternative
  dsimp only
  split
  · exact refl s
  · exact refreshMarkers [.highlight index] rfl

private theorem navigate (h : s.route.WellFormed) (link : Link) : Redrawn s (s.navigate link) := by
  rcases Nat.lt_or_ge 1 link.nonBlankPoints with hn | hn
  · obtain ⟨route, ls, _, hl⟩ := navigate_many h hn
    rw [hl]
    apply trans (t := (s.arrived link route ls).refreshMarkers.withDirect true)
    · exact refreshMarkers [] (List.append_nil _).symm
    · exact evaluate _ true
  · obtain ⟨route, ls, focusOn, es, _, _, hl⟩ := navigate_few h hn
    rw [hl]
    exact refreshMarkers es rfl

private theorem navigateText (h : s.route.WellFormed) (text : String) :
    Redrawn s (s.navigateText text).2 := by
  rcases navigateText_cases s text with ⟨error, he⟩ | ⟨link, _, he⟩
  · rw [he]
    exact refl s
  · rw [he]
    exact navigate h link

private theorem completeLookup (s : Session) (l : Lookup) (result : LookupResult) :
    Redrawn s (s.completeLookup l result).2 := by
  cases hw : s.route.awaits l with
  | false =>
    rw [completeLookup_stale hw]
    exact ⟨[], (List.append_nil _).symm, rfl⟩
  | true =>
    obtain ⟨status, focusOn, es, _, he⟩ := completeLookup_applied hw result
    rw [he]
    apply trans (t := ((s.answered l result).shown focusOn es).refreshMarkers)
    · exact refreshMarkers es rfl
    · exact evaluate _ false

private theorem display (s : Session) (response : Response) (zoom : Bool) :
    Redrawn s (s.display response zoom) := by
  have detailed : ∃ told, (if s.options.debug then
      ({ s with selected := 0 }.emit [.showPaths response.paths 0 zoom]).showDetails response
      else { s with selected := 0 }.emit [.showPaths response.paths 0 zoom]).outbox =
        s.outbox ++ told := by
    split
    · obtain ⟨es, _, he⟩ := showDetails_eq
        ({ s with selected := 0 }.emit [.showPaths response.paths 0 zoom]) response
      rw [he]
      exact ⟨_, List.append_assoc _ _ es⟩
    · exact ⟨_, rfl⟩
  obtain ⟨told, ho⟩ := detailed
  exact refreshMarkers told ho

private theorem completeRequest (s : Session) (number : Nat) (result : RoutingResult) :
    Redrawn s (s.completeRequest number result).2 := by
  by_cases ha : s.accepts number
  · rw [completeRequest_eq_present ha]
    cases result with
    | ok response => exact display (s.settle number) response (s.zoomOf number)
    | error failure => exact ⟨[.showFailure failure], rfl, rfl⟩
  · rw [completeRequest_refused ha]
    exact ⟨[], (List.append_nil _).symm, rfl⟩

private theorem told {e : Event} (h : Redrawn s (s.after e)) :
    (s.told e).foldl Effect.redraw s.markers = (s.after e).markers := by
  obtain ⟨es, ho, hm⟩ := h
  rw [Session.told, ho, List.drop_left]
  exact hm

end Redrawn

/-- No event leaves the markers out of date. -/
private theorem redraw_told (h : s.route.WellFormed) (e : Event) :
    (s.told e).foldl Effect.redraw s.markers = (s.after e).markers := by
  cases e with
  | edit x => exact Redrawn.told (.edit h x)
  | selectAlternative index => exact Redrawn.told (.selectAlternative s index)
  | navigate link => exact Redrawn.told (.navigate h link)
  | navigateText text => exact Redrawn.told (.navigateText h text)
  | takeLookups => exact Redrawn.told (.refl s)
  | takeRequests => exact Redrawn.told (.refl s)
  | completeLookup l result => exact Redrawn.told (.completeLookup s l result)
  | completeRequest number result => exact Redrawn.told (.completeRequest s number result)
  | setClock now => exact Redrawn.told (.refl s)
  | collect =>
    have nothing : s.told .collect = [] := List.drop_nil
    rw [nothing]
    rfl
  | geocode queries =>
    exact Redrawn.told ⟨queries.map .geocode, rfl, Effect.redraw_geocode queries s.markers⟩
  | findRoute payload => exact Redrawn.told ⟨[.findRoute payload], rfl, rfl⟩

private theorem start_markers (config : SessionConfig) (historyAvailable : Bool) (clock : Instant) :
    (start config historyAvailable clock).markers = [] := rfl

private theorem play_onDisplay (config : SessionConfig) (historyAvailable : Bool) (clock : Instant)
    (es : List Event) : (start config historyAvailable clock).onDisplay es =
      ((start config historyAvailable clock).play es).markers := by
  induction es using List.reverseRecOn with
  | nil => exact (start_markers config historyAvailable clock).symm
  | append_singleton es e ih =>
    have reachable := (Reachable.start config historyAvailable clock).play es
    rw [onDisplay] at ih ⊢
    rw [record_concat, List.foldl_append, ih, play_concat]
    exact redraw_told reachable.settled.wellFormed e

/-- The order of a path fits the route if it has a place for every stop, and no other. -/
def Fits (s : Session) (own : List UInt64) : Prop :=
  own.length = s.route.length ∧ ∀ place ∈ own, place.toNat < s.route.length

/-- The order that is in force: that of the selected path if it fits the route, else that of the
route. -/
inductive OrderInForce (s : Session) : List Nat → Prop
  | path (own : List UInt64) (ho : s.selectedPath?.bind Path.order = some own) (fits : s.Fits own) :
      OrderInForce s (own.map UInt64.toNat)
  | route (none : ∀ own, s.selectedPath?.bind Path.order = some own → ¬ s.Fits own) :
      OrderInForce s (List.range s.route.length)

private theorem orderInForce_iff {order : List Nat} : s.OrderInForce order ↔ order = s.markerOrder := by
  have fits_iff (own : List UInt64) : s.Fits own ↔
      (own.map UInt64.toNat).length = s.route.length ∧
        (own.map UInt64.toNat).all (· < s.route.length) = true := by
    simp [Fits, List.all_map]
  constructor
  · rintro (⟨own, ho, fits⟩ | none)
    · rw [markerOrder, ho]
      exact (if_pos ((fits_iff own).mp fits)).symm
    · rw [markerOrder]
      cases ho : s.selectedPath?.bind Path.order with
      | none => rfl
      | some own => exact (if_neg fun fits => none own ho ((fits_iff own).mpr fits)).symm
  · rintro rfl
    rw [markerOrder]
    cases ho : s.selectedPath?.bind Path.order with
    | none =>
      apply OrderInForce.route
      simp [ho]
    | some own =>
      dsimp only [Option.map_some]
      split
      · rename_i fits
        exact .path own ho ((fits_iff own).mpr fits)
      · rename_i unfit
        apply OrderInForce.route
        intro other same fits
        cases ho.symm.trans same
        exact unfit ((fits_iff own).mp fits)

/-- The order in force has as many places as the route, all of them of the route. -/
theorem OrderInForce.places {order : List Nat} (h : s.OrderInForce order) :
    order.length = s.route.length ∧ ∀ place ∈ order, place < s.route.length := by
  cases h with
  | path own ho fits =>
    refine ⟨(List.length_map _).trans fits.1, ?_⟩
    intro place hp
    obtain ⟨i, hi, rfl⟩ := List.mem_map.mp hp
    exact fits.2 i hi
  | route none => exact ⟨List.length_range, fun place hp => List.mem_range.mp hp⟩

/-- An order without repetition has every place of the route once. -/
private theorem OrderInForce.count_eq_one {order : List Nat} (h : s.OrderInForce order) (hn : order.Nodup)
    {place : Nat} (hp : place < s.route.length) : order.count place = 1 := by
  have inside : order ⊆ List.range s.route.length := fun i hi => List.mem_range.mpr (h.places.2 i hi)
  have whole : order.Perm (List.range s.route.length) := by
    apply (hn.subperm inside).perm_of_length_le
    rw [List.length_range]
    exact Nat.le_of_eq h.places.1.symm
  exact List.count_eq_one_of_mem hn (whole.mem_iff.mpr (List.mem_range.mpr hp))

/-- An order that has no place of the route twice repeats nothing, since it has no other. -/
private theorem OrderInForce.nodup {order : List Nat} (h : s.OrderInForce order)
    (once : ∀ place < s.route.length, order.count place ≤ 1) : order.Nodup := by
  apply List.nodup_iff_count_le_one.mpr
  intro place
  rcases Nat.lt_or_ge place s.route.length with inside | outside
  · exact once place inside
  · have absent : place ∉ order := fun hp => Nat.not_lt.mpr outside (h.places.2 place hp)
    rw [List.count_eq_zero_of_not_mem absent]
    exact Nat.zero_le 1

/-- The marker shows the stop that the order has at the marker's index, which is resolved. -/
def Marks (s : Session) (order : List Nat) (m : Marker) : Prop :=
  ∃ place stop, order[m.index]? = some place ∧ s.route.toList[place]? = some stop ∧
    stop.status = .resolved ∧ m.stop = stop.id ∧ stop.coordinate = some m.coordinate ∧
    m.role = s.route.roleOf m.index

/-- The marker of the stop at a place, as the one with this index. -/
def markerAt (s : Session) (a : Nat × Nat) : Option Marker := do
  let stop ← s.route.at? a.1
  return ⟨stop.id, a.2, s.route.roleOf a.2, ← stop.coordinate⟩

private theorem markers_eq (s : Session) : s.markers = s.markerOrder.zipIdx.filterMap s.markerAt := rfl

private theorem markerAt_eq_some_iff {place index : Nat} {m : Marker} :
    s.markerAt (place, index) = some m ↔ ∃ stop, s.route.at? place = some stop ∧
      m.stop = stop.id ∧ stop.coordinate = some m.coordinate ∧ m.index = index ∧
      m.role = s.route.roleOf index := by
  simp only [markerAt, Option.bind_eq_bind, Option.bind_eq_some_iff, Option.pure_def, Option.some.injEq]
  constructor
  · rintro ⟨stop, hs, c, hc, rfl⟩
    exact ⟨stop, hs, rfl, hc, rfl, rfl⟩
  · rintro ⟨stop, hs, same, hc, rfl, role⟩
    refine ⟨stop, hs, m.coordinate, hc, ?_⟩
    rw [← same, ← role]

private theorem mem_markers_iff (h : s.route.WellFormed) {m : Marker} :
    m ∈ s.markers ↔ s.Marks s.markerOrder m := by
  rw [markers_eq, List.mem_filterMap]
  constructor
  · rintro ⟨⟨place, index⟩, hp, hm⟩
    obtain ⟨stop, hs, same, hc, rfl, role⟩ := markerAt_eq_some_iff.mp hm
    have resolved : stop.status = .resolved := by
      apply (h.sound stop (h.at?_some hs).1).coordinate_isSome_iff.mp
      exact Option.isSome_of_eq_some hc
    exact ⟨place, stop, List.mk_mem_zipIdx_iff_getElem?.mp hp, (h.getElem?_toList place).trans hs,
      resolved, same, hc, role⟩
  · rintro ⟨place, stop, hp, hs, _, same, hc, role⟩
    refine ⟨(place, m.index), List.mk_mem_zipIdx_iff_getElem?.mpr hp, ?_⟩
    exact markerAt_eq_some_iff.mpr ⟨stop, (h.getElem?_toList place).symm.trans hs, same, hc, rfl, role⟩

private theorem markers_ascending (s : Session) : s.markers.Pairwise fun m n => m.index < n.index := by
  rw [markers_eq, List.pairwise_filterMap]
  have indices : s.markerOrder.zipIdx.Pairwise fun a b => a.2 < b.2 := by
    rw [← List.pairwise_map (f := Prod.snd) (R := (· < ·)), List.zipIdx_map_snd]
    exact List.pairwise_lt_range' 1
  apply indices.imp
  rintro ⟨place, i⟩ ⟨other, k⟩ before m hm n hn
  obtain ⟨_, _, _, _, rfl, _⟩ := markerAt_eq_some_iff.mp hm
  obtain ⟨_, _, _, _, rfl, _⟩ := markerAt_eq_some_iff.mp hn
  exact before

/-- At any time of any run, the markers on display are those of the present route and the selected
path: one for each place of the order in force whose stop is resolved, with the stop's coordinate, in
the order of their indices. -/
theorem markers_up_to_date (config : SessionConfig) (historyAvailable : Bool) (clock : Instant)
    (es : List Event) :
    let first := start config historyAvailable clock
    let s := first.play es
    ∃ order, s.OrderInForce order ∧ (first.onDisplay es).Pairwise (fun m n => m.index < n.index) ∧
      ∀ m, m ∈ first.onDisplay es ↔ s.Marks order m := by
  intro first s
  have reachable : s.Reachable := (Reachable.start config historyAvailable clock).play es
  have shown : first.onDisplay es = s.markers := play_onDisplay config historyAvailable clock es
  refine ⟨s.markerOrder, orderInForce_iff.mpr rfl, ?_, fun m => ?_⟩
  · rw [shown]
    exact s.markers_ascending
  · rw [shown]
    exact mem_markers_iff reachable.settled.wellFormed

/-- A resolved stop has as many markers as the order has its place. -/
private theorem countP_markers (h : s.route.WellFormed) {place : Nat} {stop : Stop}
    (hs : s.route.at? place = some stop) (hr : stop.status = .resolved) :
    s.markers.countP (·.stop == stop.id) = s.markerOrder.count place := by
  rw [markers_eq, List.countP_filterMap, List.count_eq_countP]
  conv_rhs => rw [← List.zipIdx_map_fst 0 s.markerOrder, List.countP_map]
  obtain ⟨c, hc⟩ : ∃ c, stop.coordinate = some c :=
    Option.isSome_iff_exists.mp ((h.sound stop (h.at?_some hs).1).coordinate_isSome_iff.mpr hr)
  apply List.countP_congr
  rintro ⟨other, index⟩ _
  cases hm : s.markerAt (other, index) with
  | none =>
    have apart : other ≠ place := by
      rintro rfl
      simp [markerAt, hs, hc] at hm
    simp [apart]
  | some m =>
    obtain ⟨found, hf, same, _⟩ := markerAt_eq_some_iff.mp hm
    have own : found.id = stop.id ↔ other = place := by
      constructor
      · exact h.eq_of_at? hf hs
      · rintro rfl
        cases hf.symm.trans hs
        rfl
    simp [same, own]

/-- At any time of any run no marker shows a stop that is not resolved, and a resolved stop has as many
markers as the order in force has its place. So each resolved stop has exactly one if the order repeats
no place, and, once all stops are resolved, only then. -/
theorem markers_of_resolved (config : SessionConfig) (historyAvailable : Bool) (clock : Instant)
    (es : List Event) :
    let first := start config historyAvailable clock
    let s := first.play es
    let count := fun stop : Stop => (first.onDisplay es).countP (·.stop == stop.id)
    ∃ order, s.OrderInForce order ∧
      (∀ m ∈ first.onDisplay es, ∃ stop ∈ s.route.toList, m.stop = stop.id ∧ stop.status = .resolved) ∧
      (∀ place stop, s.route.toList[place]? = some stop → stop.status = .resolved →
        count stop = order.count place) ∧
      (order.Nodup → ∀ stop ∈ s.route.toList, stop.status = .resolved → count stop = 1) ∧
      (s.isReady = true → (∀ stop ∈ s.route.toList, count stop = 1) → order.Nodup) := by
  intro first s count
  have whole : s.route.WellFormed :=
    ((Reachable.start config historyAvailable clock).play es).settled.wellFormed
  have shown : first.onDisplay es = s.markers := play_onDisplay config historyAvailable clock es
  have force : s.OrderInForce s.markerOrder := orderInForce_iff.mpr rfl
  have counted (place : Nat) (stop : Stop) (hs : s.route.toList[place]? = some stop)
      (hr : stop.status = .resolved) : count stop = s.markerOrder.count place := by
    rw [whole.getElem?_toList] at hs
    change (first.onDisplay es).countP _ = _
    rw [shown]
    exact countP_markers whole hs hr
  refine ⟨s.markerOrder, force, ?_, counted, ?_, ?_⟩
  · intro m hm
    rw [shown] at hm
    obtain ⟨place, stop, _, hs, hr, same, _⟩ := (mem_markers_iff whole).mp hm
    exact ⟨stop, List.mem_of_getElem? hs, same, hr⟩
  · intro distinct stop hm hr
    obtain ⟨place, hs⟩ := List.mem_iff_getElem?.mp hm
    rw [counted place stop hs hr]
    apply force.count_eq_one distinct
    rw [whole.getElem?_toList] at hs
    exact Route.lt_of_at? hs
  · intro ready once
    apply force.nodup
    intro place inside
    obtain ⟨stop, hs⟩ := whole.exists_at? inside
    have listed := (whole.getElem?_toList place).trans hs
    have resolved := whole.isReady_iff.mp ready stop (whole.at?_some hs).1
    rw [← counted place stop listed resolved]
    exact Nat.le_of_eq (once stop (List.mem_of_getElem? listed))

/-- A path that names the origin twice has it marked twice, and the destination not at all. -/
example :
    let path : Path := {
      distance := 1, time := 0, ascend := 0, descend := 0, points := none, snapped := none,
      bounds := none, order := some [0, 0], details := [], legs := [], fare := none,
      description := none }
    let es : List Event := [.edit (.setInput 0 "50.7,7.1"), .edit (.setInput 1 "50.9,7"),
      .completeRequest 1 (.ok ⟨[path]⟩)]
    ((start {} false ⟨0, 0⟩).onDisplay es).map Marker.stop = [⟨1⟩, ⟨1⟩] := by
  decide +kernel

end Session
end Itinerary

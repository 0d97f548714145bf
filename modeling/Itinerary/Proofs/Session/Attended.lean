import Itinerary.Proofs.Coordinate
import Itinerary.Proofs.Session.Arrival
import Itinerary.Proofs.Session.Balance
import Itinerary.Proofs.Session.Steering

/-! No stop with a text is forgotten: a lookup of it is under way, or has ended. And no lookup is under
way twice. -/
namespace Itinerary

namespace Stop
variable {s : Stop}

/-- Something was done about the stop's text, if it has one. -/
def Attended (s : Stop) : Prop := s.isBlank = true ∨ s.status ≠ .unresolved

/-- A stop that needs no lookup is blank, or resolved, or being looked up. -/
theorem Sound.attended (h : s.Sound) (hn : ∀ l, s.resolve ≠ .issued l) : s.Attended := by
  by_cases literal : s.isLiteral = true
  · obtain ⟨c, hc⟩ := Option.isSome_iff_exists.mp literal
    right
    simp [(h.of_literal hc).status, Resolution.status]
  · by_cases blank : s.isBlank = true
    · exact .inl blank
    · right
      intro unresolved
      refine hn s.lookup ?_
      simp [resolve, literal, unresolved, blank]

/-- A stop that has been asked for is attended to. -/
private theorem Sound.asked_attended (h : s.Sound) : s.asked.Attended := by
  cases ho : s.resolve.lookup? with
  | none =>
    rw [asked_of_none ho]
    refine h.attended fun l issued => ?_
    rw [issued] at ho
    cases ho
  | some l =>
    rw [asked_of_some ho]
    exact .inr (by simp [markPending])

/-- A stop that is put to a place on the map needs no lookup. -/
theorem Sound.attended_of_literal (h : s.Sound) {c : Coordinate} (hi : s.input = c.literal)
    (hc : c.inRange = true) : s.Attended := by
  have read : Coordinate.parse? s.input = some c := by
    rw [hi]
    exact Coordinate.parse?_literal hc
  right
  simp [(h.of_literal read).status, Resolution.status]

private theorem resolveWith_attended (s : Stop) (result : LookupResult) :
    (s.resolveWith result).Attended := by
  right
  rcases result with cause | _ | ⟨top, others⟩ <;> simp [resolveWith, choose, fail]

end Stop

namespace Route
variable {r t : Route} {id : StopId}

def Attended (r : Route) : Prop := ∀ s ∈ r.stops, s.Attended

/-- All the stops are attended to but the one with this identity. -/
def AttendedBut (r : Route) (id : StopId) : Prop := ∀ s ∈ r.stops, s.id ≠ id → s.Attended

private theorem Attended.but (h : r.Attended) (id : StopId) : r.AttendedBut id := fun s hs _ => h s hs

private theorem blank_attended : blank.Attended := by
  intro s hs
  left
  rcases mem_blank.mp hs with rfl | rfl <;> rfl

private theorem AttendedBut.modify (h : r.AttendedBut id) (own : r.OwnKeys) {f : Stop → Stop}
    (hf : ∀ s ∈ r.stops, s.id = id → (f s).Attended) : (r.modify id f).Attended := by
  intro t ht
  obtain ⟨s, hs, rfl⟩ := own.mem_modify.mp ht
  by_cases he : s.id = id
  · rw [if_pos he]
    exact hf s hs he
  · rw [if_neg he]
    exact h s hs he

private theorem AttendedBut.retype (h : r.AttendedBut id) (own : r.OwnKeys) {f : Stop → Stop}
    (hf : ∀ s, (f s).id = s.id) : (r.modify id f).AttendedBut id := by
  intro t ht hn
  obtain ⟨s, hs, rfl⟩ := own.mem_modify.mp ht
  by_cases he : s.id = id
  · rw [if_pos he, hf] at hn
    exact absurd he hn
  · rw [if_neg he]
    exact h s hs he

/-- Resolving a stop attends to it and leaves the others. -/
private theorem WellFormed.resolve_attends (w : r.WellFormed) {outcome : ResolveOutcome}
    (hr : r.resolve id = .ok (outcome, t)) {s : Stop} (hs : s ∈ t.stops) :
    s.Attended ∨ (s ∈ r.stops ∧ s.id ≠ id) := by
  cases hf : r.find? id with
  | none =>
    rw [resolve_of_none hf] at hr
    cases hr
  | some own =>
    obtain ⟨hm, hid⟩ := w.find?_some hf
    rw [w.own_keys.resolve_of_find? hf] at hr
    cases ho : own.resolve.lookup? with
    | none =>
      rw [ho] at hr
      cases hr
      by_cases he : s.id = id
      · cases w.eq_of_id hs hm (he.trans hid.symm)
        refine .inl ((w.sound s hs).attended fun l issued => ?_)
        rw [issued] at ho
        cases ho
      · exact .inr ⟨hs, he⟩
    | some l =>
      rw [ho] at hr
      cases hr
      obtain ⟨s, before, rfl⟩ := w.mem_modify.mp hs
      by_cases he : s.id = id
      · rw [if_pos he]
        exact .inl (.inr (by simp [Stop.markPending]))
      · rw [if_neg he]
        exact .inr ⟨before, he⟩

/-- Asking for all stops attends to all of them. -/
theorem Asks.attended {ls : List Lookup} (h : Asks r ls t) (w : r.WellFormed) : t.Attended := by
  intro s hs
  obtain ⟨i, hi⟩ := h.wellFormed.exists_position hs
  rw [h.stops] at hi
  obtain ⟨u, hu, rfl⟩ := Option.map_eq_some_iff.mp hi
  exact (w.sound u (w.at?_some hu).1).asked_attended

private theorem AttendedBut.resolve (h : r.AttendedBut id) (w : r.WellFormed) {outcome : ResolveOutcome}
    (hr : r.resolve id = .ok (outcome, t)) : t.Attended := by
  intro s hs
  rcases w.resolve_attends hr hs with attended | ⟨hm, other⟩
  · exact attended
  · exact h s hm other

/-- A new stop is all there is to attend to. -/
private theorem Attended.inserted (h : r.Attended) (index : Nat) (text : String) :
    (r.inserted index text).AttendedBut ⟨r.nextNumber⟩ := by
  intro s hs hn
  rw [stops_inserted] at hs
  rcases List.mem_append.mp hs with hs | hs
  · exact h s hs
  · rw [List.mem_singleton.mp hs] at hn
    exact absurd rfl hn

private theorem move_stops {origin target : Nat} (h : r.move origin target = .ok t) : t.stops = r.stops := by
  obtain ⟨order, _, rfl⟩ := exists_perm_of_move h
  rfl

private theorem removeAt_stops (r : Route) (index : Nat) : (r.removeAt index).2.stops ⊆ r.stops := by
  rw [removeAt]
  repeat' split
  · exact List.Subset.refl _
  · exact List.Subset.refl _
  · exact (List.filter_sublist.map Prod.snd).subset
  · exact List.Subset.refl _

end Route

namespace Session
variable {s : Session}

/-- The places on the map that an edit puts stops to. -/
def Edit.pins : Edit → List Coordinate
  | .setStart c | .setEnd c | .setCoordinate _ c | .addIntermediate c | .dragMarker _ c => [c]
  | _ => []

def Event.pins : Event → List Coordinate
  | .edit x => x.pins
  | _ => []

theorem forgetId_snd (e : Edited StopId) : (forgetId e).2 = e.2 := by
  rcases e with ⟨_ | _, _⟩ <;> rfl

private theorem resolve_attended {id : StopId} {stop : Stop} (h : s.route.AttendedBut id)
    (w : s.route.WellFormed) (hf : s.route.find? id = some stop) :
    ∃ t, s.resolve id = (.ok (), t) ∧ t.route.Attended := by
  obtain ⟨route, hr, _⟩ := w.own_keys.resolve_changes hf
  rw [resolve]
  rw [hr]
  exact ⟨_, rfl, h.resolve w hr⟩

private theorem setCoordinate_attended (h : s.route.Attended) (w : s.route.WellFormed) {c : Coordinate}
    (hc : c.inRange = true) (index : Nat) : (s.setCoordinate index c).2.route.Attended := by
  rw [setCoordinate]
  cases hs : s.route.at? index with
  | none => exact h
  | some stop =>
    dsimp only
    rw [afterEdit_route, w.modifyAt_eq hs]
    exact (h.but stop.id).modify w.own_keys fun own _ _ => (own.setInput_sound _).attended_of_literal rfl hc

private theorem setInput_attended (h : s.route.Attended) (w : s.route.WellFormed) (index : Nat)
    (text : String) : (s.setInput index text).2.route.Attended := by
  rw [setInput]
  cases hs : s.route.at? index with
  | none => exact h
  | some stop =>
    dsimp only
    split
    · exact h
    · have typed : Route.Change s.route [] (s.route.modify stop.id (·.setInput text)) :=
        .retype stop.id (·.setInput text) fun _ => .inr ⟨text, rfl⟩
      have found : (s.route.modify stop.id (·.setInput text)).find? stop.id =
          some (stop.setInput text) := Route.find?_modify_self (w.at?_some hs).2 _
      have others : (s.route.modify stop.id (·.setInput text)).AttendedBut stop.id :=
        (h.but stop.id).retype w.own_keys fun _ => rfl
      rw [w.modifyAt_eq hs]
      obtain ⟨t, ht, attended⟩ := resolve_attended
        (s := { s with route := s.route.modify stop.id (·.setInput text) }) others (w.change typed) found
      rw [ht]
      dsimp only
      rw [afterEdit_route]
      exact attended

private theorem insertInput_attended (h : s.route.Attended) (w : s.route.WellFormed) (index : Nat)
    (text : String) : (s.insertInput index text).2.route.Attended := by
  rw [insertInput]
  rcases Nat.lt_or_ge s.route.length index with hi | hi
  · rw [Route.insertInput_of_lt hi]
    exact h
  · rw [Route.insertInput_of_le w hi]
    obtain ⟨t, ht, attended⟩ := resolve_attended (s := { s with route := s.route.inserted index text })
      (h.inserted index text) (w.inserted hi text) (w.find?_inserted hi text)
    dsimp only
    rw [ht]
    dsimp only
    rw [afterEdit_route]
    exact attended

private theorem addIntermediate_attended (h : s.route.Attended) (w : s.route.WellFormed) {c : Coordinate}
    (hc : c.inRange = true) : (s.addIntermediate c).2.route.Attended := by
  rw [addIntermediate, addClicked]
  generalize (s.indexOnPath c).getD (max (s.route.length - 1) 1) = index
  rcases Nat.lt_or_ge s.route.length index with hi | hi
  · rw [Route.insertInput_of_lt hi]
    exact h
  · rw [Route.insertInput_of_le w hi]
    dsimp only
    rw [afterEdit_route]
    intro stop hs
    rw [Route.stops_inserted] at hs
    rcases List.mem_append.mp hs with hs | hs
    · exact h stop hs
    · rw [List.mem_singleton.mp hs]
      exact (Stop.create_sound _ _).attended_of_literal rfl hc

private theorem moved_attended (h : s.route.Attended) {origin target : Nat} {route : Route}
    (hm : s.route.move origin target = .ok route) : { s with route }.afterEdit.route.Attended := by
  rw [afterEdit_route]
  change ∀ stop ∈ route.stops, stop.Attended
  rw [Route.move_stops hm]
  exact h

/-- An edit looks after the stops whose texts it changes. -/
private theorem edit_attended (h : s.route.Attended) (w : s.route.WellFormed) {x : Edit}
    (pins : ∀ c ∈ x.pins, c.inRange = true) : (s.edit x).2.route.Attended := by
  cases x with
  | setInput index text => exact setInput_attended h w index text
  | insertInput index text =>
    rw [edit, forgetId_snd]
    exact insertInput_attended h w index text
  | setStart c => exact setCoordinate_attended h w (pins c (List.mem_singleton_self c)) 0
  | setEnd c => exact setCoordinate_attended h w (pins c (List.mem_singleton_self c)) _
  | setCoordinate index c => exact setCoordinate_attended h w (pins c (List.mem_singleton_self c)) index
  | addIntermediate c =>
    rw [edit, forgetId_snd]
    exact addIntermediate_attended h w (pins c (List.mem_singleton_self c))
  | dragMarker id c =>
    rw [edit, dragMarker]
    split
    · dsimp only
      rw [afterEdit_route]
      have range := pins c (List.mem_singleton_self c)
      exact (h.but id).modify w.own_keys fun own _ _ => (own.setInput_sound _).attended_of_literal rfl range
    · exact h
  | moveToStart index =>
    rw [edit, moveToStart]
    cases hm : s.route.move index 0 with
    | error error => exact h
    | ok route => exact moved_attended h hm
  | moveToEnd index =>
    rw [edit, moveToEnd]
    cases hm : s.route.moveToEnd index with
    | error error => exact h
    | ok route => exact moved_attended h hm
  | moveStop origin target =>
    rw [edit, moveStop]
    split
    · exact h
    · cases hm : s.route.move origin target with
      | error error => exact h
      | ok route => exact moved_attended h hm
  | removeStop index =>
    have left := Route.removeAt_stops s.route index
    rw [edit, removeStop]
    cases hr : s.route.removeAt index with
    | mk outcome route =>
      rw [hr] at left
      cases outcome with
      | error error => exact fun stop hs => h stop (left hs)
      | ok stop =>
        dsimp only
        rw [afterEdit_route]
        exact fun stop hs => h stop (left hs)
  | setProfile profile =>
    change (resolveAll _).afterEdit.route.Attended
    rw [afterEdit_route]
    exact w.asks_all.attended w
  | setUnits units =>
    change (resolveAll _).afterEdit.route.Attended
    rw [afterEdit_route]
    exact w.asks_all.attended w
  | setOptions options =>
    change (afterEdit _).route.Attended
    rw [afterEdit_route]
    exact h
  | submit =>
    change (resolveAll _).afterEdit.route.Attended
    rw [afterEdit_route]
    exact w.asks_all.attended w

/-- A link looks after all its texts. -/
private theorem navigate_attended (w : s.route.WellFormed) (link : Link) :
    (s.navigate link).route.Attended := by
  obtain ⟨ls, asks, _⟩ := navigate_asks w link
  exact asks.attended (w.changes (Route.syncStops_changes w link.points))

private theorem attended_after (h : s.route.Attended) (w : s.route.WellFormed) {e : Event}
    (pins : ∀ c ∈ e.pins, c.inRange = true) : (s.after e).route.Attended := by
  cases turn w e with
  | kept _ hr _ _ _ _ _ _ _ =>
    rw [hr]
    exact h
  | stale l result he hw ha =>
    rw [ha]
    exact h
  | shown link he _ _ _ _ _ _ _ _ =>
    rw [after_of_asksFor he]
    exact navigate_attended w link
  | edited x he _ _ _ _ _ =>
    subst he
    exact edit_attended h w pins
  | navigated link he _ _ _ _ _ =>
    rw [after_of_asksFor he]
    exact navigate_attended w link
  | answered l result he hw focusOn es _ _ ha =>
    rw [ha, evaluate_route]
    exact (h.but l.stop).modify w.own_keys fun own _ _ => own.resolveWith_attended result

private theorem play_attended (config : SessionConfig) (historyAvailable : Bool) (clock : Instant)
    {es : List Event} (pins : ∀ e ∈ es, ∀ c ∈ e.pins, c.inRange = true) :
    ((start config historyAvailable clock).play es).route.Attended := by
  induction es using List.reverseRecOn with
  | nil => exact Route.blank_attended
  | append_singleton es e ih =>
    have settled := ((Reachable.start config historyAvailable clock).play es).settled
    rw [play_concat]
    refine attended_after (ih fun e he => pins e (List.mem_append_left _ he)) settled.wellFormed ?_
    exact pins e (List.mem_append_right _ (List.mem_singleton_self _))

/-- Of the lookups of a stop's present text, one is out while the stop is pending, and else none. -/
private theorem Balanced.outstanding {r : Route} {past done : List Lookup} (h : Balanced r past done)
    {stop : Stop} (hs : stop ∈ r.stops) :
    (past.diff done).filter (fun l => l.stop = stop.id ∧ l.revision = stop.revision) =
      if stop.status = .pending then [stop.lookup] else [] := by
  have own : (past.diff done).filter (fun l => l.stop = stop.id ∧ l.revision = stop.revision) =
      (past.diff done).filter (· == stop.lookup) := by
    refine List.filter_congr fun l hl => ?_
    rw [Bool.eq_iff_iff, decide_eq_true_iff, beq_iff_eq]
    constructor
    · rintro ⟨same, revision⟩
      rcases h.current l (List.diff_subset _ _ hl) stop hs same with own | older
      · exact own
      · exact absurd revision (Nat.ne_of_lt older)
    · rintro rfl
      exact ⟨rfl, rfl⟩
  rw [own, List.filter_beq, List.count_diff, h.balanced stop hs, Nat.add_sub_cancel_left]
  split <;> rfl

/-- In every run in which each lookup is answered once at most, and stops are put only to places on
the map: for a pending stop there is just one lookup whose answer is still out, and it asks for the
stop's present text; for any other stop there is none; and a stop with a text is pending, resolved or
failed. -/
theorem lookups_accounted (config : SessionConfig) (historyAvailable : Bool) (clock : Instant)
    (es : List Event) (once : (start config historyAvailable clock).AnswersOnce es)
    (pins : ∀ e ∈ es, ∀ c ∈ e.pins, c.inRange = true) :
    let first := start config historyAvailable clock
    let s := first.play es
    let out := (first.issued es).diff (answeredIn es)
    ∀ stop ∈ s.route.toList,
      (stop.status = .pending → out.filter (fun l => l.stop = stop.id ∧ l.revision = stop.revision) =
        [⟨stop.id, Text.trimmed stop.input, stop.revision⟩]) ∧
      (stop.status ≠ .pending → ∀ l ∈ out, ¬ (l.stop = stop.id ∧ l.revision = stop.revision)) ∧
      (stop.isBlank = false →
        stop.status = .pending ∨ stop.status = .resolved ∨ stop.status = .failed) := by
  intro first s out stop hs
  have settled := ((Reachable.start config historyAvailable clock).play es).settled
  have member : stop ∈ s.route.stops := settled.wellFormed.mem_toList.mp hs
  have outstanding := (play_balanced once).outstanding member
  refine ⟨?_, ?_, ?_⟩
  · intro pending
    rw [if_pos pending] at outstanding
    exact outstanding
  · intro settled l hl same
    rw [if_neg settled] at outstanding
    exact List.filter_eq_nil_iff.mp outstanding l hl (decide_eq_true same)
  · intro text
    rcases play_attended config historyAvailable clock pins stop member with blank | attended
    · rw [text] at blank
      cases blank
    · cases status : stop.status with
      | unresolved => exact absurd status attended
      | pending => exact .inl rfl
      | resolved => exact .inr (.inl rfl)
      | failed => exact .inr (.inr rfl)

/-- The first text is typed anew while it is looked up, the second stop is put to a place on the map,
and the answer for the first text comes. -/
def retypedAndPinned : List Event :=
  [.edit (.setInput 0 "Bon"), .edit (.setInput 0 " Bonn"), .edit (.setEnd ⟨50.9, 7⟩),
    .completeLookup ⟨⟨1⟩, "Bon", 1⟩ (.ok [])]

/-- The lookup of the present text is out, and none is for the place on the map. -/
theorem retypedAndPinned_accounted :
    let first := start {} false ⟨0, 0⟩
    let s := first.play retypedAndPinned
    let out := (first.issued retypedAndPinned).diff (answeredIn retypedAndPinned)
    first.AnswersOnce retypedAndPinned ∧
    (∀ e ∈ retypedAndPinned, ∀ c ∈ e.pins, c.inRange = true) ∧
    (∃ stop ∈ s.route.toList, stop.status = .pending ∧
      out.filter (fun l => l.stop = stop.id ∧ l.revision = stop.revision) =
        [⟨stop.id, Text.trimmed stop.input, stop.revision⟩]) ∧
    ∃ stop ∈ s.route.toList, stop.status = .resolved ∧
      ∀ l ∈ out, ¬ (l.stop = stop.id ∧ l.revision = stop.revision) := by
  intro first s out
  have once : first.AnswersOnce retypedAndPinned := by decide +kernel
  have pins : ∀ e ∈ retypedAndPinned, ∀ c ∈ e.pins, c.inRange = true := by decide +kernel
  have typed : ∃ stop ∈ s.route.toList, stop.status = .pending := by decide +kernel
  have pinned : ∃ stop ∈ s.route.toList, stop.status = .resolved := by decide +kernel
  have accounted := lookups_accounted {} false ⟨0, 0⟩ retypedAndPinned once pins
  obtain ⟨stop, hs, pending⟩ := typed
  obtain ⟨other, ho, resolved⟩ := pinned
  refine ⟨once, pins, ⟨stop, hs, pending, (accounted stop hs).1 pending⟩, other, ho, resolved, ?_⟩
  apply (accounted other ho).2.1
  rw [resolved]
  simp

end Session
end Itinerary

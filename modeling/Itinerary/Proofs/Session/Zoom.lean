import Itinerary.Proofs.Session.Readiness
import Mathlib.Data.List.Induction

/-! Whether the map follows a request. Whoever set that last since the request before decides it, and
the next request follows again. -/
namespace Itinerary

/-- Whether the map is to follow the request that a decision leads to, now or by way of the history. -/
def Action.zoom? : Action → Option Bool
  | .push link => some link.zoom
  | .dispatch d => some d.zoom
  | _ => none

namespace Dispatcher
variable (d : Dispatcher) (route : Route) (options : Options) (now : Instant)

/-- A request takes the zoom with it and leaves the map following; a refused one leaves the zoom. -/
private theorem evaluate_zoom (always : Bool) :
    ((d.evaluate route options now always).1.zoom? = none ∧
      (d.evaluate route options now always).2.zoom = d.zoom) ∨
    ((d.evaluate route options now always).1.zoom? = some d.zoom ∧
      (d.evaluate route options now always).2.zoom = true) := by
  cases d.evaluate_cases route options now always with
  | idle _ he | rejected _ _ _ he =>
    rw [he]
    exact .inl ⟨rfl, rfl⟩
  | pushed _ _ _ _ he | dispatched _ _ _ _ he =>
    rw [he]
    exact .inr ⟨rfl, rfl⟩

end Dispatcher

namespace Session

/-- What may happen to the zoom: somebody sets it, or it goes with a request. -/
inductive ZoomNote where
  | set (zoom : Bool)
  | sent (zoom : Bool)
deriving DecidableEq, Repr

namespace ZoomNote

/-- The zoom that the next request is due to have: as it was set last if that was since the request
before, and otherwise following. -/
def due (notes : List ZoomNote) : Bool :=
  match notes.getLast? with
  | some (.set zoom) => zoom
  | _ => true

private theorem due_set (notes : List ZoomNote) (zoom : Bool) : due (notes ++ [.set zoom]) = zoom := by
  rw [due, List.getLast?_concat]

private theorem due_sent (notes : List ZoomNote) (zoom : Bool) : due (notes ++ [.sent zoom]) = true := by
  rw [due, List.getLast?_concat]

/-- Every request had the zoom that was due. -/
def Obeyed (notes : List ZoomNote) : Prop :=
  ∀ before zoom later, notes = before ++ .sent zoom :: later → zoom = due before

private theorem obeyed_nil : Obeyed [] := by
  intro before zoom later h
  simp at h

/-- A row of notes that ends with one more is split before that one or at it. -/
private theorem Obeyed.concat {notes : List ZoomNote} (h : Obeyed notes) {note : ZoomNote}
    (hn : ∀ zoom, note = .sent zoom → zoom = due notes) : Obeyed (notes ++ [note]) := by
  intro before zoom later split
  rcases List.eq_nil_or_concat later with rfl | ⟨rest, last, rfl⟩
  · obtain ⟨rfl, same⟩ := List.append_inj' split rfl
    exact hn zoom (List.cons.inj same).1
  · rw [List.concat_eq_append, ← List.cons_append, ← List.append_assoc] at split
    exact h before zoom rest (List.append_inj' split rfl).1

end ZoomNote

/-- The zoom that an event sets: an edit on the map keeps the map where it is, and a link has its own. -/
def zoomSet (s : Session) (e : Event) : Option Bool :=
  match e with
  | .edit x =>
    match (s.edit x).1 with
    | .ok () => if x.keepsView then some false else none
    | .error _ => none
  | .navigate link => some link.zoom
  | .navigateText text => (Link.ofText text s.defaultProfile).toOption.map Link.zoom
  | _ => none

/-- The zooms of the requests that an event leads to. -/
def zoomsSent (s : Session) (e : Event) : List Bool := (s.actions e).filterMap Action.zoom?

/-- What an event does to the zoom; what it sets counts for its own request. -/
def zoomNotes (s : Session) (e : Event) : List ZoomNote :=
  (s.zoomSet e).toList.map .set ++ (s.zoomsSent e).map .sent

variable {s t : Session} {e : Event}

private theorem zoomSet_of_asksFor {link : Link} (h : s.asksFor link e) : s.zoomSet e = some link.zoom := by
  cases e with
  | navigate other =>
    cases h
    rfl
  | navigateText text =>
    rw [zoomSet]
    rw [show Link.ofText text s.defaultProfile = .ok link from h]
    rfl
  | _ => exact h.elim

private theorem zoomSet_of_carriesOut {x : Edit} (h : s.carriesOut x) :
    s.zoomSet (.edit x) = if x.keepsView then some false else none := by
  rw [zoomSet]
  rw [h.1]

/-- An edit on the map is never skipped, so that it sets nothing only if it is refused. -/
private theorem zoomSet_of_not_triggers (ht : ¬ s.triggers e) (ha : ∀ link, ¬ s.asksFor link e) :
    s.zoomSet e = none := by
  cases e with
  | edit x =>
    rw [zoomSet]
    split
    · rename_i ok
      refine if_neg fun keeps => ht ⟨ok, ?_⟩
      cases x <;> first | rfl | cases keeps
    · rfl
  | navigate link => exact absurd rfl (ha link)
  | navigateText text =>
    rw [zoomSet]
    cases hl : Link.ofText text s.defaultProfile with
    | ok link => exact absurd hl (ha link)
    | error error => rfl
  | _ => rfl

/-- An event sends the zoom that it finds or sets, after which the map follows again, or it sends none
and leaves it. -/
def SendsZoom (s : Session) (e : Event) (zoom : Bool) : Prop :=
  (s.zoomsSent e = [] ∧ (s.after e).dispatcher.zoom = zoom) ∨
    (s.zoomsSent e = [zoom] ∧ (s.after e).dispatcher.zoom = true)

private theorem sendsZoom_of_quiet (ha : s.actions e = []) :
    s.SendsZoom e (s.after e).dispatcher.zoom := by
  refine .inl ⟨?_, rfl⟩
  rw [zoomsSent, ha]
  rfl

private theorem sendsZoom_of_evaluate {always : Bool} (hq : Quiet s t) (ha : s.after e = t.evaluate always) :
    s.SendsZoom e t.dispatcher.zoom := by
  have sent : s.zoomsSent e =
      (t.dispatcher.evaluate t.route t.options t.clock always).1.zoom?.toList := by
    rw [zoomsSent, actions, ha, decided_evaluate hq]
    cases (t.dispatcher.evaluate t.route t.options t.clock always).1 <;> rfl
  rw [SendsZoom, sent, ha, evaluate_dispatcher]
  rcases t.dispatcher.evaluate_zoom t.route t.options t.clock always with ⟨none, same⟩ | ⟨some, fresh⟩
  · rw [none]
    exact .inl ⟨rfl, same⟩
  · rw [some]
    exact .inr ⟨rfl, fresh⟩

private theorem sendsZoom_of_asksFor (h : s.route.WellFormed) {link : Link} (he : s.asksFor link e) :
    s.SendsZoom e link.zoom := by
  rcases linked h he with ⟨_, t, hq, hz, _, ha⟩ | ⟨_, ha, hz, _⟩
  · rw [← hz]
    exact sendsZoom_of_evaluate hq ha
  · rw [← hz]
    exact sendsZoom_of_quiet ha

/-- What an event sets counts at once; if it sets nothing, the zoom is as it was. -/
theorem sendsZoom (h : s.route.WellFormed) (e : Event) :
    s.SendsZoom e ((s.zoomSet e).getD s.dispatcher.zoom) := by
  by_cases asked : ∃ link, s.asksFor link e
  · obtain ⟨link, he⟩ := asked
    rw [zoomSet_of_asksFor he]
    exact sendsZoom_of_asksFor h he
  have quiet : Quiet s s := .refl s
  have apart (link : Link) : ¬ s.asksFor link e := fun he => asked ⟨link, he⟩
  cases turn h e with
  | kept ht _ _ _ _ hd _ _ ha =>
    have same : (s.after e).dispatcher.zoom = s.dispatcher.zoom := by rw [hd]
    rw [zoomSet_of_not_triggers ht apart, Option.getD_none, ← same]
    exact sendsZoom_of_quiet ha
  | stale l result he hw ha =>
    have same : (s.after e).dispatcher.zoom = s.dispatcher.zoom := by rw [ha]
    have none : s.zoomSet e = none := by rw [he]; rfl
    rw [none, Option.getD_none, ← same]
    apply sendsZoom_of_quiet
    rw [actions, ha]
    exact decided_of_quiet quiet
  | shown link he => exact absurd he (apart link)
  | edited x he hx route ls hc ha =>
    have revised : Quiet s ((s.revised x route ls).withDirect false) := quiet
    have set : (s.zoomSet e).getD s.dispatcher.zoom = (!x.keepsView && s.dispatcher.zoom) := by
      rw [he, zoomSet_of_carriesOut hx]
      cases x.keepsView <;> rfl
    rw [set]
    exact sendsZoom_of_evaluate revised.refreshMarkers ha
  | navigated link he => exact absurd he (apart link)
  | answered l result he hw focusOn es hes ht ha =>
    have answered : Quiet s (s.answered l result) := quiet
    have none : s.zoomSet e = none := by rw [he]; rfl
    have sends := sendsZoom_of_evaluate (answered.shown focusOn hes).refreshMarkers ha
    rw [none]
    exact sends

/-- What a session has noted of the zoom so far is what counts for its next request. -/
structure ZoomNoted (s : Session) (notes : List ZoomNote) : Prop where
  obeyed : ZoomNote.Obeyed notes
  due : s.dispatcher.zoom = ZoomNote.due notes

private theorem ZoomNoted.after {notes : List ZoomNote} (h : s.ZoomNoted notes) (w : s.route.WellFormed)
    (e : Event) : (s.after e).ZoomNoted (notes ++ s.zoomNotes e) := by
  -- First what the event sets is noted, and then, if there is a request, that it went out.
  obtain ⟨obeyed, due⟩ : ZoomNote.Obeyed (notes ++ (s.zoomSet e).toList.map .set) ∧
      (s.zoomSet e).getD s.dispatcher.zoom = ZoomNote.due (notes ++ (s.zoomSet e).toList.map .set) := by
    cases s.zoomSet e with
    | none =>
      change ZoomNote.Obeyed (notes ++ []) ∧ _ = ZoomNote.due (notes ++ [])
      rw [List.append_nil]
      exact ⟨h.obeyed, h.due⟩
    | some zoom => exact ⟨h.obeyed.concat (by simp), (ZoomNote.due_set notes zoom).symm⟩
  rw [zoomNotes, ← List.append_assoc]
  rcases sendsZoom w e with ⟨none, same⟩ | ⟨sent, fresh⟩
  · rw [none, List.map_nil, List.append_nil]
    exact ⟨obeyed, same.trans due⟩
  · rw [sent, List.map_singleton]
    refine ⟨obeyed.concat fun zoom hz => ?_, fresh.trans (ZoomNote.due_sent _ _).symm⟩
    cases hz
    exact due

private theorem play_zoomNoted (config : SessionConfig) (historyAvailable : Bool) (clock : Instant)
    (es : List Event) : ((start config historyAvailable clock).play es).ZoomNoted
      (record zoomNotes (start config historyAvailable clock) es) := by
  induction es using List.reverseRecOn with
  | nil => exact ⟨ZoomNote.obeyed_nil, rfl⟩
  | append_singleton es e ih =>
    have reachable := (Reachable.start config historyAvailable clock).play es
    rw [record_concat, play_concat]
    exact ih.after reachable.settled.wellFormed e

/-- In every run each request, pushed or dispatched, has the zoom that was set last since the request
before, be it by its own event, and follows if none was set; and so will the next one. An event that
leads to no request, because the route is not ready or the request is refused, uses nothing up, and
answers that come too late and answers to requests leave the zoom alone altogether. -/
theorem zoom_counts_once (config : SessionConfig) (historyAvailable : Bool) (clock : Instant)
    (es : List Event) :
    let first := start config historyAvailable clock
    let s := first.play es
    let notes := record zoomNotes first es
    (∀ before zoom later, notes = before ++ .sent zoom :: later → zoom = ZoomNote.due before) ∧
    s.dispatcher.zoom = ZoomNote.due notes ∧
    (∀ e, (∀ a ∈ s.actions e, a.zoom? = none) →
      (s.after e).dispatcher.zoom = (s.zoomSet e).getD s.dispatcher.zoom) ∧
    (∀ l result, (s.completeLookup l result).1 = .stale → s.zoomNotes (.completeLookup l result) = []) ∧
    ∀ number result, s.zoomNotes (.completeRequest number result) = [] := by
  intro first s notes
  have settled : s.Settled := ((Reachable.start config historyAvailable clock).play es).settled
  have noted : s.ZoomNoted notes := play_zoomNoted config historyAvailable clock es
  have untouched {e : Event} (ht : ¬ s.triggers e) (unset : s.zoomSet e = none) : s.zoomNotes e = [] := by
    rw [zoomNotes, zoomsSent, unset, settled.actions_of_not_triggers ht]
    rfl
  refine ⟨noted.obeyed, noted.due, fun e none => ?_, fun l result stale => ?_, fun number result => ?_⟩
  · rcases sendsZoom settled.wellFormed e with ⟨_, same⟩ | ⟨sent, _⟩
    · exact same
    · rw [zoomsSent, List.filterMap_eq_nil_iff.mpr none] at sent
      cases sent
  · refine untouched ?_ rfl
    rintro ⟨status, applied⟩
    rw [stale] at applied
    cases applied
  · exact untouched id rfl

/-- A marker is dropped while the other stop is being looked up. The request that goes out once that one
is found leaves the map where it is, and the one after it does not. -/
example : record zoomNotes (start {} false ⟨0, 0⟩) [.edit (.setInput 0 "Bonn"),
    .edit (.dragMarker ⟨2⟩ ⟨50.5, 7⟩), .completeLookup ⟨⟨1⟩, "Bonn", 1⟩ (.ok [⟨50.7, 7.1, "Bonn"⟩]),
    .edit .submit] = [.set false, .sent false, .sent true] := by
  decide +kernel

end Session
end Itinerary

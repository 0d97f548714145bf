import Itinerary.Proofs.Session.Evaluation

/-! Every event of a session with a well-formed route is one of six kinds of turn. -/
namespace Itinerary.Session

/-- An event that asks for a link: given as such, or as its text. -/
def asksFor (s : Session) (link : Link) : Event → Prop
  | .navigate other => other = link
  | .navigateText text => Link.ofText text s.defaultProfile = .ok link
  | _ => False

/-- What an event does to the route, the lookups and the dispatcher. It leaves them alone, but for an
answer to a request being noted; it counts an answer that is too late; it shows a link with at most
one text; or it changes the route by an edit, by a link or by an answer, and then the route is
evaluated. -/
inductive Turn (s : Session) (e : Event) : Prop
  | kept (ht : ¬ s.triggers e) (hr : (s.after e).route = s.route)
      (ho : (s.after e).options = s.options) (hst : (s.after e).stats = s.stats)
      (hf : (s.after e).focusOn = s.focusOn)
      (hd : (s.after e).dispatcher = { s.dispatcher with
        appliedNumber := (s.accepted e).getLast?.or s.dispatcher.appliedNumber })
      (hl : s.newLookups e = []) (hq : s.newRequests e = []) (ha : s.actions e = [])
  | stale (l : Lookup) (result : LookupResult) (he : e = .completeLookup l result)
      (hw : s.route.awaits l = false)
      (ha : s.after e = { s with stats := { s.stats with discarded := s.stats.discarded + 1 } })
  | shown (link : Link) (he : s.asksFor link e) (hn : link.nonBlankPoints ≤ 1) (route : Route)
      (ls : List Lookup) (focusOn : Option StopId) (es : List Effect)
      (hc : Route.Changes s.route ls route) (hes : Silent es)
      (ha : s.after e = ((s.arrived link route ls).shown focusOn es).observe.refreshMarkers)
  | edited (x : Edit) (he : e = .edit x) (hx : s.carriesOut x) (route : Route) (ls : List Lookup)
      (hc : Route.Changes s.route ls route)
      (ha : s.after e = ((s.revised x route ls).refreshMarkers.withDirect false).evaluate true)
  | navigated (link : Link) (he : s.asksFor link e) (hn : 2 ≤ link.nonBlankPoints) (route : Route)
      (ls : List Lookup) (hc : Route.Changes s.route ls route)
      (ha : s.after e = ((s.arrived link route ls).refreshMarkers.withDirect true).evaluate true)
  | answered (l : Lookup) (result : LookupResult) (he : e = .completeLookup l result)
      (hw : s.route.awaits l = true) (focusOn : Option StopId) (es : List Effect) (hes : Silent es)
      (ht : s.triggers e)
      (ha : s.after e = (((s.answered l result).shown focusOn es).refreshMarkers).evaluate false)

variable {s : Session}

theorem after_of_asksFor {e : Event} {link : Link} (h : s.asksFor link e) : s.after e = s.navigate link := by
  cases e with
  | navigate other =>
    cases h
    rfl
  | navigateText text =>
    rw [after, navigateText]
    rw [show Link.ofText text s.defaultProfile = .ok link from h]
  | _ => exact h.elim

/-- A link sets the zoom. One with two or more texts leads to an evaluation that passes the history by,
and any other to nothing. -/
theorem linked (h : s.route.WellFormed) {e : Event} {link : Link} (he : s.asksFor link e) :
    (2 ≤ link.nonBlankPoints ∧ ∃ t, Quiet s t ∧ t.dispatcher.zoom = link.zoom ∧
      t.dispatcher.direct = true ∧ s.after e = t.evaluate true) ∨
    (link.nonBlankPoints ≤ 1 ∧ s.actions e = [] ∧ (s.after e).dispatcher.zoom = link.zoom ∧
      (s.after e).dispatcher.direct = false) := by
  have quiet : Quiet s s := .refl s
  rw [actions, after_of_asksFor he]
  rcases Nat.lt_or_ge 1 link.nonBlankPoints with hn | hn
  · obtain ⟨route, ls, _, hl⟩ := navigate_many h hn
    have arrived : Quiet s ((s.arrived link route ls).withDirect true) := quiet
    exact .inl ⟨hn, _, arrived.refreshMarkers, rfl, rfl, hl⟩
  · obtain ⟨route, ls, focusOn, es, _, hes, hl⟩ := navigate_few h hn
    have arrived : Quiet s (s.arrived link route ls) := quiet
    have observed : Quiet s ((s.arrived link route ls).shown focusOn es).observe :=
      arrived.shown focusOn hes
    rw [hl]
    exact .inr ⟨hn, decided_of_quiet observed.refreshMarkers, rfl, rfl⟩

/-- The session is as before but for what is on display, the clock and what is in flight. -/
private theorem turn_of_same {e : Event} (ht : ¬ s.triggers e)
    (h : ∃ response selected clock inFlight es, Silent es ∧ s.after e = { s with
      dispatcher := { s.dispatcher with
        appliedNumber := (s.accepted e).getLast?.or s.dispatcher.appliedNumber }
      clock, response, selected, inFlight, outbox := s.outbox ++ es }) : Turn s e := by
  obtain ⟨response, selected, clock, inFlight, es, hes, he⟩ := h
  have quiet : Quiet s (s.after e) := by
    rw [he]
    exact ⟨rfl, es, hes, rfl⟩
  have noLookups : s.newLookups e = [] := by
    rw [newLookups, he]
    exact List.drop_length
  have noRequests : s.newRequests e = [] := by
    rw [newRequests, he]
    exact List.drop_length
  refine .kept ht ?_ ?_ ?_ ?_ ?_ noLookups noRequests (decided_of_quiet quiet)
  all_goals rw [he]

private theorem turn_of_eq {e : Event} (ht : ¬ s.triggers e) (hn : s.accepted e = [])
    (he : s.after e = s) : Turn s e := by
  refine turn_of_same ht ⟨s.response, s.selected, s.clock, s.inFlight, [], rfl, ?_⟩
  rw [he, hn, List.append_nil]
  rfl

private theorem turn_edit (h : s.route.WellFormed) (x : Edit) : Turn s (.edit x) := by
  cases edit_cases h x with
  | refused error he =>
    refine turn_of_eq (fun ht => ?_) rfl (congrArg Prod.snd he)
    have ok := ht.1
    rw [he] at ok
    cases ok
  | skipped hs he =>
    refine turn_of_eq (fun ht => ?_) rfl (congrArg Prod.snd he)
    have acts := ht.2
    rw [hs] at acts
    cases acts
  | done hs route ls hc he =>
    exact .edited x rfl ⟨congrArg Prod.fst he, hs⟩ route ls hc ((congrArg Prod.snd he).trans (afterEdit_eq _))

private theorem turn_link (h : s.route.WellFormed) {e : Event} {link : Link} (he : s.asksFor link e)
    (ha : s.after e = s.navigate link) : Turn s e := by
  rcases Nat.lt_or_ge 1 link.nonBlankPoints with hn | hn
  · obtain ⟨route, ls, hc, hl⟩ := navigate_many h hn
    exact .navigated link he hn route ls hc (ha.trans hl)
  · obtain ⟨route, ls, focusOn, es, hc, hes, hl⟩ := navigate_few h hn
    exact .shown link he hn route ls focusOn es hc hes (ha.trans hl)

private theorem turn_completeLookup (s : Session) (l : Lookup) (result : LookupResult) :
    Turn s (.completeLookup l result) := by
  cases hw : s.route.awaits l with
  | false => exact .stale l result rfl hw (congrArg Prod.snd (completeLookup_stale hw result))
  | true =>
    obtain ⟨status, focusOn, es, hes, he⟩ := completeLookup_applied hw result
    exact .answered l result rfl hw focusOn es hes ⟨status, congrArg Prod.fst he⟩
      (congrArg Prod.snd he)

private theorem turn_completeRequest (s : Session) (number : Nat) (result : RoutingResult) :
    Turn s (.completeRequest number result) := by
  refine turn_of_same id ?_
  by_cases ha : s.accepts number
  · obtain ⟨es, hes, he⟩ := completeRequest_accepted ha result
    have told : Silent [.ofResult (s.zoomOf number) result] := by cases result <;> rfl
    refine ⟨result.toOption.or s.response, result.toOption.elim s.selected fun _ => 0, s.clock,
      (s.inFlight.filter (·.1 != number)).filter (number < ·.1), _, told.append hes.silent, ?_⟩
    simp only [after, accepted, he, if_true]
    rfl
  · have he := completeRequest_refused ha result
    refine ⟨s.response, s.selected, s.clock, s.inFlight.filter (·.1 != number), [], rfl, ?_⟩
    simp only [after, accepted, he, List.append_nil]
    rfl

theorem turn (h : s.route.WellFormed) (e : Event) : Turn s e := by
  cases e with
  | edit x => exact turn_edit h x
  | selectAlternative index =>
    obtain ⟨selected, es, hes, he⟩ := selectAlternative_cases s index
    exact turn_of_same id ⟨s.response, selected, s.clock, s.inFlight, es, hes, he⟩
  | navigate link =>
    have asked : s.asksFor link (.navigate link) := rfl
    exact turn_link h asked rfl
  | navigateText text =>
    rcases navigateText_cases s text with ⟨error, he⟩ | ⟨link, hl, he⟩
    · refine turn_of_eq ?_ rfl (congrArg Prod.snd he)
      rintro ⟨link, hl, _⟩
      unfold navigateText at he
      rw [hl] at he
      cases he
    · exact turn_link h hl (congrArg Prod.snd he)
  | takeLookups =>
    refine .kept id rfl rfl rfl rfl rfl List.drop_nil List.drop_length ?_
    exact decided_of_quiet (.refl s)
  | takeRequests =>
    refine .kept id rfl rfl rfl rfl rfl List.drop_length List.drop_nil ?_
    change (s.outbox.drop _).filterMap decision? ++ ([].drop _).map _ = _
    simp
  | completeLookup l result => exact turn_completeLookup s l result
  | completeRequest number result => exact turn_completeRequest s number result
  | setClock now =>
    refine turn_of_same id ⟨s.response, s.selected, now, s.inFlight, [], rfl, ?_⟩
    rw [List.append_nil]
    rfl
  | collect =>
    refine .kept id rfl rfl rfl rfl rfl List.drop_length List.drop_length ?_
    change ([].drop _).filterMap decision? ++ (s.requests.drop _).map _ = _
    simp
  | geocode queries =>
    refine turn_of_same id ⟨s.response, s.selected, s.clock, s.inFlight, queries.map .geocode, ?_, rfl⟩
    simp [Silent, decision?]
  | findRoute payload =>
    exact turn_of_same id ⟨s.response, s.selected, s.clock, s.inFlight, [.findRoute payload], rfl, rfl⟩

end Itinerary.Session

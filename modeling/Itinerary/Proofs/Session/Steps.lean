import Itinerary.Proofs.Route.Operations
import Itinerary.Proofs.Session.Event

/-! What each event does to a session, said once and completely. -/
namespace Itinerary

/-- The display is told how a request was answered. -/
def Effect.isAnswer : Effect → Bool
  | .showPaths _ _ _ | .showFailure _ => true
  | _ => false

/-- How an answer is displayed. -/
def Effect.ofResult (zoom : Bool) : RoutingResult → Effect
  | .ok response => .showPaths response.paths 0 zoom
  | .error failure => .showFailure failure

namespace Session

/-- The session after a change of its route that issued these lookups. -/
def issue (s : Session) (route : Route) (ls : List Lookup) : Session :=
  { s with
    route
    stats := { s.stats with issued := s.stats.issued + ls.length }
    lookups := s.lookups ++ ls }

def withDirect (s : Session) (direct : Bool) : Session :=
  { s with dispatcher := { s.dispatcher with direct } }

/-- The dispatcher looks at the route, and what it decides is carried out. -/
def evaluate (s : Session) (always : Bool) : Session :=
  let (action, dispatcher) := s.dispatcher.evaluate s.route s.options s.clock always
  { s with dispatcher }.perform action

/-- The session after it has shown something, and may have given up what it was to focus on. -/
def shown (s : Session) (focusOn : Option StopId) (effects : List Effect) : Session :=
  { s with focusOn, outbox := s.outbox ++ effects }

/-- None of these effects tells of a decision. -/
def Silent (effects : List Effect) : Prop := effects.filterMap decision? = []

theorem Silent.append {es fs : List Effect} (he : Silent es) (hf : Silent fs) : Silent (es ++ fs) := by
  rw [Silent, List.filterMap_append, he, hf]
  rfl

/-- None of these effects tells of a decision, nor of an answer. -/
def Aside (effects : List Effect) : Prop := ∀ e ∈ effects, decision? e = none ∧ e.isAnswer = false

namespace Aside
variable {es fs : List Effect}

private theorem nil : Aside [] := fun _ he => absurd he List.not_mem_nil

private theorem append (he : Aside es) (hf : Aside fs) : Aside (es ++ fs) := by
  intro e mem
  exact (List.mem_append.mp mem).elim (he e) (hf e)

theorem silent (h : Aside es) : Silent es := List.filterMap_eq_nil_iff.mpr fun e he => (h e he).1

theorem filter_isAnswer (h : Aside es) : es.filter Effect.isAnswer = [] := by
  rw [List.filter_eq_nil_iff]
  intro e he
  rw [(h e he).2]
  exact Bool.false_ne_true

end Aside

/-- Placing the markers again is only shown. -/
theorem refreshMarkers_eq (s : Session) :
    ∃ es, Aside es ∧ s.refreshMarkers = { s with outbox := s.outbox ++ es } := by
  refine ⟨.clearMarkers :: s.markers.map .placeMarker, ?_, rfl⟩
  intro e he
  rcases List.mem_cons.mp he with rfl | he
  · exact ⟨rfl, rfl⟩
  · obtain ⟨m, _, rfl⟩ := List.mem_map.mp he
    exact ⟨rfl, rfl⟩

theorem afterEdit_eq (s : Session) :
    s.afterEdit = (s.refreshMarkers.withDirect false).evaluate true := rfl

private theorem countIssued_eq (t : LookupStats) (outcome : ResolveOutcome) :
    t.countIssued outcome = { t with issued := t.issued + outcome.lookup?.toList.length } := by
  cases outcome <;> rfl

theorem foldl_countIssued (outcomes : List ResolveOutcome) (t : LookupStats) :
    outcomes.foldl LookupStats.countIssued t =
      { t with issued := t.issued + (outcomes.filterMap ResolveOutcome.lookup?).length } := by
  induction outcomes generalizing t with
  | nil => rfl
  | cons outcome outcomes ih =>
    rw [List.foldl_cons, ih, countIssued_eq, List.filterMap_cons]
    cases outcome.lookup? with
    | none => rfl
    | some l =>
      simp only [Option.toList_some, List.length_cons, List.length_nil]
      congr 1
      omega

variable {s : Session}

theorem resolve_eq_issue (h : s.route.WellFormed) {id : StopId} {stop : Stop}
    (hs : s.route.find? id = some stop) :
    ∃ route ls, Route.Changes s.route ls route ∧ s.resolve id = (.ok (), s.issue route ls) := by
  obtain ⟨route, hr, hc⟩ := h.own_keys.resolve_changes hs
  refine ⟨route, _, hc, ?_⟩
  rw [resolve]
  rw [hr]
  simp only [countIssued_eq, issue]

theorem resolveAll_eq_issue (h : s.route.WellFormed) :
    ∃ route ls, Route.Changes s.route ls route ∧ s.resolveAll = s.issue route ls := by
  refine ⟨_, _, h.resolveAll_changes, ?_⟩
  rw [resolveAll]
  simp only [foldl_countIssued, issue]

theorem tryFocus_eq_shown (s : Session) :
    ∃ focusOn es, Silent es ∧ s.tryFocus = s.shown focusOn es := by
  have given (focusOn : Option StopId) : { s with focusOn } = s.shown focusOn [] := by
    simp only [shown, List.append_nil]
  rw [tryFocus]
  split
  · exact ⟨s.focusOn, [], rfl, by rw [← given]⟩
  · split
    · exact ⟨none, [], rfl, given none⟩
    · split
      · exact ⟨none, [.focus _], rfl, rfl⟩
      · exact ⟨s.focusOn, [], rfl, by rw [← given]⟩
      · exact ⟨none, [], rfl, given none⟩

theorem reportFailure_eq_shown (s : Session) (id : StopId) :
    ∃ es, Silent es ∧ s.reportFailure id = s.shown s.focusOn es := by
  rw [reportFailure]
  split
  · exact ⟨[.showLookupFailure _ _], rfl, rfl⟩
  · exact ⟨[], rfl, by simp only [shown, List.append_nil]⟩

/-- The session at a link, its lookups issued, before it is looked at what follows. -/
def arrived (s : Session) (link : Link) (route : Route) (ls : List Lookup) : Session :=
  { s.issue route ls with
    options := link.options
    dispatcher := s.dispatcher.setZoom link.zoom
    focusOn := none }

def observe (s : Session) : Session := { s with dispatcher := s.dispatcher.observe s.route }

private theorem focusSingle_cases (h : s.route.WellFormed) (points : List String) :
    ∃ route ls focusOn es, Route.Changes s.route ls route ∧ Silent es ∧
      s.focusSingle points = (s.issue route ls).shown focusOn es := by
  unfold focusSingle
  dsimp only
  split
  · refine ⟨s.route, [], s.focusOn, [], .refl _, rfl, ?_⟩
    simp only [issue, shown, List.append_nil, List.length_nil, Nat.add_zero]
  · rename_i id hid
    obtain ⟨hlt, hget⟩ := List.getElem?_eq_some_iff.mp hid
    obtain ⟨stop, _, hf, _⟩ := h.find?_of_mem_order (hget ▸ List.getElem_mem hlt)
    obtain ⟨route, ls, hc, hr⟩ := resolve_eq_issue (s := { s with focusOn := some id }) h hf
    rw [hr]
    obtain ⟨focusOn, es, hes, ht⟩ := tryFocus_eq_shown (issue { s with focusOn := some id } route ls)
    exact ⟨route, ls, focusOn, es, hc, hes, ht⟩

/-- The session with the texts of a link, before any of them is looked up. -/
def mirrored (s : Session) (link : Link) : Session :=
  { s with
    options := link.options
    dispatcher := s.dispatcher.setZoom link.zoom
    focusOn := none
    route := syncStops s.route link.points }

theorem navigate_none {link : Link} (none : link.nonBlankPoints = 0) :
    s.navigate link = (s.mirrored link).observe.refreshMarkers := by
  rw [navigate]
  simp only [none]
  rfl

theorem navigate_one {link : Link} (one : link.nonBlankPoints = 1) :
    s.navigate link = ((s.mirrored link).focusSingle link.points).observe.refreshMarkers := by
  rw [navigate]
  simp only [one]
  rfl

theorem navigate_two {link : Link} (two : 2 ≤ link.nonBlankPoints) : s.navigate link =
    ((s.mirrored link).resolveAll.refreshMarkers.withDirect true).evaluate true := by
  rw [navigate]
  dsimp only
  split
  · omega
  · omega
  · rfl

/-- A link with at most one text only shows it. -/
theorem navigate_few (h : s.route.WellFormed) {link : Link} (hn : link.nonBlankPoints ≤ 1) :
    ∃ route ls focusOn es, Route.Changes s.route ls route ∧ Silent es ∧
      s.navigate link = ((s.arrived link route ls).shown focusOn es).observe.refreshMarkers := by
  have synced := Route.syncStops_changes h link.points
  rcases Nat.le_one_iff_eq_zero_or_eq_one.mp hn with hz | ho
  · refine ⟨_, [], none, [], synced, rfl, ?_⟩
    rw [navigate_none hz]
    simp only [mirrored, arrived, issue, shown, List.append_nil, List.length_nil, Nat.add_zero]
  · obtain ⟨route, ls, focusOn, es, hc, hes, hf⟩ :=
      focusSingle_cases (s := s.mirrored link) (h.changes synced) link.points
    refine ⟨route, ls, focusOn, es, synced.trans hc, hes, ?_⟩
    rw [navigate_one ho, hf]
    rfl

/-- A link with two or more texts is resolved and evaluated. -/
theorem navigate_many (h : s.route.WellFormed) {link : Link} (hn : 2 ≤ link.nonBlankPoints) :
    ∃ route ls, Route.Changes s.route ls route ∧
      s.navigate link = ((s.arrived link route ls).refreshMarkers.withDirect true).evaluate true := by
  have synced := Route.syncStops_changes h link.points
  obtain ⟨route, ls, hc, hr⟩ := resolveAll_eq_issue (s := s.mirrored link) (h.changes synced)
  refine ⟨route, ls, synced.trans hc, ?_⟩
  rw [navigate_two hn, hr]
  rfl

theorem navigateText_cases (s : Session) (text : String) :
    (∃ error, s.navigateText text = (.error error, s)) ∨
      ∃ link, Link.ofText text s.defaultProfile = .ok link ∧
        s.navigateText text = (.ok (), s.navigate link) := by
  rw [navigateText]
  cases Link.ofText text s.defaultProfile with
  | error error => exact .inl ⟨error, rfl⟩
  | ok link => exact .inr ⟨link, rfl, rfl⟩

/-- The session with the answer in its route. -/
def answered (s : Session) (l : Lookup) (result : LookupResult) : Session :=
  { s with
    route := s.route.modify l.stop (·.resolveWith result)
    stats := { s.stats with applied := s.stats.applied + 1 } }

/-- An answer that comes too late is counted, and that is all. -/
theorem completeLookup_stale {l : Lookup} (h : s.route.awaits l = false) (result : LookupResult) :
    s.completeLookup l result =
      (.stale, { s with stats := { s.stats with discarded := s.stats.discarded + 1 } }) := by
  rw [completeLookup]
  rw [Route.complete_of_not_awaits h]
  rfl

theorem completeLookup_applied {l : Lookup} (h : s.route.awaits l = true) (result : LookupResult) :
    ∃ status focusOn es, Silent es ∧ s.completeLookup l result = (.applied status,
      (((s.answered l result).shown focusOn es).refreshMarkers).evaluate false) := by
  obtain ⟨status, hc⟩ := Route.complete_of_awaits h result
  rw [completeLookup]
  rw [hc]
  dsimp only
  split
  · obtain ⟨es, hes, hr⟩ := reportFailure_eq_shown (s.answered l result) l.stop
    obtain ⟨focusOn, fs, hfs, hf⟩ := tryFocus_eq_shown ((s.answered l result).shown s.focusOn es)
    refine ⟨status, focusOn, es ++ fs, hes.append hfs, ?_⟩
    have said : ((s.answered l result).shown s.focusOn es).shown focusOn fs =
        (s.answered l result).shown focusOn (es ++ fs) := by
      simp only [shown, List.append_assoc]
    rw [← said, ← hf]
    exact congrArg (fun t => (Completion.applied status, (t.tryFocus.refreshMarkers).evaluate false)) hr
  · obtain ⟨focusOn, fs, hfs, hf⟩ := tryFocus_eq_shown (s.answered l result)
    refine ⟨status, focusOn, fs, hfs, ?_⟩
    rw [← hf]
    rfl

theorem showDetails_eq (s : Session) (response : Response) :
    ∃ es, Aside es ∧ s.showDetails response = { s with outbox := s.outbox ++ es } := by
  rw [showDetails]
  split
  · exact ⟨[], .nil, by rw [List.append_nil]⟩
  · split
    · exact ⟨[.showDetails _], fun e he => List.mem_singleton.mp he ▸ ⟨rfl, rfl⟩, rfl⟩
    · exact ⟨[], .nil, by rw [List.append_nil]⟩

/-- Of all that displaying a response shows, only its paths are an answer. -/
private theorem display_eq (s : Session) (response : Response) (zoom : Bool) :
    ∃ es, Aside es ∧ s.display response zoom = { s with
      response := some response
      selected := 0
      outbox := s.outbox ++ .showPaths response.paths 0 zoom :: es } := by
  have detailed (t : Session) : ∃ es, Aside es ∧
      (if t.options.debug then t.showDetails response else t) = { t with outbox := t.outbox ++ es } := by
    split
    · exact showDetails_eq t response
    · exact ⟨[], .nil, by rw [List.append_nil]⟩
  obtain ⟨es, hes, hd⟩ := detailed ({ s with selected := 0 }.emit [.showPaths response.paths 0 zoom])
  obtain ⟨ms, hms, hm⟩ := refreshMarkers_eq { s with
    response := some response
    selected := 0
    outbox := s.outbox ++ [.showPaths response.paths 0 zoom] ++ es }
  refine ⟨es ++ ms, hes.append hms, ?_⟩
  unfold display
  dsimp only
  rw [hd]
  refine hm.trans ?_
  simp only [List.append_assoc, List.cons_append, List.nil_append]

/-- The answer to a request counts if the request is the newest and has not been answered. -/
def accepts (s : Session) (number : Nat) : Prop :=
  number = s.dispatcher.lastNumber ∧ s.dispatcher.appliedNumber ≠ some number

/-- An answer that does not count is only no longer waited for. -/
theorem completeRequest_refused {number : Nat} (h : ¬ s.accepts number) (result : RoutingResult) :
    s.completeRequest number result =
      (false, { s with inFlight := s.inFlight.filter (·.1 != number) }) := by
  have refused : s.dispatcher.accept number = (false, s.dispatcher) := by
    rw [Dispatcher.accept]
    exact if_neg h
  simp only [completeRequest, refused]

/-- Whether the map is to follow the request with this number. -/
def zoomOf (s : Session) (number : Nat) : Bool :=
  ((s.inFlight.find? (·.1 == number)).map Prod.snd).getD true

/-- The answer to this request counts, and only newer ones are waited for. -/
def settle (s : Session) (number : Nat) : Session :=
  { s with
    dispatcher := { s.dispatcher with appliedNumber := some number }
    inFlight := (s.inFlight.filter (·.1 != number)).filter (number < ·.1) }

def present (s : Session) (result : RoutingResult) (zoom : Bool) : Session :=
  match result with
  | .ok response => s.display response zoom
  | .error failure => s.emit [.showFailure failure]

theorem completeRequest_eq_present {number : Nat} (h : s.accepts number) (result : RoutingResult) :
    s.completeRequest number result = (true, (s.settle number).present result (s.zoomOf number)) := by
  have accepted : s.dispatcher.accept number =
      (true, { s.dispatcher with appliedNumber := some number }) := by
    rw [Dispatcher.accept]
    exact if_pos h
  simp only [completeRequest, accepted]
  cases result <;> rfl

/-- An answer that counts is displayed; if it is a response, it becomes the displayed one. -/
theorem completeRequest_accepted {number : Nat} (h : s.accepts number) (result : RoutingResult) :
    ∃ es, Aside es ∧ s.completeRequest number result = (true, { s with
      dispatcher := { s.dispatcher with appliedNumber := some number }
      inFlight := (s.inFlight.filter (·.1 != number)).filter (number < ·.1)
      response := result.toOption.or s.response
      selected := result.toOption.elim s.selected fun _ => 0
      outbox := s.outbox ++ Effect.ofResult (s.zoomOf number) result :: es }) := by
  rw [completeRequest_eq_present h]
  cases result with
  | ok response =>
    obtain ⟨es, hes, hd⟩ := display_eq (s.settle number) response (s.zoomOf number)
    exact ⟨es, hes, congrArg (Prod.mk true) hd⟩
  | error failure => exact ⟨[], .nil, rfl⟩

theorem selectAlternative_cases (s : Session) (index : Nat) :
    ∃ selected es, Silent es ∧
      (s.selectAlternative index).2 = { s with selected, outbox := s.outbox ++ es } := by
  unfold selectAlternative
  dsimp only
  split
  · exact ⟨s.selected, [], rfl, by simp only [List.append_nil]⟩
  · obtain ⟨ms, hms, hm⟩ := refreshMarkers_eq ({ s with selected := index }.emit [.highlight index])
    have highlighted : Silent [.highlight index] := rfl
    refine ⟨index, [.highlight index] ++ ms, highlighted.append hms.silent, ?_⟩
    rw [hm]
    simp only [emit, List.append_assoc]

end Session
end Itinerary

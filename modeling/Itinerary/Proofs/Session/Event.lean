import Itinerary.Session.Edit
import Itinerary.Session.Navigation
import Itinerary.Session.Run

/-! Runs of a session: what may happen to it, one event after the other, and what an observer notes
down on the way. -/
namespace Itinerary.Session

/-- What the user can do to the route and the options. -/
inductive Edit where
  | setInput (index : Nat) (text : String)
  | insertInput (index : Nat) (text : String)
  | setStart (c : Coordinate)
  | setEnd (c : Coordinate)
  | setCoordinate (index : Nat) (c : Coordinate)
  | addIntermediate (c : Coordinate)
  | dragMarker (id : StopId) (c : Coordinate)
  | moveToStart (index : Nat)
  | moveToEnd (index : Nat)
  | moveStop (origin target : Nat)
  | removeStop (index : Nat)
  | setProfile (profile : Profile)
  | setUnits (units : UnitSystem)
  | setOptions (options : Options)
  | submit

/-- The same outcome, whichever stop the edit made. -/
def forgetId : Edited StopId → Edited Unit
  | (.ok _, s) => (.ok (), s)
  | (.error e, s) => (.error e, s)

def edit (s : Session) : Edit → Edited Unit
  | .setInput index text => s.setInput index text
  | .insertInput index text => forgetId (s.insertInput index text)
  | .setStart c => s.setStart c
  | .setEnd c => s.setEnd c
  | .setCoordinate index c => s.setCoordinate index c
  | .addIntermediate c => forgetId (s.addIntermediate c)
  | .dragMarker id c => s.dragMarker id c
  | .moveToStart index => s.moveToStart index
  | .moveToEnd index => s.moveToEnd index
  | .moveStop origin target => s.moveStop origin target
  | .removeStop index => s.removeStop index
  | .setProfile profile => (.ok (), s.setProfile profile)
  | .setUnits units => (.ok (), s.setUnits units)
  | .setOptions options => (.ok (), s.setOptions options)
  | .submit => (.ok (), s.submit)

/-- The edit is over before it begins: the stop keeps the text, or is moved to its own place. -/
def skips (s : Session) : Edit → Bool
  | .setInput index text => (s.route.at? index).any (·.keepsInput text)
  | .moveStop origin target => origin == target
  | _ => false

/-- The edit goes through, and is more than nothing. -/
def carriesOut (s : Session) (e : Edit) : Prop := (s.edit e).1 = .ok () ∧ s.skips e = false

/-- Whatever a session may be told, by the user, by the history, by those who answer it and by those
who collect from it; the clock goes on; and a session that runs asks its services itself. -/
inductive Event where
  | edit (e : Edit)
  | selectAlternative (index : Nat)
  | navigate (link : Link)
  | navigateText (text : String)
  | takeLookups
  | takeRequests
  | completeLookup (l : Lookup) (result : LookupResult)
  | completeRequest (number : Nat) (result : RoutingResult)
  | setClock (now : Instant)
  | collect
  | geocode (queries : List String)
  | findRoute (payload : Payload)

def after (s : Session) : Event → Session
  | .edit e => (s.edit e).2
  | .selectAlternative index => (s.selectAlternative index).2
  | .navigate link => s.navigate link
  | .navigateText text => (s.navigateText text).2
  | .takeLookups => s.takeLookups.2
  | .takeRequests => s.takeRequests.2
  | .completeLookup l result => (s.completeLookup l result).2
  | .completeRequest number result => (s.completeRequest number result).2
  | .setClock now => s.setClock now
  | .collect => s.collect.2
  | .geocode queries => s.emit (queries.map .geocode)
  | .findRoute payload => s.emit [.findRoute payload]

def play (s : Session) (events : List Event) : Session := events.foldl after s

/-- All that an observer notes at the events of a run, in order. -/
def record {α : Type} (note : Session → Event → List α) (s : Session) : List Event → List α
  | [] => []
  | e :: es => note s e ++ record note (s.after e) es

/-- What an event tells the outside. -/
def told (s : Session) (e : Event) : List Effect := (s.after e).outbox.drop s.outbox.length

/-- What an effect says that the dispatcher decided, if it says so. -/
def decision? : Effect → Option Action
  | .pushLink link => some (.push link)
  | .showRejection e => some (.reject e)
  | _ => none

/-- The decisions taken from one session to a later one, as the outside sees them: states pushed to
the history, refusals shown, and requests that join the queue. -/
def decided (s t : Session) : List Action :=
  (t.outbox.drop s.outbox.length).filterMap decision? ++
    (t.requests.drop s.requests.length).map .dispatch

/-- The decisions that an event leads to. -/
def actions (s : Session) (e : Event) : List Action := decided s (s.after e)

/-- The lookups that an event put into the queue. -/
def newLookups (s : Session) (e : Event) : List Lookup := (s.after e).lookups.drop s.lookups.length

/-- The requests that an event put into the queue. -/
def newRequests (s : Session) (e : Event) : List Dispatch := (s.after e).requests.drop s.requests.length

/-- The events after which a request is due if the route is ready: an edit that goes through, a link
with two or more texts, an answer that is applied. -/
def triggers (s : Session) : Event → Prop
  | .edit e => s.carriesOut e
  | .navigate link => 2 ≤ link.nonBlankPoints
  | .navigateText text =>
    ∃ link, Link.ofText text s.defaultProfile = .ok link ∧ 2 ≤ link.nonBlankPoints
  | .completeLookup l result => ∃ status, (s.completeLookup l result).1 = .applied status
  | _ => False

/-- The numbers of the requests whose answers an event applied. -/
def accepted (s : Session) : Event → List Nat
  | .completeRequest number result => if (s.completeRequest number result).1 then [number] else []
  | _ => []

theorem play_append (s : Session) (es fs : List Event) : s.play (es ++ fs) = (s.play es).play fs :=
  List.foldl_append

theorem play_concat (s : Session) (es : List Event) (e : Event) :
    s.play (es ++ [e]) = (s.play es).after e :=
  play_append s es [e]

theorem record_append {α : Type} (note : Session → Event → List α) (s : Session)
    (es fs : List Event) :
    record note s (es ++ fs) = record note s es ++ record note (s.play es) fs := by
  induction es generalizing s with
  | nil => rfl
  | cons e es ih =>
    rw [List.cons_append, record, ih, record, List.append_assoc]
    rfl

theorem record_concat {α : Type} (note : Session → Event → List α) (s : Session)
    (es : List Event) (e : Event) :
    record note s (es ++ [e]) = record note s es ++ note (s.play es) e := by
  rw [record_append]
  simp [record]

theorem record_eq_nil {α : Type} {note : Session → Event → List α} {es : List Event}
    (h : ∀ e ∈ es, ∀ t, note t e = []) (s : Session) : record note s es = [] := by
  induction es generalizing s with
  | nil => rfl
  | cons e es ih =>
    rw [record, h e List.mem_cons_self, ih (fun e' he => h e' (List.mem_cons_of_mem e he))]
    rfl

/-- What some run leads to from a session that has just been started. -/
inductive Reachable : Session → Prop
  | start (config : SessionConfig) (historyAvailable : Bool) (clock : Instant) :
      Reachable (start config historyAvailable clock)
  | after {s : Session} (h : Reachable s) (e : Event) : Reachable (s.after e)

theorem Reachable.play {s : Session} (h : s.Reachable) (es : List Event) : (s.play es).Reachable := by
  induction es generalizing s with
  | nil => exact h
  | cons e es ih => exact ih (h.after e)

/-- The events that a run is made of: the session takes what waits, asks, and is answered. -/
def Event.ofRun : Event → Bool
  | .takeLookups | .takeRequests | .geocode _ | .findRoute _ => true
  | .completeLookup _ _ | .completeRequest _ _ => true
  | _ => false

def lookupEvents (s : Session) (geocoder : Geocoder) : List Event :=
  .takeLookups :: .geocode (s.lookups.map (·.query)) ::
    (geocoder.arrivals s.lookups).map fun l => .completeLookup l (geocoder.answer l.query)

def requestEvents {σ : Type} (service : Payload → σ → RoutingResult × σ) :
    σ → List Dispatch → List Event
  | _, [] => []
  | memory, d :: ds =>
    .findRoute d.payload :: .completeRequest d.number (service d.payload memory).1 ::
      requestEvents service (service d.payload memory).2 ds

theorem runLookups_eq_play (s : Session) (geocoder : Geocoder) :
    s.runLookups geocoder = s.play (s.lookupEvents geocoder) := by
  have asked : s.lookups.map (fun l => Effect.geocode l.query) =
      (s.lookups.map (·.query)).map .geocode := by
    rw [List.map_map]
    rfl
  simp only [runLookups, takeLookups, lookupEvents, play, List.foldl_cons, List.foldl_map, asked]
  rfl

theorem runRequests_eq_play {σ : Type} (service : Payload → σ → RoutingResult × σ) (memory : σ)
    (s : Session) : (runRequests service memory s).2 =
      s.play (.takeRequests :: requestEvents service memory s.requests) := by
  have sent (ds : List Dispatch) (memory : σ) (t : Session) :
      (ds.foldl (runRequest service) (memory, t)).2 = t.play (requestEvents service memory ds) := by
    induction ds generalizing memory t with
    | nil => rfl
    | cons d ds ih =>
      rw [List.foldl_cons]
      exact ih _ _
  exact sent s.requests memory _

private theorem requestEvents_ofRun {σ : Type} (service : Payload → σ → RoutingResult × σ) (memory : σ)
    (ds : List Dispatch) : ∀ e ∈ requestEvents service memory ds, e.ofRun := by
  induction ds generalizing memory with
  | nil => simp [requestEvents]
  | cons d ds ih =>
    simp only [requestEvents, List.forall_mem_cons]
    exact ⟨rfl, rfl, ih _⟩

private theorem lookupEvents_ofRun (s : Session) (geocoder : Geocoder) :
    ∀ e ∈ s.lookupEvents geocoder, e.ofRun := by
  simp only [lookupEvents, List.forall_mem_cons, List.forall_mem_map]
  exact ⟨rfl, rfl, fun _ _ => rfl⟩

/-- Running until nothing waits is taking, asking and being answered, and nothing else. -/
theorem exists_play_run {σ : Type} (geocoder : Geocoder)
    (service : Payload → σ → RoutingResult × σ) (memory : σ) (s : Session) :
    ∃ es : List Event, (∀ e ∈ es, e.ofRun) ∧ (run geocoder service memory s).2 = s.play es := by
  fun_induction run geocoder service memory s with
  | case1 memory s hl hr => exact ⟨[], by simp, rfl⟩
  | case2 memory s hl hr next ih =>
    obtain ⟨es, hes, he⟩ := ih
    refine ⟨.takeRequests :: requestEvents service memory s.requests ++ es, ?_, ?_⟩
    · simp only [List.cons_append, List.forall_mem_cons, List.forall_mem_append]
      exact ⟨rfl, requestEvents_ofRun service memory _, hes⟩
    · rw [he, play_append, ← runRequests_eq_play]
  | case3 memory s hl ih =>
    obtain ⟨es, hes, he⟩ := ih
    refine ⟨s.lookupEvents geocoder ++ es, ?_, ?_⟩
    · exact List.forall_mem_append.mpr ⟨s.lookupEvents_ofRun geocoder, hes⟩
    · rw [he, play_append, ← runLookups_eq_play]

end Itinerary.Session

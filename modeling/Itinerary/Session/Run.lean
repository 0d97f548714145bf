import Itinerary.Session.Completion

/-! Running a session until it is quiet: lookups first, then requests. -/
namespace Itinerary

/-- Lookups are sent together, and each is answered once, in the order of `arrivals`. -/
structure Geocoder where
  answer : String → LookupResult
  arrivals : List Lookup → List Lookup
  perm : ∀ lookups, (arrivals lookups).Perm lookups

/-- A geocoder whose answers arrive in the order of the lookups. -/
def Geocoder.inOrder (answer : String → LookupResult) : Geocoder := ⟨answer, id, .refl⟩

namespace Session

/-- Looks up everything that waits. The answers are applied, as they arrived, once all of them are
there. -/
def runLookups (s : Session) (geocoder : Geocoder) : Session :=
  let (lookups, s) := s.takeLookups
  (geocoder.arrivals lookups).foldl (fun s l => (s.completeLookup l (geocoder.answer l.query)).2)
    (s.emit (lookups.map fun l => .geocode l.query))

/-- Sends one request to a service that may remember what it was asked. -/
def runRequest {σ : Type} (service : Payload → σ → RoutingResult × σ) (st : σ × Session)
    (d : Dispatch) : σ × Session :=
  let (result, memory) := service d.payload st.1
  (memory, ((st.2.emit [.findRoute d.payload]).completeRequest d.number result).2)

/-- Sends the requests that wait. -/
def runRequests {σ : Type} (service : Payload → σ → RoutingResult × σ) (memory : σ) (s : Session) :
    σ × Session :=
  let (requests, s) := s.takeRequests
  requests.foldl (runRequest service) (memory, s)

theorem perform_lookups (s : Session) (a : Action) : (s.perform a).lookups = s.lookups := by
  cases a <;> rfl

private theorem tryFocus_lookups (s : Session) : s.tryFocus.lookups = s.lookups := by
  unfold tryFocus
  split
  · rfl
  · split
    · rfl
    · split <;> rfl

private theorem reportFailure_lookups (s : Session) (id : StopId) :
    (s.reportFailure id).lookups = s.lookups := by
  unfold reportFailure
  split <;> rfl

theorem completeLookup_lookups (s : Session) (l : Lookup) (result : LookupResult) :
    (s.completeLookup l result).2.lookups = s.lookups := by
  unfold completeLookup
  split
  rename_i completion route _
  dsimp only
  split
  · rfl
  · rw [perform_lookups]
    show (Session.tryFocus _).lookups = _
    rw [tryFocus_lookups]
    split
    · exact reportFailure_lookups _ _
    · rfl

private theorem runLookups_lookups (s : Session) (geocoder : Geocoder) :
    (s.runLookups geocoder).lookups = [] := by
  have folded (ls : List Lookup) (t : Session) :
      (ls.foldl (fun s l => (s.completeLookup l (geocoder.answer l.query)).2) t).lookups =
        t.lookups := by
    induction ls generalizing t with
    | nil => rfl
    | cons l ls ih => rw [List.foldl_cons, ih, completeLookup_lookups]
  exact folded _ _

private theorem showDetails_queues (s : Session) (response : Response) :
    (s.showDetails response).lookups = s.lookups ∧
      (s.showDetails response).requests = s.requests := by
  unfold showDetails
  split
  · exact ⟨rfl, rfl⟩
  · split <;> exact ⟨rfl, rfl⟩

private theorem display_queues (s : Session) (response : Response) (zoom : Bool) :
    (s.display response zoom).lookups = s.lookups ∧
      (s.display response zoom).requests = s.requests := by
  unfold display
  dsimp only [refreshMarkers, emit]
  by_cases h : s.options.debug
  · rw [if_pos h]
    exact showDetails_queues _ _
  · rw [if_neg h]
    exact ⟨rfl, rfl⟩

theorem completeRequest_queues (s : Session) (number : Nat) (result : RoutingResult) :
    (s.completeRequest number result).2.lookups = s.lookups ∧
      (s.completeRequest number result).2.requests = s.requests := by
  unfold completeRequest
  dsimp only
  split
  · exact ⟨rfl, rfl⟩
  · split
    · exact display_queues _ _ _
    · exact ⟨rfl, rfl⟩

private theorem runRequests_queues {σ : Type} (service : Payload → σ → RoutingResult × σ) (memory : σ)
    (s : Session) : (runRequests service memory s).2.lookups = s.lookups ∧
      (runRequests service memory s).2.requests = [] := by
  have folded (ds : List Dispatch) (st : σ × Session) :
      (ds.foldl (runRequest service) st).2.lookups = st.2.lookups ∧
        (ds.foldl (runRequest service) st).2.requests = st.2.requests := by
    induction ds generalizing st with
    | nil => exact ⟨rfl, rfl⟩
    | cons d ds ih =>
      have step := completeRequest_queues (st.2.emit [.findRoute d.payload]) d.number
        (service d.payload st.1).1
      rw [List.foldl_cons]
      exact ⟨(ih _).1.trans step.1, (ih _).2.trans step.2⟩
  exact folded _ _

/-- What is still to do: answers to lookups may add requests, answers to requests add nothing. -/
def backlog (s : Session) : Nat :=
  (if s.lookups.isEmpty then 0 else 2) + if s.requests.isEmpty then 0 else 1

private theorem backlog_runRequests {σ : Type} (service : Payload → σ → RoutingResult × σ) (memory : σ)
    {s : Session} (hl : s.lookups.isEmpty) (hr : ¬ s.requests.isEmpty) :
    (runRequests service memory s).2.backlog < s.backlog := by
  have queues := runRequests_queues service memory s
  simp [backlog, queues.1, queues.2, hl, hr]

private theorem backlog_runLookups {s : Session} (geocoder : Geocoder) (hl : ¬ s.lookups.isEmpty) :
    (s.runLookups geocoder).backlog < s.backlog := by
  simp only [backlog, runLookups_lookups s geocoder, hl]
  simp only [List.isEmpty_nil, if_true, Bool.false_eq_true, if_false]
  split <;> split <;> omega

/-- Runs lookups while any wait, then requests, until nothing waits, as long as no answer stops the
program. -/
def run {σ : Type} (geocoder : Geocoder) (service : Payload → σ → RoutingResult × σ) (memory : σ)
    (s : Session) : σ × Session :=
  if _hl : s.lookups.isEmpty then
    if _hr : s.requests.isEmpty then (memory, s)
    else
      let next := runRequests service memory s
      run geocoder service next.1 next.2
  else run geocoder service memory (s.runLookups geocoder)
termination_by s.backlog
decreasing_by
  · exact backlog_runRequests service memory _hl _hr
  · exact backlog_runLookups geocoder _hl

/-- Sends one request, the answer to which may stop the program. -/
def runRequestOrFault {σ : Type} (service : Payload → σ → RoutingResult × σ) (st : σ × Session)
    (d : Dispatch) : Except Fault (σ × Session) :=
  let (result, memory) := service d.payload st.1
  ((st.2.emit [.findRoute d.payload]).completeRequestOrFault d.number result).map fun outcome =>
    (memory, outcome.2)

def runRequestsOrFault {σ : Type} (service : Payload → σ → RoutingResult × σ) (memory : σ)
    (s : Session) : Except Fault (σ × Session) :=
  let (requests, s) := s.takeRequests
  requests.foldlM (runRequestOrFault service) (memory, s)

private theorem completeRequestOrFault_eq_ok {s : Session} {number : Nat} {result : RoutingResult}
    {outcome : Bool × Session} (h : s.completeRequestOrFault number result = .ok outcome) :
    outcome = s.completeRequest number result := by
  unfold completeRequestOrFault at h
  dsimp only at h
  split at h
  · cases result with
    | error failure =>
      cases h
      rfl
    | ok response =>
      cases hd : s.readDetails response with
      | error fault =>
        simp only [hd] at h
        cases h
      | ok _ =>
        simp only [hd] at h
        cases h
        rfl
  · cases h
    rfl

private theorem runRequestOrFault_eq_ok {σ : Type} {service : Payload → σ → RoutingResult × σ}
    {before st : σ × Session} {d : Dispatch} (h : runRequestOrFault service before d = .ok st) :
    st = runRequest service before d := by
  unfold runRequestOrFault at h
  dsimp only at h
  cases ho : (before.2.emit [.findRoute d.payload]).completeRequestOrFault d.number
      (service d.payload before.1).1 with
  | error fault =>
    rw [ho] at h
    cases h
  | ok outcome =>
    rw [ho, completeRequestOrFault_eq_ok ho] at h
    cases h
    rfl

theorem runRequestsOrFault_eq_ok {σ : Type} {service : Payload → σ → RoutingResult × σ} {memory : σ}
    {s : Session} {st : σ × Session} (h : runRequestsOrFault service memory s = .ok st) :
    st = runRequests service memory s := by
  have folded (ds : List Dispatch) (before : σ × Session)
      (h : ds.foldlM (runRequestOrFault service) before = .ok st) :
      st = ds.foldl (runRequest service) before := by
    induction ds generalizing before with
    | nil =>
      cases h
      rfl
    | cons d ds ih =>
      rw [List.foldlM_cons] at h
      cases hd : runRequestOrFault service before d with
      | error fault =>
        rw [hd] at h
        cases h
      | ok next =>
        rw [hd, runRequestOrFault_eq_ok hd] at h
        exact ih _ h
  exact folded _ _ h

/-- Runs lookups while any wait, then requests, until nothing waits or an answer stops the program. -/
def runOrFault {σ : Type} (geocoder : Geocoder) (service : Payload → σ → RoutingResult × σ) (memory : σ)
    (s : Session) : Except Fault (σ × Session) :=
  if _hl : s.lookups.isEmpty then
    if _hr : s.requests.isEmpty then .ok (memory, s)
    else
      match _hn : runRequestsOrFault service memory s with
      | .ok next => runOrFault geocoder service next.1 next.2
      | .error fault => .error fault
  else runOrFault geocoder service memory (s.runLookups geocoder)
termination_by s.backlog
decreasing_by
  · rw [runRequestsOrFault_eq_ok _hn]
    exact backlog_runRequests service memory _hl _hr
  · exact backlog_runLookups geocoder _hl

theorem runOrFault_eq_ok {σ : Type} {geocoder : Geocoder} {service : Payload → σ → RoutingResult × σ}
    {memory : σ} {s : Session} {st : σ × Session} (h : runOrFault geocoder service memory s = .ok st) :
    st = run geocoder service memory s := by
  fun_induction runOrFault geocoder service memory s with
  | case1 memory s hl hr =>
    cases h
    rw [run, dif_pos hl, dif_pos hr]
  | case2 memory s hl hr next hn ih =>
    rw [ih h, run.eq_def _ _ memory s, dif_pos hl, dif_neg hr, runRequestsOrFault_eq_ok hn]
  | case3 memory s hl hr fault hn => cases h
  | case4 memory s hl ih => rw [ih h, run.eq_def _ _ memory s, dif_neg hl]

end Session
end Itinerary

import Itinerary.Proofs.Session.EditCases

/-! What the dispatcher decides, and how the outside sees it. -/
namespace Itinerary

/-- A decision as the outside sees it: of idling it sees nothing. -/
def Action.asked : Action → List Action
  | .idle => []
  | a => [a]

/-- The request that a decision dispatches. -/
def Action.dispatch? : Action → Option Dispatch
  | .dispatch d => some d
  | _ => none

/-- The decision goes with what building the request comes to: it is refused for the error, or it is
asked for, now or by way of the history. -/
inductive Action.Answers (route : Route) (options : Options) (now : Instant) : Action → Prop
  | reject {e : RequestError} (refused : Payload.build route options now = .error e) :
      Answers route options now (.reject e)
  | push {payload : Payload} (built : Payload.build route options now = .ok payload) (zoom : Bool)
      (token : Nat) :
      Answers route options now (.push { Link.capture route options zoom with token := some token })
  | dispatch {payload : Payload} (built : Payload.build route options now = .ok payload) (number : Nat)
      (zoom : Bool) : Answers route options now (.dispatch ⟨number, payload, zoom⟩)

namespace Dispatcher
variable (d : Dispatcher) (route : Route) (options : Options) (now : Instant) (always : Bool)

/-- A request is due on a ready route: always, or when it was not ready before. -/
def due : Bool := route.isReady && (always || !d.wasReady)

/-- What an evaluation comes to. No request may be due; one that is due may be refused and uses nothing
up; or it is pushed and uses up a token, or dispatched and uses up a number, and either the zoom and the
direct flag. -/
inductive EvaluateCase : Prop
  | idle (notDue : d.due route always = false)
      (h : d.evaluate route options now always = (.idle, { d with wasReady := route.isReady }))
  | rejected (error : RequestError) (due : d.due route always = true)
      (refused : Payload.build route options now = .error error)
      (h : d.evaluate route options now always = (.reject error, { d with wasReady := route.isReady }))
  | pushed (payload : Payload) (due : d.due route always = true)
      (built : Payload.build route options now = .ok payload) (way : (d.keepsHistory && !d.direct) = true)
      (h : d.evaluate route options now always =
        (.push { Link.capture route options d.zoom with token := some (d.token + 1) },
          { d with wasReady := route.isReady, zoom := true, direct := false, token := d.token + 1 }))
  | dispatched (payload : Payload) (due : d.due route always = true)
      (built : Payload.build route options now = .ok payload) (way : (d.keepsHistory && !d.direct) = false)
      (h : d.evaluate route options now always =
        (.dispatch ⟨d.lastNumber + 1, payload, d.zoom⟩,
          { d with
            wasReady := route.isReady
            zoom := true
            direct := false
            lastNumber := d.lastNumber + 1 }))

theorem evaluate_cases : d.EvaluateCase route options now always := by
  cases hd : d.due route always with
  | false => exact .idle hd (if_neg (by rw [← due, hd]; exact Bool.false_ne_true))
  | true =>
    have asks : d.evaluate route options now always =
      { d with wasReady := route.isReady }.request route options now := if_pos hd
    rw [request] at asks
    cases hb : Payload.build route options now with
    | error error =>
      rw [hb] at asks
      exact .rejected error hd hb asks
    | ok payload =>
      rw [hb] at asks
      dsimp only at asks
      cases hw : d.keepsHistory && !d.direct with
      | true =>
        rw [hw] at asks
        exact .pushed payload hd hb hw asks
      | false =>
        rw [hw] at asks
        exact .dispatched payload hd hb hw asks

variable {always}

theorem evaluate_of_not_due (h : d.due route always = false) :
    d.evaluate route options now always = (.idle, { d with wasReady := route.isReady }) := by
  cases d.evaluate_cases route options now always with
  | idle _ he => exact he
  | rejected _ due | pushed _ due | dispatched _ due =>
    rw [h] at due
    cases due

/-- What a request that is due comes to depends on whether it can be built. -/
theorem evaluate_answers (h : d.due route always = true) :
    (d.evaluate route options now always).1.Answers route options now := by
  cases d.evaluate_cases route options now always with
  | idle notDue =>
    rw [h] at notDue
    cases notDue
  | rejected error _ refused he =>
    rw [he]
    exact .reject refused
  | pushed payload _ built _ he =>
    rw [he]
    exact .push built d.zoom (d.token + 1)
  | dispatched payload _ built _ he =>
    rw [he]
    exact .dispatch built (d.lastNumber + 1) d.zoom

variable (always)

theorem evaluate_wasReady : (d.evaluate route options now always).2.wasReady = route.isReady := by
  cases d.evaluate_cases route options now always <;> simp [*]

/-- A dispatched request takes the next number, and nothing else takes one. -/
theorem evaluate_numbers :
    (d.evaluate route options now always).2.appliedNumber = d.appliedNumber ∧
      (d.evaluate route options now always).2.lastNumber =
        d.lastNumber + (d.evaluate route options now always).1.dispatch?.toList.length ∧
      ∀ q ∈ (d.evaluate route options now always).1.dispatch?, q.number = d.lastNumber + 1 := by
  cases d.evaluate_cases route options now always <;> simp [*, Action.dispatch?]

theorem evaluate_asked_length :
    (d.evaluate route options now always).1.asked.length = if d.due route always then 1 else 0 := by
  cases d.evaluate_cases route options now always <;> simp [*, Action.asked]

end Dispatcher

namespace Session
variable {s t : Session}

private theorem perform_route (s : Session) (a : Action) : (s.perform a).route = s.route := by
  cases a <;> rfl

theorem perform_dispatcher (s : Session) (a : Action) : (s.perform a).dispatcher = s.dispatcher := by
  cases a <;> rfl

theorem evaluate_route (s : Session) (always : Bool) : (s.evaluate always).route = s.route :=
  perform_route _ _

theorem afterEdit_route (s : Session) : s.afterEdit.route = s.route := by
  rw [afterEdit_eq, evaluate_route]
  rfl

theorem evaluate_dispatcher (s : Session) (always : Bool) : (s.evaluate always).dispatcher =
    (s.dispatcher.evaluate s.route s.options s.clock always).2 :=
  perform_dispatcher _ _

theorem perform_requests (s : Session) (a : Action) :
    (s.perform a).requests = s.requests ++ a.dispatch?.toList := by
  cases a <;> simp [perform, emit, Action.dispatch?]

theorem evaluate_requests (s : Session) (always : Bool) : (s.evaluate always).requests = s.requests ++
    (s.dispatcher.evaluate s.route s.options s.clock always).1.dispatch?.toList :=
  perform_requests _ _

theorem evaluate_lookups (s : Session) (always : Bool) : (s.evaluate always).lookups = s.lookups :=
  perform_lookups _ _

/-- Carrying out a decision touches neither the options nor the clock nor the counts. -/
private theorem perform_rest (s : Session) (a : Action) : (s.perform a).options = s.options ∧
    (s.perform a).clock = s.clock ∧ (s.perform a).stats = s.stats := by
  cases a <;> exact ⟨rfl, rfl, rfl⟩

theorem evaluate_rest (s : Session) (always : Bool) : (s.evaluate always).options = s.options ∧
    (s.evaluate always).clock = s.clock ∧ (s.evaluate always).stats = s.stats :=
  perform_rest _ _

/-- Between the two sessions nothing was decided. -/
def Quiet (s t : Session) : Prop :=
  t.requests = s.requests ∧ ∃ es, Silent es ∧ t.outbox = s.outbox ++ es

theorem Quiet.refl (s : Session) : Quiet s s := ⟨rfl, [], rfl, by rw [List.append_nil]⟩

theorem Quiet.shown (h : Quiet s t) (focusOn : Option StopId) {es : List Effect} (hes : Silent es) :
    Quiet s (t.shown focusOn es) := by
  obtain ⟨hr, fs, hfs, ho⟩ := h
  refine ⟨hr, fs ++ es, hfs.append hes, ?_⟩
  change t.outbox ++ es = _
  rw [ho, List.append_assoc]

theorem Quiet.refreshMarkers (h : Quiet s t) : Quiet s t.refreshMarkers := by
  obtain ⟨es, hes, he⟩ := refreshMarkers_eq t
  rw [he]
  exact h.shown t.focusOn hes.silent

theorem decided_of_quiet (h : Quiet s t) : decided s t = [] := by
  obtain ⟨hr, es, hes, ho⟩ := h
  rw [decided]
  rw [hr, ho, List.drop_left, hes]
  simp

/-- Carrying out a decision shows just that decision. -/
theorem decided_perform (h : Quiet s t) (a : Action) : decided s (t.perform a) = a.asked := by
  obtain ⟨hr, es, hes, ho⟩ := h
  have said (fs : List Effect) :
      ((t.outbox ++ fs).drop s.outbox.length).filterMap decision? = fs.filterMap decision? := by
    rw [ho, List.append_assoc, List.drop_left, List.filterMap_append, hes, List.nil_append]
  cases a with
  | idle => exact decided_of_quiet ⟨hr, es, hes, ho⟩
  | push link =>
    change ((t.outbox ++ [Effect.pushLink link]).drop _).filterMap decision? ++ (t.requests.drop _).map _ = _
    rw [said, hr, List.drop_length]
    rfl
  | reject e =>
    change ((t.outbox ++ [Effect.showRejection e]).drop _).filterMap decision? ++ (t.requests.drop _).map _ = _
    rw [said, hr, List.drop_length]
    rfl
  | dispatch d =>
    have none := said []
    rw [List.append_nil] at none
    change (t.outbox.drop _).filterMap decision? ++ ((t.requests ++ [d]).drop _).map _ = _
    rw [none, hr, List.drop_left]
    rfl

theorem decided_evaluate (h : Quiet s t) (always : Bool) : decided s (t.evaluate always) =
    (t.dispatcher.evaluate t.route t.options t.clock always).1.asked := by
  have noted : Quiet s { t with
    dispatcher := (t.dispatcher.evaluate t.route t.options t.clock always).2 } := h
  exact decided_perform noted _

/-- The decision of an evaluation, as the event that ends with it shows it. -/
theorem evaluated_of_mem {e : Event} {always : Bool} {a : Action} (hq : Quiet s t)
    (ha : s.after e = t.evaluate always) (hm : a ∈ s.actions e) :
    (t.dispatcher.evaluate t.route t.options t.clock always).1 = a := by
  rw [actions, ha, decided_evaluate hq] at hm
  revert hm
  cases (t.dispatcher.evaluate t.route t.options t.clock always).1 <;>
    simp [Action.asked, eq_comm]

theorem decided_evaluate_length (h : Quiet s t) (always : Bool) :
    (decided s (t.evaluate always)).length = if t.dispatcher.due t.route always then 1 else 0 := by
  rw [decided_evaluate h, Dispatcher.evaluate_asked_length]

end Session
end Itinerary

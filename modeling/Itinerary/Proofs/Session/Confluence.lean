import Itinerary.Proofs.Session.Balance

/-! Answers to lookups may come in any order: while one is missing the dispatcher stays as it is, and
the last one finds the same route. -/
namespace Itinerary.Session
variable {r : Route} {s : Session}

/-- What a delivery does to the route and to the counts. -/
def deliver (p : Route × LookupStats) (d : Delivery) : Route × LookupStats :=
  ((p.1.complete d.1 d.2).2, p.2.countAnswer (p.1.complete d.1 d.2).1)

private theorem deliver_of_awaits {p : Route × LookupStats} {d : Delivery} (h : p.1.awaits d.1 = true) :
    deliver p d = (p.1.modify d.1.stop (·.resolveWith d.2), { p.2 with applied := p.2.applied + 1 }) := by
  obtain ⟨status, hc⟩ := Route.complete_of_awaits h d.2
  rw [deliver, hc]
  rfl

private theorem deliver_of_not_awaits {p : Route × LookupStats} {d : Delivery} (h : p.1.awaits d.1 = false) :
    deliver p d = (p.1, { p.2 with discarded := p.2.discarded + 1 }) := by
  rw [deliver, Route.complete_of_not_awaits h]
  rfl

/-- Once a stop has its answer it waits for none, and the other stops wait as before. -/
theorem awaits_answered (r : Route) (id : StopId) (result : LookupResult) (l : Lookup) :
    (r.modify id (·.resolveWith result)).awaits l = (r.awaits l && l.stop != id) := by
  rw [Route.awaits, Route.find?_modify, Route.awaits]
  cases r.find? l.stop with
  | none => rfl
  | some s =>
    by_cases he : l.stop = id
    · simp [he, Stop.awaits, s.resolveWith_status_ne_pending]
    · simp [he]

private theorem awaits_of_deliver {p : Route × LookupStats} {d : Delivery} {l : Lookup}
    (h : (deliver p d).1.awaits l = true) : p.1.awaits l = true := by
  cases hw : p.1.awaits d.1 with
  | false =>
    rw [deliver_of_not_awaits hw] at h
    exact h
  | true =>
    rw [deliver_of_awaits hw, awaits_answered, Bool.and_eq_true] at h
    exact h.1

private theorem modify_comm (r : Route) {a b : StopId} (hn : a ≠ b) (f g : Stop → Stop) :
    (r.modify a f).modify b g = (r.modify b g).modify a f := by
  simp only [Route.modify, List.map_map, Route.mk.injEq, true_and, and_true]
  refine List.map_congr_left fun e _ => ?_
  by_cases ha : e.1 = a
  · simp [ha, hn]
  · by_cases hb : e.1 = b <;> simp [ha, hb, hn.symm]

/-- Two answers that no stop waits for at once may change places. -/
private theorem deliver_comm (p : Route × LookupStats) {d e : Delivery}
    (h : p.1.awaits d.1 = true → p.1.awaits e.1 = true → d.1.stop ≠ e.1.stop) :
    deliver (deliver p d) e = deliver (deliver p e) d := by
  have late {d e : Delivery} (he : p.1.awaits e.1 = false) :
      (deliver p d).1.awaits e.1 = false :=
    Bool.eq_false_iff.mpr fun ha => by
      rw [awaits_of_deliver ha] at he
      cases he
  have waits {d e : Delivery} (hd : p.1.awaits d.1 = false) (he : p.1.awaits e.1 = true) :
      (deliver p d).1.awaits e.1 = true := by
    rw [deliver_of_not_awaits hd]
    exact he
  cases hd : p.1.awaits d.1 with
  | false =>
    cases he : p.1.awaits e.1 with
    | false =>
      rw [deliver_of_not_awaits (late he), deliver_of_not_awaits (late hd),
        deliver_of_not_awaits hd, deliver_of_not_awaits he]
    | true =>
      rw [deliver_of_awaits (waits hd he), deliver_of_not_awaits (late hd),
        deliver_of_not_awaits hd, deliver_of_awaits he]
  | true =>
    cases he : p.1.awaits e.1 with
    | false =>
      rw [deliver_of_not_awaits (late he), deliver_of_awaits (waits he hd),
        deliver_of_awaits hd, deliver_of_not_awaits he]
    | true =>
      have apart := h hd he
      have second : (deliver p d).1.awaits e.1 = true := by
        rw [deliver_of_awaits hd, awaits_answered, he]
        simpa using apart.symm
      have first : (deliver p e).1.awaits d.1 = true := by
        rw [deliver_of_awaits he, awaits_answered, hd]
        simpa using apart
      rw [deliver_of_awaits second, deliver_of_awaits first, deliver_of_awaits hd,
        deliver_of_awaits he]
      exact Prod.ext (modify_comm p.1 apart (·.resolveWith d.2) (·.resolveWith e.2)) rfl

/-- No stop waits for two of the answers. -/
def Apart (r : Route) (ds : List Delivery) : Prop :=
  ds.Pairwise fun d e => r.awaits d.1 = true → r.awaits e.1 = true → d.1.stop ≠ e.1.stop

private theorem Apart.perm {ds es : List Delivery} (h : Apart r ds) (p : ds.Perm es) : Apart r es :=
  (p.pairwise_iff fun h he hd => (h hd he).symm).mp h

private theorem Apart.after {p : Route × LookupStats} {ds : List Delivery} (h : Apart p.1 ds) (d : Delivery) :
    Apart (deliver p d).1 ds :=
  h.imp fun apart hd he => apart (awaits_of_deliver hd) (awaits_of_deliver he)

/-- The route and the counts are the same whichever answer comes first. -/
private theorem deliver_perm {p : Route × LookupStats} {ds es : List Delivery} (h : Apart p.1 ds)
    (same : ds.Perm es) : ds.foldl deliver p = es.foldl deliver p := by
  induction same generalizing p with
  | nil => rfl
  | cons d _ ih => exact ih (Apart.after (List.pairwise_cons.mp h).2 d)
  | swap d e ds =>
    have apart := (List.pairwise_cons.mp h).1 d List.mem_cons_self
    rw [List.foldl_cons, List.foldl_cons, List.foldl_cons, List.foldl_cons, deliver_comm p apart]
  | trans first _ ih₁ ih₂ => exact (ih₁ h).trans (ih₂ (h.perm first))

/-- The events in which the answers come, one after the other. -/
def deliveries (ds : List Delivery) : List Event := ds.map .ofDelivery

private theorem play_deliveries_append (s : Session) (ds es : List Delivery) :
    s.play (deliveries (ds ++ es)) = (s.play (deliveries ds)).play (deliveries es) := by
  rw [deliveries, List.map_append, play_append]
  rfl

/-- A ready route waits for no answer. -/
private theorem not_awaits_of_ready (w : r.WellFormed) (h : r.isReady = true) (l : Lookup) :
    r.awaits l = false :=
  Bool.eq_false_iff.mpr fun ha => by
    rw [w.not_ready_of_awaits ha] at h
    cases h

private theorem after_late {d : Delivery} (hw : s.route.awaits d.1 = false) : s.after (.ofDelivery d) =
    { s with stats := { s.stats with discarded := s.stats.discarded + 1 } } :=
  congrArg Prod.snd (completeLookup_stale hw d.2)

private theorem after_awaited {d : Delivery} (hw : s.route.awaits d.1 = true) :
    ∃ focusOn es, Silent es ∧ s.after (.ofDelivery d) =
      (((s.answered d.1 d.2).shown focusOn es).refreshMarkers).evaluate false := by
  obtain ⟨status, focusOn, es, hes, applied⟩ := completeLookup_applied hw d.2
  exact ⟨focusOn, es, hes, congrArg Prod.snd applied⟩

/-- The route and the counts after an answer. -/
private theorem after_delivery (s : Session) (d : Delivery) :
    ((s.after (.ofDelivery d)).route, (s.after (.ofDelivery d)).stats) =
      deliver (s.route, s.stats) d := by
  cases hw : s.route.awaits d.1 with
  | false => rw [deliver_of_not_awaits hw, after_late hw]
  | true =>
    obtain ⟨focusOn, es, _, evaluated⟩ := after_awaited hw
    rw [deliver_of_awaits hw, evaluated, evaluate_route, (evaluate_rest _ _).2.2]
    rfl

private theorem play_deliveries (s : Session) (ds : List Delivery) :
    ((s.play (deliveries ds)).route, (s.play (deliveries ds)).stats) =
      ds.foldl deliver (s.route, s.stats) := by
  induction ds generalizing s with
  | nil => rfl
  | cons d ds ih =>
    rw [List.foldl_cons, ← after_delivery]
    exact ih _

/-- A session and a later one, with nothing but answers in between: the dispatcher stands as if it had
evaluated the route once, as it is in the end. -/
structure Answered (s t : Session) (asked : List Action) : Prop where
  options : t.options = s.options
  clock : t.clock = s.clock
  ready : s.isReady = true → t.route = s.route
  dispatcher : t.dispatcher = (s.dispatcher.evaluate t.route s.options s.clock false).2
  requests : t.requests = s.requests ++
    (s.dispatcher.evaluate t.route s.options s.clock false).1.dispatch?.toList
  asked : asked = (s.dispatcher.evaluate t.route s.options s.clock false).1.asked

/-- An evaluation that asks only for what is new finds nothing new in the route it has noted. -/
theorem evaluate_noted {d : Dispatcher} (h : d.wasReady = r.isReady) (options : Options)
    (now : Instant) : d.evaluate r options now false = (.idle, d) := by
  have idle : d.due r false = false := by
    rw [Dispatcher.due, h]
    cases r.isReady <;> rfl
  rw [Dispatcher.evaluate_of_not_due _ _ _ _ idle, ← h]

namespace Answered
variable {t u : Session} {asked more : List Action}

/-- The route is as it was, and so is the dispatcher. -/
theorem of_route (h : s.Settled) (hr : t.route = s.route) (ho : t.options = s.options)
    (hc : t.clock = s.clock) (hd : t.dispatcher = s.dispatcher) (hq : t.requests = s.requests) :
    Answered s t [] := by
  have idle := evaluate_noted h.noted s.options s.clock
  refine ⟨ho, hc, fun _ => hr, ?_, ?_, ?_⟩ <;> rw [hr, idle]
  · exact hd
  · exact hq.trans (List.append_nil _).symm
  · rfl

private theorem trans (hs : s.Settled) (ht : t.Settled) (h : Answered s t asked) (h' : Answered t u more) :
    Answered s u (asked ++ more) := by
  have options := h'.options.trans h.options
  have clock := h'.clock.trans h.clock
  have ready (hr : s.isReady = true) : u.route = s.route := by
    have same := h.ready hr
    have still : t.isReady = true := by
      rw [isReady, same]
      exact hr
    exact (h'.ready still).trans same
  cases due : s.dispatcher.due t.route false with
  | true =>
    -- The route is ready, and from then on no answer changes it.
    have still : t.isReady = true := by
      rw [Dispatcher.due, Bool.and_eq_true] at due
      exact due.1
    have same := h'.ready still
    have idle := evaluate_noted ht.noted t.options t.clock
    refine ⟨options, clock, ready, ?_, ?_, ?_⟩ <;> rw [same]
    · rw [h'.dispatcher, same, idle]
      exact h.dispatcher
    · rw [h'.requests, same, idle, h.requests]
      exact List.append_nil _
    · rw [h'.asked, same, idle, h.asked]
      exact List.append_nil _
  | false =>
    -- Nothing was due, so that the later evaluation finds the dispatcher as it was at first.
    have noted : s.dispatcher.wasReady = t.route.isReady := by
      cases hr : s.isReady with
      | true =>
        rw [h.ready hr]
        exact hs.noted
      | false =>
        rw [hs.noted, hr]
        rw [Dispatcher.due, hs.noted, hr] at due
        simpa using due.symm
    have idle := evaluate_noted noted s.options s.clock
    have before : t.dispatcher = s.dispatcher := by rw [h.dispatcher, idle]
    have asked_nil : asked = [] := by
      rw [h.asked, idle]
      rfl
    have requests : t.requests = s.requests := by
      rw [h.requests, idle]
      exact List.append_nil _
    refine ⟨options, clock, ready, ?_, ?_, ?_⟩
    · rw [h'.dispatcher, before, h.options, h.clock]
    · rw [h'.requests, before, h.options, h.clock, requests]
    · rw [h'.asked, before, h.options, h.clock, asked_nil]
      rfl

/-- One answer. -/
private theorem delivery (h : s.Settled) (d : Delivery) :
    Answered s (s.after (.ofDelivery d)) (s.actions (.ofDelivery d)) := by
  cases hw : s.route.awaits d.1 with
  | false =>
    have silent : s.actions (.ofDelivery d) = [] := by
      rw [actions, after_late hw]
      exact decided_of_quiet (.refl s)
    rw [silent, after_late hw]
    exact of_route h rfl rfl rfl rfl rfl
  | true =>
    obtain ⟨focusOn, es, hes, evaluated⟩ := after_awaited hw
    have quiet : Quiet s (s.answered d.1 d.2) := Quiet.refl s
    have unready : s.isReady = false := h.wellFormed.not_ready_of_awaits hw
    have rest := evaluate_rest (((s.answered d.1 d.2).shown focusOn es).refreshMarkers) false
    rw [actions, evaluated]
    refine ⟨rest.1, rest.2.1, fun hr => absurd hr (by simp [unready]), ?_, ?_, ?_⟩
    · rw [evaluate_dispatcher, evaluate_route]
      rfl
    · rw [evaluate_requests, evaluate_route]
      rfl
    · rw [decided_evaluate (quiet.shown focusOn hes).refreshMarkers, evaluate_route]
      rfl

/-- Answers one after the other. -/
theorem play (h : s.Settled) (ds : List Delivery) :
    Answered s (s.play (deliveries ds)) (record actions s (deliveries ds)) := by
  induction ds generalizing s with
  | nil => exact of_route h rfl rfl rfl rfl rfl
  | cons d ds ih =>
    have next := h.after (.ofDelivery d)
    exact (delivery h d).trans h next (ih next)

end Answered

/-- After an answer that leads to a decision, all answers are too late. -/
private theorem last_of_actions (h : s.Settled) {d : Delivery} (ha : s.actions (.ofDelivery d) ≠ []) :
    (∃ status, (s.completeLookup d.1 d.2).1 = .applied status) ∧
      ∀ (between : List Delivery) (e : Delivery),
        ((s.play (deliveries (d :: between))).completeLookup e.1 e.2).1 = .stale := by
  obtain ⟨few, one⟩ := h.actions_length (.ofDelivery d)
  have some : (s.actions (.ofDelivery d)).length = 1 :=
    Nat.le_antisymm few (List.length_pos_iff.mpr ha)
  obtain ⟨ready, applied⟩ := one.mp some
  refine ⟨applied, fun between e => ?_⟩
  have next := h.after (.ofDelivery d)
  have same := (Answered.play next between).ready ready
  have late : (s.play (deliveries (d :: between))).route.awaits e.1 = false := by
    change ((s.after (.ofDelivery d)).play (deliveries between)).route.awaits e.1 = false
    rw [same]
    exact not_awaits_of_ready next.wellFormed ready e.1
  rw [completeLookup_stale late]

/-- In every run in which each lookup is answered once at most, the answers that are still to come may
come in any order: the route, the counts, the requests, the dispatcher and the decisions are the same
in the end. There is one decision at most, and only answers that are too late come after it. -/
theorem deliveries_confluent (config : SessionConfig) (historyAvailable : Bool) (clock : Instant)
    (past : List Event) (ds es : List Delivery)
    (once : (start config historyAvailable clock).AnswersOnce past)
    (out : (answeredIn past ++ ds.map Prod.fst).Subperm
      ((start config historyAvailable clock).issued past)) (same : ds.Perm es) :
    let s := (start config historyAvailable clock).play past
    let t := s.play (deliveries ds)
    let u := s.play (deliveries es)
    (t.route = u.route ∧ t.stats = u.stats ∧ t.requests = u.requests ∧ t.dispatcher = u.dispatcher ∧
      record actions s (deliveries ds) = record actions s (deliveries es)) ∧
    (record actions s (deliveries ds)).length ≤ 1 ∧
    ∀ before d later, ds = before ++ d :: later →
      (s.play (deliveries before)).actions (.ofDelivery d) ≠ [] →
      (∃ status, ((s.play (deliveries before)).completeLookup d.1 d.2).1 = .applied status) ∧
      ∀ between e rest, later = between ++ e :: rest →
        ((s.play (deliveries (before ++ d :: between))).completeLookup e.1 e.2).1 = .stale := by
  intro s t u
  have settled : s.Settled := ((Reachable.start config historyAvailable clock).play past).settled
  have apart : Apart s.route ds := (play_balanced once).apart settled.wellFormed out
  have ends : (t.route, t.stats) = (u.route, u.stats) := by
    rw [play_deliveries, play_deliveries]
    exact deliver_perm apart same
  obtain ⟨routes, counts⟩ := Prod.mk.inj ends
  have first := Answered.play settled ds
  have second := Answered.play settled es
  refine ⟨⟨routes, counts, ?_, ?_, ?_⟩, ?_, ?_⟩
  · rw [first.requests, second.requests, routes]
  · rw [first.dispatcher, second.dispatcher, routes]
  · rw [first.asked, second.asked, routes]
  · rw [first.asked, Dispatcher.evaluate_asked_length]
    split <;> simp
  · intro before d later _ ha
    have reachable := ((Reachable.start config historyAvailable clock).play past).play (deliveries before)
    obtain ⟨applied, late⟩ := last_of_actions reachable.settled ha
    refine ⟨applied, fun between e rest _ => ?_⟩
    rw [play_deliveries_append]
    exact late between e

/-- Two texts are typed, and the first one is typed anew: three lookups are out. -/
def threeOut : List Event :=
  [.edit (.setInput 0 "Bon"), .edit (.setInput 1 "Köln"), .edit (.setInput 0 "Bonn")]

/-- The answers to all three of them. -/
def threeAnswers : List Delivery :=
  [(⟨⟨1⟩, "Bon", 1⟩, .error (.transport "timeout")), (⟨⟨2⟩, "Köln", 1⟩, .ok [⟨50.9, 7.0, "Köln"⟩]),
    (⟨⟨1⟩, "Bonn", 2⟩, .ok [⟨50.7, 7.1, "Bonn"⟩])]

/-- In either order the route is complete in the end, and one request has gone out. -/
theorem threeAnswers_confluent :
    let s := (start {} false ⟨0, 0⟩).play threeOut
    let t := s.play (deliveries threeAnswers)
    let u := s.play (deliveries threeAnswers.reverse)
    (start {} false ⟨0, 0⟩).AnswersOnce threeOut ∧
    (answeredIn threeOut ++ threeAnswers.map Prod.fst).Subperm ((start {} false ⟨0, 0⟩).issued threeOut) ∧
    threeAnswers.Perm threeAnswers.reverse ∧
    t.isReady = true ∧ t.requests.length = 1 ∧ t.route = u.route ∧ t.requests = u.requests := by
  intro s t u
  have once : (start {} false ⟨0, 0⟩).AnswersOnce threeOut := by decide +kernel
  have out : (answeredIn threeOut ++ threeAnswers.map Prod.fst).Subperm
      ((start {} false ⟨0, 0⟩).issued threeOut) := by decide +kernel
  have ready : t.isReady = true := by decide +kernel
  have sent : t.requests.length = 1 := by decide +kernel
  have same := (List.reverse_perm threeAnswers).symm
  obtain ⟨⟨routes, _, requests, _, _⟩, _⟩ :=
    deliveries_confluent {} false ⟨0, 0⟩ threeOut threeAnswers threeAnswers.reverse once out same
  exact ⟨once, out, same, ready, sent, routes, requests⟩

end Itinerary.Session

import Itinerary.Proofs.Session.Arrival
import Itinerary.Proofs.Session.Readiness
import Mathlib.Data.List.Induction

/-! Which way the requests of a session with a history go: past the history while a link is being
replayed, and through it after an edit. -/
namespace Itinerary

namespace Route
variable {r : Route}

/-- Some stop has no text. -/
def HasBlank (r : Route) : Prop := ∃ s ∈ r.stops, s.isBlank = true

private theorem HasBlank.modify (h : r.HasBlank) (w : r.WellFormed) (id : StopId) {f : Stop → Stop}
    (hf : ∀ s, (f s).input = s.input) : (r.modify id f).HasBlank := by
  obtain ⟨s, hs, hb⟩ := h
  refine ⟨_, w.mem_modify.mpr ⟨s, hs, rfl⟩, ?_⟩
  split
  · rw [Stop.isBlank, hf]
    exact hb
  · exact hb

/-- A stop without a text is never resolved. -/
theorem HasBlank.not_ready (h : r.HasBlank) (w : r.WellFormed) : r.isReady = false := by
  obtain ⟨s, hs, hb⟩ := h
  refine Bool.eq_false_iff.mpr fun hr => ?_
  have resolved := w.isReady_iff.mp hr s hs
  rw [((w.sound s hs).of_blank hb).status] at resolved
  cases resolved

/-- Asking for the stops gives none of them a text. -/
private theorem HasBlank.asks (h : r.HasBlank) (w : r.WellFormed) {ls : List Lookup} {t : Route}
    (a : Asks r ls t) : t.HasBlank := by
  obtain ⟨s, hs, hb⟩ := h
  obtain ⟨i, hi⟩ := w.exists_position hs
  have placed : t.at? i = some s.asked := by
    rw [a.stops, hi]
    rfl
  refine ⟨s.asked, (a.wellFormed.at?_some placed).1, ?_⟩
  rw [Stop.isBlank, s.asked_kept.2.1]
  exact hb

/-- A link with at most one text does not fill the two stops that every route has. -/
private theorem WellFormed.hasBlank_syncStops (h : r.WellFormed) {inputs : List String}
    (hn : (inputs.countP fun p => !Text.allBlank p) ≤ 1) :
    (Session.syncStops r inputs).HasBlank := by
  have synced := h.changes (syncStops_changes h inputs)
  have length := h.length_syncStops inputs
  by_contra none
  have filled (i : Nat) (hi : i < max inputs.length minStops) :
      ∃ text, inputs[i]? = some text ∧ Text.allBlank text = false := by
    rw [← length] at hi
    obtain ⟨s, hs⟩ := synced.exists_at? hi
    obtain ⟨texts, beyond⟩ := h.syncStops_texts hs
    have present : s.isBlank ≠ true := fun hb => none ⟨s, (synced.at?_some hs).1, hb⟩
    cases hp : inputs[i]? with
    | none => exact absurd (beyond hp) present
    | some text =>
      rw [Stop.isBlank, texts text hp] at present
      exact ⟨text, rfl, Bool.eq_false_iff.mpr present⟩
  have enough : 2 ≤ inputs.length := by
    obtain ⟨text, second, _⟩ := filled 1 (Nat.le_max_right _ _)
    exact (List.getElem?_eq_some_iff.mp second).1
  have all : (inputs.countP fun p => !Text.allBlank p) = inputs.length := by
    rw [List.countP_eq_length]
    intro p hp
    obtain ⟨i, hi⟩ := List.mem_iff_getElem?.mp hp
    have below := (List.getElem?_eq_some_iff.mp hi).1
    obtain ⟨text, same, notBlank⟩ := filled i (Nat.lt_of_lt_of_le below (Nat.le_max_left _ _))
    rw [hi] at same
    cases same
    rw [notBlank]
    rfl
  omega

end Route

namespace Dispatcher
variable (d : Dispatcher) (route : Route) (options : Options) (now : Instant) (always : Bool)

private theorem evaluate_keepsHistory :
    (d.evaluate route options now always).2.keepsHistory = d.keepsHistory := by
  cases d.evaluate_cases route options now always <;> simp [*]

/-- Passing the history by is never taken up by an evaluation. -/
private theorem direct_of_evaluate (h : (d.evaluate route options now always).2.direct = true) :
    d.direct = true := by
  cases d.evaluate_cases route options now always with
  | idle _ he | rejected _ _ _ he => rwa [he] at h
  | pushed _ _ _ _ he | dispatched _ _ _ _ he =>
    rw [he] at h
    cases h

variable {d route options now always}

/-- With a history, a request is dispatched only past it. -/
private theorem direct_of_dispatch {q : Dispatch} (hk : d.keepsHistory = true)
    (h : (d.evaluate route options now always).1 = .dispatch q) : d.direct = true := by
  cases d.evaluate_cases route options now always with
  | dispatched _ _ _ way => simpa [hk] using way
  | idle _ he | rejected _ _ _ he | pushed _ _ _ _ he =>
    rw [he] at h
    cases h

private theorem ne_push_of_direct (hd : d.direct = true) (link : Link) :
    (d.evaluate route options now always).1 ≠ .push link := by
  intro h
  cases d.evaluate_cases route options now always with
  | pushed _ _ _ way => simp [hd] at way
  | idle _ he | rejected _ _ _ he | dispatched _ _ _ _ he =>
    rw [he] at h
    cases h

end Dispatcher

namespace Session

/-- What settles which way the next request goes: an edit that goes through, or a link. -/
inductive Course where
  | edited
  | navigated (link : Link)

/-- The changes of course that an event makes. -/
def course (s : Session) : Event → List Course
  | .edit e =>
    match (s.edit e).1 with
    | .ok () => if s.skips e then [] else [.edited]
    | .error _ => []
  | .navigate link => [.navigated link]
  | .navigateText text =>
    match Link.ofText text s.defaultProfile with
    | .ok link => [.navigated link]
    | .error _ => []
  | _ => []

variable {s : Session} {e : Event}

private theorem course_of_carriesOut {x : Edit} (h : s.carriesOut x) : s.course (.edit x) = [.edited] := by
  obtain ⟨ok, acts⟩ := h
  rw [course]
  rw [ok, acts]
  rfl

theorem course_of_asksFor {link : Link} (h : s.asksFor link e) : s.course e = [.navigated link] := by
  cases e with
  | navigate other =>
    cases h
    rfl
  | navigateText text =>
    rw [course]
    rw [show Link.ofText text s.defaultProfile = .ok link from h]
  | _ => exact h.elim

private theorem course_of_not_triggers (ht : ¬ s.triggers e) (ha : ∀ link, ¬ s.asksFor link e) :
    s.course e = [] := by
  cases e with
  | edit x =>
    rw [course]
    split
    · rename_i ok
      split
      · rfl
      · rename_i acts
        exact absurd ⟨ok, Bool.eq_false_iff.mpr acts⟩ ht
    · rfl
  | navigate link => exact absurd rfl (ha link)
  | navigateText text =>
    rw [course]
    split
    · rename_i link hl
      exact absurd hl (ha link)
    · rfl
  | _ => rfl

/-- A link with at most one text leaves a stop without one. -/
theorem hasBlank_navigate (h : s.route.WellFormed) {link : Link} (hn : link.nonBlankPoints ≤ 1) :
    (s.navigate link).route.HasBlank := by
  obtain ⟨ls, asks, _⟩ := navigate_asks h link
  exact (h.hasBlank_syncStops hn).asks (h.changes (Route.syncStops_changes h link.points)) asks

/-- How an event stands to the course: it changes it by an edit or by a link, or it keeps it and
changes nothing that counts, or it applies an answer. -/
inductive Bearing (s : Session) (e : Event) : Prop
  | edited (hc : s.course e = [.edited]) (t : Session) (hq : Quiet s t)
      (hk : t.dispatcher.keepsHistory = s.dispatcher.keepsHistory)
      (hd : t.dispatcher.direct = false) (ha : s.after e = t.evaluate true)
  | shown (link : Link) (hc : s.course e = [.navigated link])
      (hd : (s.after e).dispatcher.direct = false) (hb : (s.after e).route.HasBlank)
      (ha : s.actions e = [])
  | navigated (link : Link) (he : s.asksFor link e) (hn : 2 ≤ link.nonBlankPoints) (t : Session)
      (hq : Quiet s t) (hd : t.dispatcher.direct = true) (ha : s.after e = t.evaluate true)
  | kept (hc : s.course e = []) (hr : (s.after e).route = s.route)
      (hd : (s.after e).dispatcher.direct = s.dispatcher.direct) (ha : s.actions e = [])
  | answered (l : Lookup) (result : LookupResult) (he : e = .completeLookup l result)
      (hw : s.route.awaits l = true) (t : Session) (hq : Quiet s t)
      (hr : t.route = s.route.modify l.stop (·.resolveWith result))
      (hd : t.dispatcher = s.dispatcher) (ha : s.after e = t.evaluate false)

private theorem bearing_of_asksFor (h : s.route.WellFormed) {link : Link} (he : s.asksFor link e) :
    Bearing s e := by
  rcases linked h he with ⟨hn, t, hq, _, hd, ha⟩ | ⟨hn, ha, _, hd⟩
  · exact .navigated link he hn t hq hd ha
  · refine .shown link (course_of_asksFor he) hd ?_ ha
    rw [after_of_asksFor he]
    exact hasBlank_navigate h hn

private theorem bearing (h : s.route.WellFormed) (e : Event) : Bearing s e := by
  by_cases asked : ∃ link, s.asksFor link e
  · obtain ⟨link, he⟩ := asked
    exact bearing_of_asksFor h he
  have quiet : Quiet s s := .refl s
  have apart (link : Link) : ¬ s.asksFor link e := fun he => asked ⟨link, he⟩
  cases turn h e with
  | kept ht hr _ _ _ hd _ _ ha =>
    refine .kept (course_of_not_triggers ht apart) hr ?_ ha
    rw [hd]
  | stale l result he hw ha =>
    refine .kept ?_ ?_ ?_ ?_
    · rw [he]
      rfl
    · rw [ha]
    · rw [ha]
    · rw [actions, ha]
      exact decided_of_quiet quiet
  | shown link he => exact absurd he (apart link)
  | edited x he hx route ls hc ha =>
    have revised : Quiet s ((s.revised x route ls).withDirect false) := quiet
    refine .edited ?_ _ revised.refreshMarkers rfl rfl ha
    rw [he]
    exact course_of_carriesOut hx
  | navigated link he => exact absurd he (apart link)
  | answered l result he hw focusOn es hes ht ha =>
    have answered : Quiet s (s.answered l result) := quiet
    exact .answered l result he hw _ (answered.shown focusOn hes).refreshMarkers rfl rfl ha

private theorem keepsHistory_after (h : s.route.WellFormed) (e : Event) :
    (s.after e).dispatcher.keepsHistory = s.dispatcher.keepsHistory := by
  cases turn h e with
  | kept _ _ _ _ _ hd _ _ _ => rw [hd]
  | stale l result he hw ha => rw [ha]
  | shown link he hn route ls focusOn es hc hes ha =>
    rw [ha]
    rfl
  | edited x he hx route ls hc ha =>
    rw [ha, evaluate_dispatcher]
    exact Dispatcher.evaluate_keepsHistory _ _ _ _ _
  | navigated link he hn route ls hc ha =>
    rw [ha, evaluate_dispatcher]
    exact Dispatcher.evaluate_keepsHistory _ _ _ _ _
  | answered l result he hw focusOn es hes ht ha =>
    rw [ha, evaluate_dispatcher]
    exact Dispatcher.evaluate_keepsHistory _ _ _ _ _

theorem Reachable.wellFormed (h : s.Reachable) : s.route.WellFormed := h.settled.wellFormed

private theorem keepsHistory_play (h : s.Reachable) (es : List Event) :
    (s.play es).dispatcher.keepsHistory = s.dispatcher.keepsHistory := by
  induction es generalizing s with
  | nil => rfl
  | cons e es ih => exact (ih (h.after e)).trans (keepsHistory_after h.wellFormed e)

/-- After an event the next request passes the history by if the event was a link, or if that was so
before and the event kept the course. -/
private theorem direct_after (h : s.route.WellFormed) (hd : (s.after e).dispatcher.direct = true) :
    (∃ link, s.course e = [.navigated link] ∧ 2 ≤ link.nonBlankPoints) ∨
      (s.course e = [] ∧ s.dispatcher.direct = true) := by
  cases bearing h e with
  | edited hc t hq hk off ha =>
    rw [ha, evaluate_dispatcher] at hd
    have on := Dispatcher.direct_of_evaluate _ _ _ _ _ hd
    rw [off] at on
    cases on
  | shown link hc off hb ha =>
    rw [off] at hd
    cases hd
  | navigated link he hn t hq on ha => exact .inl ⟨link, course_of_asksFor he, hn⟩
  | kept hc hr same ha => exact .inr ⟨hc, same.symm.trans hd⟩
  | answered l result he hw t hq hr same ha =>
    rw [ha, evaluate_dispatcher] at hd
    have on := Dispatcher.direct_of_evaluate _ _ _ _ _ hd
    rw [same] at on
    right
    rw [he]
    exact ⟨rfl, on⟩

/-- The next request passes the history by only if a link with two or more texts was the last change
of course. -/
private theorem navigated_of_direct (config : SessionConfig) (historyAvailable : Bool) (clock : Instant)
    (es : List Event)
    (hd : ((start config historyAvailable clock).play es).dispatcher.direct = true) :
    ∃ link, (record course (start config historyAvailable clock) es).getLast? =
      some (.navigated link) ∧ 2 ≤ link.nonBlankPoints := by
  induction es using List.reverseRecOn with
  | nil => cases hd
  | append_singleton es e ih =>
    have reachable := (Reachable.start config historyAvailable clock).play es
    rw [play_concat] at hd
    rw [record_concat]
    rcases direct_after reachable.wellFormed hd with ⟨link, hc, hn⟩ | ⟨hc, before⟩
    · refine ⟨link, ?_, hn⟩
      rw [hc, List.getLast?_concat]
    · rw [hc, List.append_nil]
      exact ih before

/-- With a history, a request is dispatched by a link, or by an answer while the history is passed
by. -/
private theorem dispatch_cases (h : s.route.WellFormed) (hk : s.dispatcher.keepsHistory = true) {d : Dispatch}
    (hd : .dispatch d ∈ s.actions e) :
    (∃ link, s.asksFor link e ∧ 2 ≤ link.nonBlankPoints) ∨
      ((∃ l result, e = .completeLookup l result) ∧ s.dispatcher.direct = true) := by
  cases bearing h e with
  | edited hc t hq same off ha =>
    have on := Dispatcher.direct_of_dispatch (same.trans hk) (evaluated_of_mem hq ha hd)
    rw [off] at on
    cases on
  | shown link hc off hb ha =>
    rw [ha] at hd
    cases hd
  | navigated link he hn t hq on ha => exact .inl ⟨link, he, hn⟩
  | kept hc hr same ha =>
    rw [ha] at hd
    cases hd
  | answered l result he hw t hq hr same ha =>
    have on := Dispatcher.direct_of_dispatch (same ▸ hk) (evaluated_of_mem hq ha hd)
    exact .inr ⟨⟨l, result, he⟩, same ▸ on⟩

/-- No request will be due before the next change of course: the route is ready, or will not be. -/
def Spent (s : Session) : Prop := s.isReady = true ∨ s.route.HasBlank

/-- One request may still be due before the next change of course, and it passes the history by. -/
structure Waiting (s : Session) : Prop where
  not_ready : s.isReady = false
  direct : s.dispatcher.direct = true

/-- At most one request, and none that goes through the history. -/
structure OneDirect (as : List Action) : Prop where
  length_le : as.length ≤ 1
  not_push : ∀ link, Action.push link ∉ as

private theorem OneDirect.nil : OneDirect [] := ⟨Nat.zero_le _, fun _ => List.not_mem_nil⟩

/-- An event after which the route is not ready decides nothing. -/
theorem actions_of_not_ready (h : s.Settled) (hr : (s.after e).isReady = false) : s.actions e = [] := by
  obtain ⟨atMost, one⟩ := h.actions_length e
  refine List.eq_nil_of_length_eq_zero ?_
  by_contra some
  have ready := (one.mp (by omega)).1
  rw [hr] at ready
  cases ready

/-- An evaluation while the history is passed by decides nothing and leaves it so, or it decides
without the history and no further request will be due. -/
theorem evaluated_direct (h : s.Settled) {t : Session} {always : Bool} (hq : Quiet s t)
    (hd : t.dispatcher.direct = true) (ha : s.after e = t.evaluate always) :
    (s.actions e = [] ∧ (s.after e).Waiting) ∨ (OneDirect (s.actions e) ∧ (s.after e).Spent) := by
  cases ready : (s.after e).isReady with
  | true =>
    refine .inr ⟨⟨(h.actions_length e).1, fun link hm => ?_⟩, .inl ready⟩
    exact Dispatcher.ne_push_of_direct hd link (evaluated_of_mem hq ha hm)
  | false =>
    refine .inl ⟨actions_of_not_ready h ready, ready, ?_⟩
    have notDue : t.dispatcher.due t.route always = false := by
      rw [isReady, ha, evaluate_route] at ready
      rw [Dispatcher.due, ready]
      rfl
    rw [ha, evaluate_dispatcher, t.dispatcher.evaluate_of_not_due t.route t.options t.clock notDue]
    exact hd

private theorem Spent.after (h : s.Settled) (hs : s.Spent) (hc : s.course e = []) :
    s.actions e = [] ∧ (s.after e).Spent := by
  cases bearing h.wellFormed e with
  | edited edited =>
    rw [hc] at edited
    cases edited
  | shown link shown =>
    rw [hc] at shown
    cases shown
  | navigated link he =>
    rw [course_of_asksFor he] at hc
    cases hc
  | kept _ hr _ ha =>
    refine ⟨ha, ?_⟩
    rw [Spent, isReady, hr]
    exact hs
  | answered l result he hw t hq hr same ha =>
    have blank : s.route.HasBlank := by
      rcases hs with ready | blank
      · rw [isReady, h.wellFormed.not_ready_of_awaits hw] at ready
        cases ready
      · exact blank
    have still : (s.after e).route.HasBlank := by
      rw [ha, evaluate_route, hr]
      exact blank.modify h.wellFormed l.stop fun stop => (stop.resolveWith_kept result).2.1
    exact ⟨actions_of_not_ready h (still.not_ready (h.after e).wellFormed), .inr still⟩

private theorem Waiting.after (h : s.Settled) (hw : s.Waiting) (hc : s.course e = []) :
    (s.actions e = [] ∧ (s.after e).Waiting) ∨ (OneDirect (s.actions e) ∧ (s.after e).Spent) := by
  cases bearing h.wellFormed e with
  | edited edited =>
    rw [hc] at edited
    cases edited
  | shown link shown =>
    rw [hc] at shown
    cases shown
  | navigated link he =>
    rw [course_of_asksFor he] at hc
    cases hc
  | kept _ hr same ha =>
    refine .inl ⟨ha, ?_, same.trans hw.direct⟩
    rw [isReady, hr]
    exact hw.not_ready
  | answered l result he _ t hq hr same ha =>
    exact evaluated_direct h hq (same ▸ hw.direct) ha

/-- After a link no request will be due, or one that passes the history by. -/
private theorem after_link (h : s.Settled) {link : Link} (he : s.asksFor link e) :
    (s.actions e = [] ∧ (s.after e).Waiting) ∨ (OneDirect (s.actions e) ∧ (s.after e).Spent) := by
  have navigated := course_of_asksFor he
  cases bearing h.wellFormed e with
  | edited hc =>
    rw [hc] at navigated
    cases navigated
  | shown _ _ _ hb ha =>
    rw [ha]
    exact .inr ⟨.nil, .inr hb⟩
  | navigated _ _ _ t hq direct ha => exact evaluated_direct h hq direct ha
  | kept hc =>
    rw [hc] at navigated
    cases navigated
  | answered l result hl =>
    rw [hl] at he
    exact he.elim

theorem Spent.record_actions (h : s.Settled) (hs : s.Spent) {fs : List Event}
    (hf : record course s fs = []) : record actions s fs = [] := by
  induction fs generalizing s with
  | nil => rfl
  | cons f fs ih =>
    obtain ⟨hc, hf⟩ := List.append_eq_nil_iff.mp hf
    obtain ⟨none, still⟩ := hs.after h hc
    rw [record, none, List.nil_append]
    exact ih (h.after f) still hf

private theorem Waiting.record_actions (h : s.Settled) (hw : s.Waiting) {fs : List Event}
    (hf : record course s fs = []) : OneDirect (record actions s fs) := by
  induction fs generalizing s with
  | nil => exact .nil
  | cons f fs ih =>
    obtain ⟨hc, hf⟩ := List.append_eq_nil_iff.mp hf
    rw [record]
    rcases hw.after h hc with ⟨none, still⟩ | ⟨one, spent⟩
    · rw [none, List.nil_append]
      exact ih (h.after f) still hf
    · rw [spent.record_actions (h.after f) hf, List.append_nil]
      exact one

/-- A session with a history neither passes it by nor loops. A request is dispatched only by a link
with two or more texts, or by an answer to a lookup when such a link was the last thing that changed
the course. And from a link on until the next change of course, whatever comes, nothing is pushed to
the history and at most one request is dispatched or refused. -/
theorem history_neither_bypassed_nor_looped (config : SessionConfig) (clock : Instant)
    (es : List Event) (e : Event) :
    let first := start { config with historyEnabled := true } true clock
    let s := first.play es
    (∀ d, .dispatch d ∈ s.actions e →
      (∃ link, s.asksFor link e ∧ 2 ≤ link.nonBlankPoints) ∨
      ((∃ l result, e = .completeLookup l result) ∧ ∃ link,
        (record course first es).getLast? = some (.navigated link) ∧ 2 ≤ link.nonBlankPoints)) ∧
    ∀ link fs, s.asksFor link e → record course (s.after e) fs = [] →
      (∀ pushed, .push pushed ∉ record actions s (e :: fs)) ∧
      (record actions s (e :: fs)).length ≤ 1 := by
  intro first s
  have began : first.Reachable := .start _ true clock
  have settled : s.Settled := (began.play es).settled
  have keeps : s.dispatcher.keepsHistory = true := keepsHistory_play began es
  constructor
  · intro d hd
    rcases dispatch_cases settled.wellFormed keeps hd with asked | ⟨answer, direct⟩
    · exact .inl asked
    · exact .inr ⟨answer, navigated_of_direct _ true clock es direct⟩
  · intro link fs asked hf
    have once : OneDirect (record actions s (e :: fs)) := by
      rw [record]
      rcases after_link settled asked with ⟨none, waiting⟩ | ⟨one, spent⟩
      · rw [none, List.nil_append]
        exact waiting.record_actions (settled.after e) hf
      · rw [spent.record_actions (settled.after e) hf, List.append_nil]
        exact one
    exact ⟨once.not_push, once.length_le⟩

end Session
end Itinerary

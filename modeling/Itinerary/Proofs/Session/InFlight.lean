import Itinerary.Proofs.Session.Acceptance
import Mathlib.Data.List.Induction
import Mathlib.Data.List.Infix

/-! Which requests are in flight: those whose answer has not come, as long as no newer one has been
answered. -/
namespace Itinerary

/-- What is kept of a request while it is in flight. -/
def Dispatch.ticket (d : Dispatch) : Nat × Bool := (d.number, d.zoom)

namespace Session

/-- The number of the request that an event answers. -/
def Event.answer? : Event → Option Nat
  | .completeRequest number _ => some number
  | _ => none

/-- The numbers that a run delivers answers to. -/
def answeredNumbers (es : List Event) : List Nat := es.filterMap Event.answer?

/-- Answers come only for requests that were sent out before. -/
def AnswersSent (s : Session) (es : List Event) : Prop :=
  ∀ past, past <+: es → answeredNumbers past ⊆ record sentNumbers s past

instance (s : Session) (es : List Event) : Decidable (s.AnswersSent es) :=
  decidable_of_iff (∀ past ∈ es.inits, answeredNumbers past ⊆ record sentNumbers s past)
    (by simp only [AnswersSent, List.mem_inits])

/-- The answers that an event displays. -/
def answersShown (s : Session) (e : Event) : List Effect :=
  ((s.after e).outbox.drop s.outbox.length).filter Effect.isAnswer

private theorem answeredNumbers_concat (es : List Event) (e : Event) :
    answeredNumbers (es ++ [e]) = answeredNumbers es ++ e.answer?.toList := by
  rw [answeredNumbers, List.filterMap_append]
  cases h : e.answer? <;> simp [answeredNumbers, h]

variable {s t : Session}

private theorem accepted_of_answer? {e : Event} (h : e.answer? = none) : s.accepted e = [] := by
  cases e with
  | completeRequest number result => cases h
  | _ => rfl

private theorem eq_of_answer? {e : Event} {number : Nat} (h : e.answer? = some number) :
    ∃ result, e = .completeRequest number result := by
  cases e with
  | completeRequest other result =>
    cases h
    exact ⟨result, rfl⟩
  | _ => cases h

theorem newRequests_completeRequest (s : Session) (number : Nat) (result : RoutingResult) :
    s.newRequests (.completeRequest number result) = [] := by
  have same : (s.after (.completeRequest number result)).requests = s.requests :=
    (completeRequest_queues s number result).2
  rw [newRequests, same]
  exact List.drop_length

theorem record_sentNumbers (s : Session) (es : List Event) :
    record sentNumbers s es = (record newRequests s es).map Dispatch.number := by
  induction es generalizing s with
  | nil => rfl
  | cons e es ih =>
    rw [record, record, List.map_append, ih]
    rfl

private theorem perform_inFlight (s : Session) (a : Action) :
    (s.perform a).inFlight = s.inFlight ++ a.dispatch?.toList.map Dispatch.ticket := by
  cases a <;> simp [perform, emit, Action.dispatch?, Dispatch.ticket]

private theorem evaluate_inFlight (s : Session) (always : Bool) : (s.evaluate always).inFlight = s.inFlight ++
    (s.dispatcher.evaluate s.route s.options s.clock always).1.dispatch?.toList.map Dispatch.ticket :=
  perform_inFlight _ _

/-- An evaluation puts in flight what it sends out. -/
theorem inFlight_of_evaluate {e : Event} {always : Bool} (he : s.after e = t.evaluate always)
    (hr : t.requests = s.requests) (hi : t.inFlight = s.inFlight) :
    (s.after e).inFlight = s.inFlight ++ (s.newRequests e).map Dispatch.ticket := by
  rw [newRequests, he, evaluate_requests, hr, List.drop_left, evaluate_inFlight, hi]

private theorem inFlight_of_same {e : Event} (he : s.after e = t) (hr : t.requests = s.requests)
    (hi : t.inFlight = s.inFlight) :
    (s.after e).inFlight = s.inFlight ++ (s.newRequests e).map Dispatch.ticket := by
  rw [newRequests, he, hr, hi, List.drop_length, List.map_nil, List.append_nil]

private theorem inFlight_navigate (w : s.route.WellFormed) {e : Event} {link : Link}
    (he : s.after e = s.navigate link) :
    (s.after e).inFlight = s.inFlight ++ (s.newRequests e).map Dispatch.ticket := by
  rcases Nat.lt_or_ge 1 link.nonBlankPoints with hn | hn
  · obtain ⟨route, ls, _, hl⟩ := navigate_many w hn
    exact inFlight_of_evaluate (he.trans hl) rfl rfl
  · obtain ⟨route, ls, focusOn, es, _, _, hl⟩ := navigate_few w hn
    exact inFlight_of_same (he.trans hl) rfl rfl

/-- Any event but an answer to a request puts in flight what it sends out, and no more. -/
private theorem inFlight_after (w : s.route.WellFormed) {e : Event} (he : e.answer? = none) :
    (s.after e).inFlight = s.inFlight ++ (s.newRequests e).map Dispatch.ticket := by
  cases e with
  | edit x =>
    cases edit_cases w x with
    | refused error h =>
      exact inFlight_of_same (congrArg Prod.snd h) rfl rfl
    | skipped hs h =>
      exact inFlight_of_same (congrArg Prod.snd h) rfl rfl
    | done hs route ls hc h =>
      exact inFlight_of_evaluate ((congrArg Prod.snd h).trans (afterEdit_eq _)) rfl rfl
  | selectAlternative index =>
    obtain ⟨selected, es, _, same⟩ := selectAlternative_cases s index
    exact inFlight_of_same same rfl rfl
  | navigate link => exact inFlight_navigate w rfl
  | navigateText text =>
    rcases navigateText_cases s text with ⟨error, h⟩ | ⟨link, _, h⟩
    · exact inFlight_of_same (congrArg Prod.snd h) rfl rfl
    · exact inFlight_navigate w (congrArg Prod.snd h)
  | takeRequests =>
    have none : s.newRequests .takeRequests = [] := List.drop_nil
    rw [none, List.map_nil, List.append_nil]
    rfl
  | completeLookup l result =>
    cases hw : s.route.awaits l with
    | false =>
      exact inFlight_of_same (congrArg Prod.snd (completeLookup_stale hw result)) rfl rfl
    | true =>
      obtain ⟨status, focusOn, es, _, h⟩ := completeLookup_applied hw result
      exact inFlight_of_evaluate (congrArg Prod.snd h) rfl rfl
  | completeRequest number result => cases he
  | takeLookups => exact inFlight_of_same rfl rfl rfl
  | setClock now => exact inFlight_of_same rfl rfl rfl
  | collect => exact inFlight_of_same rfl rfl rfl
  | geocode queries => exact inFlight_of_same rfl rfl rfl
  | findRoute payload => exact inFlight_of_same rfl rfl rfl

/-- The request with this number is waited for, when these numbers have been answered and the answers
to those were applied. -/
def waited (answered got : List Nat) (number : Nat) : Bool :=
  number ∉ answered && got.all (· < number)

private theorem waited_concat (answered got : List Nat) (number n : Nat) :
    waited (answered ++ [n]) got number = (waited answered got number && number != n) := by
  rw [Bool.eq_iff_iff]
  simp [waited]
  tauto

private theorem waited_apply (answered got : List Nat) (number n : Nat) :
    waited (answered ++ [n]) (got ++ [n]) number = (waited (answered ++ [n]) got number && n < number) := by
  simp [waited, Bool.and_assoc]

/-- How the requests in flight stand to those sent out, those answered, and those whose answer was
applied. -/
structure Flying (s : Session) (sent : List Dispatch) (answered got : List Nat) : Prop where
  numbered : s.NumberedBy (sent.map Dispatch.number) got
  known : answered ⊆ sent.map Dispatch.number
  newest : s.dispatcher.lastNumber ∈ answered → s.dispatcher.lastNumber ∈ got
  inFlight_eq : s.inFlight = (sent.filter fun d => waited answered got d.number).map Dispatch.ticket

namespace Flying
variable {sent : List Dispatch} {answered got : List Nat}

private theorem number_le (h : Flying s sent answered got) {n : Nat} (hn : n ∈ sent.map Dispatch.number) :
    1 ≤ n ∧ n ≤ s.dispatcher.lastNumber := by
  rw [h.numbered.sent_eq, List.mem_range'_1] at hn
  omega

/-- What is sent out is newer than all that was sent before. -/
private theorem last_lt (h : Flying s sent answered got) (hs : s.Settled) {e : Event} {d : Dispatch}
    (hd : d ∈ s.newRequests e) : s.dispatcher.lastNumber < d.number := by
  have next := (h.numbered.after hs e).sent_eq
  have distinct : (sent.map Dispatch.number ++ s.sentNumbers e).Nodup := by
    rw [next]
    exact List.nodup_range'
  have fresh := (List.nodup_append.mp distinct).2.2
  have sentNow : d.number ∈ s.sentNumbers e := List.mem_map_of_mem hd
  have bounds : d.number ∈ List.range' 1 (s.after e).dispatcher.lastNumber := by
    rw [← next]
    exact List.mem_append_right _ sentNow
  by_contra old
  refine fresh d.number ?_ d.number sentNow rfl
  rw [h.numbered.sent_eq, List.mem_range'_1]
  rw [List.mem_range'_1] at bounds
  omega

/-- Events that answer no request. -/
private theorem send (h : Flying s sent answered got) (hs : s.Settled) {e : Event} (he : e.answer? = none) :
    Flying (s.after e) (sent ++ s.newRequests e) answered got := by
  have numbered := h.numbered.after hs e
  rw [accepted_of_answer? he, List.append_nil, sentNumbers, ← List.map_append] at numbered
  refine ⟨numbered, ?_, ?_, ?_⟩
  · rw [List.map_append]
    exact List.subset_append_of_subset_left _ h.known
  · intro ha
    have old := (h.number_le (h.known ha)).2
    have counted := congrArg List.length numbered.sent_eq
    have before := congrArg List.length h.numbered.sent_eq
    rw [List.length_range', List.length_map, List.length_append] at counted
    rw [List.length_range', List.length_map] at before
    have same : (s.after e).dispatcher.lastNumber = s.dispatcher.lastNumber := by omega
    rw [same] at ha ⊢
    exact h.newest ha
  · have fresh : (s.newRequests e).filter (fun d => waited answered got d.number) = s.newRequests e := by
      rw [List.filter_eq_self]
      intro d hd
      have above := h.last_lt hs hd
      have unanswered : d.number ∉ answered := by
        intro ha
        have old := (h.number_le (h.known ha)).2
        omega
      have newer : ∀ n ∈ got, n < d.number := by
        intro n hn
        exact Nat.lt_of_le_of_lt (h.numbered.got_le n hn) above
      simpa [waited, unanswered] using newer
    rw [inFlight_after hs.wellFormed he, h.inFlight_eq, List.filter_append, fresh, List.map_append]

/-- The answer to a request that was sent out. -/
theorem answer (h : Flying s sent answered got) (hs : s.Settled) {number : Nat}
    (hn : number ∈ sent.map Dispatch.number) (result : RoutingResult) :
    Flying (s.after (.completeRequest number result)) sent (answered ++ [number])
      (got ++ s.accepted (.completeRequest number result)) := by
  have numbered := h.numbered.after hs (.completeRequest number result)
  rw [sentNumbers, newRequests_completeRequest, List.map_nil, List.append_nil] at numbered
  have known : answered ++ [number] ⊆ sent.map Dispatch.number := by
    exact List.append_subset.mpr ⟨h.known, List.cons_subset.mpr ⟨hn, List.nil_subset _⟩⟩
  have rest : s.inFlight.filter (·.1 != number) =
      (sent.filter fun d => waited (answered ++ [number]) got d.number).map Dispatch.ticket := by
    rw [h.inFlight_eq, List.filter_map, List.filter_filter]
    congr 2
    funext d
    rw [waited_concat, Bool.and_comm]
    rfl
  by_cases ha : s.accepts number
  · obtain ⟨es, _, he⟩ := completeRequest_accepted ha result
    have after := congrArg Prod.snd he
    have applied : s.accepted (.completeRequest number result) = [number] := by
      rw [accepted, he]
      rfl
    rw [applied] at numbered ⊢
    refine ⟨numbered, known, fun _ => ?_, ?_⟩
    · have last : (s.after (.completeRequest number result)).dispatcher.lastNumber = number :=
        (congrArg (·.dispatcher.lastNumber) after).trans ha.1.symm
      rw [last]
      exact List.mem_append_right _ (List.mem_singleton_self _)
    · refine (congrArg inFlight after).trans ?_
      change (s.inFlight.filter (·.1 != number)).filter (number < ·.1) = _
      rw [rest, List.filter_map, List.filter_filter]
      congr 2
      funext d
      rw [waited_apply, Bool.and_comm]
      rfl
  · have he := completeRequest_refused ha result
    have after := congrArg Prod.snd he
    have refused : s.accepted (.completeRequest number result) = [] := by
      rw [accepted, he]
      rfl
    rw [refused, List.append_nil] at numbered ⊢
    refine ⟨numbered, known, fun hl => ?_, (congrArg inFlight after).trans rest⟩
    have last : (s.after (.completeRequest number result)).dispatcher.lastNumber =
        s.dispatcher.lastNumber := congrArg (·.dispatcher.lastNumber) after
    rw [last] at hl ⊢
    rcases List.mem_append.mp hl with hl | hl
    · exact h.newest hl
    · -- The newest request is refused only if its answer was applied before.
      have same : number = s.dispatcher.lastNumber := (List.mem_singleton.mp hl).symm
      have applied : s.dispatcher.appliedNumber = some number := by
        by_contra other
        exact ha ⟨same, other⟩
      rw [← same]
      exact h.numbered.applied_mem number applied

private theorem after (h : Flying s sent answered got) (hs : s.Settled) {e : Event}
    (known : answered ++ e.answer?.toList ⊆ sent.map Dispatch.number ++ s.sentNumbers e) :
    Flying (s.after e) (sent ++ s.newRequests e) (answered ++ e.answer?.toList)
      (got ++ s.accepted e) := by
  cases ha : e.answer? with
  | none =>
    rw [accepted_of_answer? ha, Option.toList_none, List.append_nil, List.append_nil]
    exact h.send hs ha
  | some number =>
    obtain ⟨result, rfl⟩ := eq_of_answer? ha
    have sentBefore : number ∈ sent.map Dispatch.number ++ s.sentNumbers (.completeRequest number result) :=
      known (List.mem_append_right _ (List.mem_singleton_self _))
    rw [sentNumbers, newRequests_completeRequest, List.map_nil, List.append_nil] at sentBefore
    rw [newRequests_completeRequest, List.append_nil]
    exact h.answer hs sentBefore result

end Flying

/-- As long as answers come only for requests that were sent out, what is in flight is known. -/
private theorem play_flying {config : SessionConfig} {historyAvailable : Bool} {clock : Instant}
    {es : List Event} (h : (start config historyAvailable clock).AnswersSent es) :
    Flying ((start config historyAvailable clock).play es)
      (record newRequests (start config historyAvailable clock) es) (answeredNumbers es)
      (record accepted (start config historyAvailable clock) es) := by
  induction es using List.reverseRecOn with
  | nil => exact ⟨Numbered.start, List.nil_subset _, fun ha => absurd ha List.not_mem_nil, rfl⟩
  | append_singleton es e ih =>
    have flying := ih fun past hp => h past (hp.trans (List.prefix_append es [e]))
    have settled := ((Reachable.start config historyAvailable clock).play es).settled
    have known := h _ (List.prefix_refl _)
    rw [record_concat, record_sentNumbers, answeredNumbers_concat] at known
    rw [play_concat, record_concat, record_concat, answeredNumbers_concat]
    exact flying.after settled known

namespace Flying
variable {sent : List Dispatch} {answered got : List Nat}

private theorem mem_inFlight (h : Flying s sent answered got) (number : Nat) (zoom : Bool) :
    (number, zoom) ∈ s.inFlight ↔ ∃ d ∈ sent, d.number = number ∧ d.zoom = zoom ∧
      number ∉ answered ∧ ∀ n ∈ got, n < number := by
  rw [h.inFlight_eq, List.mem_map]
  constructor
  · rintro ⟨d, hd, he⟩
    cases he
    obtain ⟨sentOut, hw⟩ := List.mem_filter.mp hd
    exact ⟨d, sentOut, rfl, rfl, by simpa [waited] using hw⟩
  · rintro ⟨d, sentOut, rfl, rfl, hw⟩
    exact ⟨d, List.mem_filter.mpr ⟨sentOut, by simpa [waited] using hw⟩, rfl⟩

private theorem sent_nodup (h : Flying s sent answered got) : (sent.map Dispatch.number).Nodup := by
  rw [h.numbered.sent_eq]
  exact List.nodup_range'

private theorem keys_nodup (h : Flying s sent answered got) : (s.inFlight.map Prod.fst).Nodup := by
  have keys : s.inFlight.map Prod.fst =
      (sent.filter fun d => waited answered got d.number).map Dispatch.number := by
    rw [h.inFlight_eq, List.map_map]
    rfl
  rw [keys]
  exact h.sent_nodup.sublist (List.filter_sublist.map _)

/-- The newest request is in flight until its answer is applied. -/
private theorem newest_inFlight (h : Flying s sent answered got) {d : Dispatch} (hd : d ∈ sent)
    (ha : s.accepts d.number) : (d.number, d.zoom) ∈ s.inFlight := by
  obtain ⟨last, other⟩ := ha
  have unapplied : d.number ∉ got := fun hg => other (last ▸ h.numbered.last_applied (last ▸ hg))
  refine (h.mem_inFlight _ _).mpr ⟨d, hd, rfl, rfl, fun ha => ?_, fun n hn => ?_⟩
  · rw [last] at ha unapplied
    exact unapplied (h.newest ha)
  · have below := h.numbered.got_le n hn
    have apart : n ≠ d.number := fun he => unapplied (he ▸ hn)
    omega

private theorem zoomOf_eq (h : Flying s sent answered got) {number : Nat} {zoom : Bool}
    (hm : (number, zoom) ∈ s.inFlight) : s.zoomOf number = zoom := by
  have found : s.inFlight.find? (·.1 == number) = some (number, zoom) := by
    cases hf : s.inFlight.find? (·.1 == number) with
    | none => exact absurd (List.find?_eq_none.mp hf _ hm) (by simp)
    | some k =>
      have key : k.1 = number := by simpa using List.find?_some hf
      exact congrArg some (List.inj_on_of_nodup_map h.keys_nodup (List.mem_of_find?_eq_some hf) hm key)
  rw [zoomOf, found]
  rfl

end Flying

theorem answersShown_of_accepts {number : Nat} (ha : s.accepts number) (result : RoutingResult) :
    s.answersShown (.completeRequest number result) = [.ofResult (s.zoomOf number) result] := by
  obtain ⟨es, hes, he⟩ := completeRequest_accepted ha result
  have shown : (s.after (.completeRequest number result)).outbox =
      s.outbox ++ Effect.ofResult (s.zoomOf number) result :: es :=
    congrArg (·.2.outbox) he
  have heard : (Effect.ofResult (s.zoomOf number) result).isAnswer = true := by cases result <;> rfl
  rw [answersShown, shown, List.drop_left, List.filter_cons_of_pos heard, hes.filter_isAnswer]

/-- In every run in which answers come only for requests that were sent out: the requests are numbered
from one on without a gap; in flight, each under its number and with its own zoom, are those that have
not been answered and are newer than every one whose answer was applied; once an answer is applied
none is in flight; and a response that is applied is in flight until then, and is shown with the zoom
of its own request. -/
theorem inFlight_throughout (config : SessionConfig) (historyAvailable : Bool) (clock : Instant)
    (es : List Event) (h : (start config historyAvailable clock).AnswersSent es) :
    let first := start config historyAvailable clock
    let s := first.play es
    let sent := record newRequests first es
    sent.map Dispatch.number = List.range' 1 sent.length ∧ s.dispatcher.lastNumber = sent.length ∧
    (s.inFlight.map Prod.fst).Nodup ∧
    (∀ number zoom, (number, zoom) ∈ s.inFlight ↔ ∃ d ∈ sent, d.number = number ∧ d.zoom = zoom ∧
      number ∉ answeredNumbers es ∧ ∀ n ∈ record accepted first es, n < number) ∧
    (∀ number result, (s.completeRequest number result).1 = true →
      (s.completeRequest number result).2.inFlight = []) ∧
    ∀ d ∈ sent, ∀ response, (s.completeRequest d.number (.ok response)).1 = true →
      (d.number, d.zoom) ∈ s.inFlight ∧
      s.answersShown (.completeRequest d.number (.ok response)) = [.showPaths response.paths 0 d.zoom] := by
  intro first s sent
  have flying : Flying s sent (answeredNumbers es) (record accepted first es) := play_flying h
  have count : s.dispatcher.lastNumber = sent.length := by
    have counted := congrArg List.length flying.numbered.sent_eq
    rw [List.length_range', List.length_map] at counted
    exact counted.symm
  refine ⟨?_, count, flying.keys_nodup, flying.mem_inFlight, fun number result ha => ?_,
    fun d hd response ha => ?_⟩
  · rw [← count]
    exact flying.numbered.sent_eq
  · have accepts := (completeRequest_fst s number result).mp ha
    obtain ⟨es, _, he⟩ := completeRequest_accepted accepts result
    rw [he]
    change (s.inFlight.filter (·.1 != number)).filter (number < ·.1) = []
    rw [List.filter_eq_nil_iff]
    intro k hk newer
    obtain ⟨d, hd, key, _⟩ := (flying.mem_inFlight k.1 k.2).mp (List.mem_filter.mp hk).1
    have old := (flying.number_le (List.mem_map_of_mem hd)).2
    rw [key, ← accepts.1] at old
    exact absurd (of_decide_eq_true newer) (Nat.not_lt.mpr old)
  · have accepts := (completeRequest_fst s d.number (.ok response)).mp ha
    have inFlight := flying.newest_inFlight hd accepts
    refine ⟨inFlight, ?_⟩
    rw [answersShown_of_accepts accepts, flying.zoomOf_eq inFlight]
    rfl

/-- Both stops are found, the link of the journey is opened again without zoom, and the first of the
two requests fails. -/
def twoSent : List Event :=
  [.edit (.setInput 0 "Bonn"), .edit (.setInput 1 "Köln"),
    .completeLookup ⟨⟨1⟩, "Bonn", 1⟩ (.ok [⟨50.7, 7.1, "Bonn"⟩]),
    .completeLookup ⟨⟨2⟩, "Köln", 1⟩ (.ok [⟨50.9, 7.0, "Köln"⟩]),
    .navigate { points := ["Bonn", "Köln"], options := {}, zoom := false, token := none },
    .completeRequest 1 (.error (.transport "timeout"))]

/-- The second one is in flight, and its response leaves the map where it is. -/
theorem second_inFlight :
    let first := start {} false ⟨0, 0⟩
    let s := first.play twoSent
    first.AnswersSent twoSent ∧ ∃ d ∈ record newRequests first twoSent, d.number = 2 ∧
      (∀ response, (s.completeRequest 2 (.ok response)).1 = true) ∧ (2, false) ∈ s.inFlight ∧
      ∀ response, s.answersShown (.completeRequest 2 (.ok response)) =
        [.showPaths response.paths 0 false] := by
  intro first s
  have answers : first.AnswersSent twoSent := by decide +kernel
  have numbers : (record newRequests first twoSent).map Dispatch.ticket = [(1, true), (2, false)] := by
    decide +kernel
  have newest : s.accepts 2 := by
    have last : s.dispatcher.lastNumber = 2 ∧ s.dispatcher.appliedNumber ≠ some 2 := by decide +kernel
    exact ⟨last.1.symm, last.2⟩
  have counts (response : Response) : (s.completeRequest 2 (.ok response)).1 = true :=
    (completeRequest_fst s 2 (.ok response)).mpr newest
  have second : (2, false) ∈ (record newRequests first twoSent).map Dispatch.ticket := by
    rw [numbers]
    exact List.mem_cons_of_mem _ (List.mem_singleton_self _)
  obtain ⟨d, hd, hk⟩ := List.mem_map.mp second
  obtain ⟨hn, hz⟩ := Prod.mk.inj hk
  have all := (inFlight_throughout {} false ⟨0, 0⟩ twoSent answers).2.2.2.2.2 d hd
  rw [hn, hz] at all
  refine ⟨answers, d, hd, hn, counts, ?_, fun response => (all response (counts response)).2⟩
  exact (all ⟨[]⟩ (counts _)).1

end Session
end Itinerary

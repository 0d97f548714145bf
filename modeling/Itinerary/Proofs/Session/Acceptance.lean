import Itinerary.Proofs.Session.Readiness

/-! Which answers to requests are applied: the newest request's, and once. The numbers of a session
count its requests, and number zero, under which none was sent, is taken for the newest one until the
first is sent. -/
namespace Itinerary.Session

/-- How the dispatcher's two numbers stand to the numbers sent out and to those whose answers were
applied. -/
structure Numbered (last : Nat) (applied : Option Nat) (sent got : List Nat) : Prop where
  sent_eq : sent = List.range' 1 last
  got_le : ∀ n ∈ got, n ≤ last
  applied_mem : ∀ n, applied = some n → n ∈ got
  last_applied : last ∈ got → applied = some last

namespace Numbered
variable {last : Nat} {applied : Option Nat} {sent got : List Nat}

theorem start : Numbered 0 none [] [] where
  sent_eq := rfl
  got_le := by simp
  applied_mem := by simp
  last_applied := by simp

private theorem send (h : Numbered last applied sent got) :
    Numbered (last + 1) applied (sent ++ [last + 1]) got where
  sent_eq := by rw [h.sent_eq, List.range'_1_concat, Nat.add_comm 1 last]
  got_le n hn := Nat.le_succ_of_le (h.got_le n hn)
  applied_mem := h.applied_mem
  last_applied hm := by
    have := h.got_le _ hm
    omega

private theorem apply (h : Numbered last applied sent got) :
    Numbered last (some last) sent (got ++ [last]) where
  sent_eq := h.sent_eq
  got_le n hn := by
    rcases List.mem_append.mp hn with hn | hn
    · exact h.got_le n hn
    · exact Nat.le_of_eq (List.mem_singleton.mp hn)
  applied_mem n hn := by
    cases hn
    exact List.mem_append_right _ (List.mem_singleton_self _)
  last_applied _ := rfl

private theorem getLast?_sent (h : Numbered last applied sent got) (number : Nat) :
    (sent.getLast? = some number ∨ (sent = [] ∧ number = 0)) ↔ number = last := by
  rw [h.sent_eq]
  cases last with
  | zero => simp
  | succ last =>
    rw [List.range'_1_concat, List.getLast?_concat]
    constructor
    · rintro (he | ⟨he, _⟩)
      · cases he
        omega
      · simp at he
    · intro he
      left
      rw [he, Nat.add_comm]

/-- What the dispatcher asks of a number, said by the history of the session. -/
theorem accepts_iff (h : Numbered last applied sent got) (number : Nat) :
    (number = last ∧ applied ≠ some number) ↔
      (sent.getLast? = some number ∨ (sent = [] ∧ number = 0)) ∧ number ∉ got := by
  rw [h.getLast?_sent]
  constructor
  · rintro ⟨rfl, ha⟩
    exact ⟨rfl, fun hm => ha (h.last_applied hm)⟩
  · rintro ⟨rfl, hg⟩
    exact ⟨rfl, fun ha => hg (h.applied_mem _ ha)⟩

end Numbered

/-- The numbers of the requests that an event sent out. -/
def sentNumbers (s : Session) (e : Event) : List Nat := (s.newRequests e).map Dispatch.number

variable {s : Session} {sent got : List Nat}

def NumberedBy (s : Session) (sent got : List Nat) : Prop :=
  Numbered s.dispatcher.lastNumber s.dispatcher.appliedNumber sent got

theorem completeRequest_fst (s : Session) (number : Nat) (result : RoutingResult) :
    (s.completeRequest number result).1 = true ↔ s.accepts number := by
  by_cases ha : s.accepts number
  · obtain ⟨es, _, he⟩ := completeRequest_accepted ha result
    simp [he, ha]
  · simp [completeRequest_refused ha result, ha]

/-- Only the newest number is ever accepted. -/
private theorem accepted_cases (s : Session) (e : Event) :
    s.accepted e = [] ∨ s.accepted e = [s.dispatcher.lastNumber] := by
  cases e with
  | completeRequest number result =>
    by_cases ha : (s.completeRequest number result).1 = true
    · right
      obtain ⟨rfl, _⟩ := (completeRequest_fst s number result).mp ha
      simp [accepted, ha]
    · left
      simp [accepted, ha]
  | _ => exact .inl rfl

private theorem accepted_of_asksFor {e : Event} {link : Link} (h : s.asksFor link e) : s.accepted e = [] := by
  cases e with
  | completeRequest number result => exact h.elim
  | _ => rfl

/-- An evaluation sends out the next number or none. -/
private theorem NumberedBy.evaluate (h : s.NumberedBy sent got) (t : Session) (always : Bool)
    (hl : t.dispatcher.lastNumber = s.dispatcher.lastNumber)
    (ha : t.dispatcher.appliedNumber = s.dispatcher.appliedNumber)
    (hr : t.requests = s.requests) : (t.evaluate always).NumberedBy
      (sent ++ ((t.evaluate always).requests.drop s.requests.length).map Dispatch.number) got := by
  obtain ⟨applied, last, next⟩ := t.dispatcher.evaluate_numbers t.route t.options t.clock always
  rw [NumberedBy, evaluate_dispatcher, evaluate_requests, hr, List.drop_left, applied, last, hl, ha]
  cases hd : (t.dispatcher.evaluate t.route t.options t.clock always).1.dispatch? with
  | none => simpa [NumberedBy] using h
  | some q =>
    have number := next q hd
    rw [hl] at number
    simpa [number] using Numbered.send h

theorem NumberedBy.after (hs : s.Settled) (h : s.NumberedBy sent got) (e : Event) :
    (s.after e).NumberedBy (sent ++ s.sentNumbers e) (got ++ s.accepted e) := by
  cases turn hs.wellFormed e with
  | kept _ _ _ _ _ hd _ hq _ =>
    rw [NumberedBy, hd, sentNumbers, hq, List.map_nil, List.append_nil]
    rcases accepted_cases s e with ha | ha
    · rw [ha, List.append_nil]
      exact h
    · rw [ha]
      exact Numbered.apply h
  | stale l result he hw ha =>
    have none : s.accepted e = [] := by rw [he]; rfl
    rw [none, List.append_nil, sentNumbers, newRequests, ha]
    simpa [NumberedBy] using h
  | shown link he hn route ls focusOn es hc hes ha =>
    have none : s.sentNumbers e = [] := by
      rw [sentNumbers, newRequests, ha]
      exact congrArg (List.map Dispatch.number) List.drop_length
    rw [accepted_of_asksFor he, none, List.append_nil, List.append_nil, ha]
    exact h
  | edited x he hx route ls hc ha =>
    have none : s.accepted e = [] := by rw [he]; rfl
    rw [none, List.append_nil, sentNumbers, newRequests, ha]
    exact h.evaluate _ true rfl rfl rfl
  | navigated link he hn route ls hc ha =>
    rw [accepted_of_asksFor he, List.append_nil, sentNumbers, newRequests, ha]
    exact h.evaluate _ true rfl rfl rfl
  | answered l result he hw focusOn es hes ht ha =>
    have none : s.accepted e = [] := by rw [he]; rfl
    rw [none, List.append_nil, sentNumbers, newRequests, ha]
    exact h.evaluate _ false rfl rfl rfl

theorem NumberedBy.play (hs : s.Settled) (h : s.NumberedBy sent got) (es : List Event) :
    (s.play es).NumberedBy (sent ++ record sentNumbers s es) (got ++ record accepted s es) := by
  induction es generalizing s sent got with
  | nil =>
    rw [record, record, List.append_nil, List.append_nil]
    exact h
  | cons e es ih =>
    rw [record, record, ← List.append_assoc, ← List.append_assoc]
    exact ih (hs.after e) (h.after hs e)

/-- At any time of any run, an answer is applied if and only if it is to the newest request sent out,
or to number zero before any was sent, and no answer to that number was applied before; an answer
that is not applied is no longer waited for, and nothing else changes. -/
theorem completeRequest_iff_newest (config : SessionConfig) (historyAvailable : Bool)
    (clock : Instant) (es : List Event) (number : Nat) (result : RoutingResult) :
    let first := start config historyAvailable clock
    let s := first.play es
    let sent := record sentNumbers first es
    ((s.completeRequest number result).1 = true ↔
      (sent.getLast? = some number ∨ (sent = [] ∧ number = 0)) ∧
        number ∉ record accepted first es) ∧
    ((s.completeRequest number result).1 = false → (s.completeRequest number result).2 =
      { s with inFlight := s.inFlight.filter (·.1 != number) }) := by
  intro first s sent
  have numbered := NumberedBy.play (start_settled config historyAvailable clock) Numbered.start es
  rw [List.nil_append, List.nil_append] at numbered
  refine ⟨?_, fun hf => ?_⟩
  · rw [completeRequest_fst]
    exact numbered.accepts_iff number
  · have refused : ¬ s.accepts number := by
      rw [← completeRequest_fst s number result, hf]
      exact Bool.false_ne_true
    rw [completeRequest_refused refused result]

example (config : SessionConfig) (historyAvailable : Bool) (clock : Instant) (result : RoutingResult) :
    ((start config historyAvailable clock).completeRequest 0 result).1 = true := by
  cases result <;> rfl

end Itinerary.Session

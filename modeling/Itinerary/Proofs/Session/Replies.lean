import Itinerary.Proofs.Session.InFlight

/-! Answers to requests may come in any order: the newest request's is displayed, whenever it comes,
and each of the others only takes its own request out of flight. -/
namespace Itinerary.Session

/-- A request's number together with the answer to it. -/
abbrev Reply := Nat × RoutingResult

def Event.ofReply (a : Reply) : Event := .completeRequest a.1 a.2

def replies (as : List Reply) : List Event := as.map .ofReply

/-- No answer to this request has come since it was sent out. -/
def Unanswered (s : Session) (es : List Event) (number : Nat) : Prop :=
  ∀ past result, past ++ [.completeRequest number result] <+: es → number ∉ record sentNumbers s past

private theorem unanswered_of_not_mem {s : Session} {es : List Event} {number : Nat}
    (h : number ∉ answeredNumbers es) : s.Unanswered es number := by
  intro past result before
  refine absurd ?_ h
  obtain ⟨later, rfl⟩ := before
  simp [answeredNumbers, Event.answer?]

variable {s : Session}

/-- This request is no longer waited for. -/
def forget (s : Session) (number : Nat) : Session :=
  { s with inFlight := s.inFlight.filter (·.1 != number) }

private theorem forget_comm (s : Session) (m n : Nat) : (s.forget m).forget n = (s.forget n).forget m := by
  simp only [forget, List.filter_filter, Bool.and_comm]

private theorem zoomOf_forget (s : Session) {m n : Nat} (h : n ≠ m) : (s.forget m).zoomOf n = s.zoomOf n := by
  have found : (s.forget m).inFlight.find? (·.1 == n) = s.inFlight.find? (·.1 == n) := by
    rw [forget, List.find?_filter]
    congr 1
    funext k
    by_cases hk : k.1 = n
    · simp [hk, h]
    · simp [hk]
  rw [zoomOf, found]
  rfl

private theorem showDetails_forget (s : Session) (number : Nat) (response : Response) :
    (s.forget number).showDetails response = (s.showDetails response).forget number := by
  have same : (s.forget number).options = s.options := rfl
  rw [showDetails, showDetails, same]
  cases response.paths.head? with
  | none => rfl
  | some path =>
    dsimp only
    cases path.geometry s.options.elevation <;> rfl

private theorem display_forget (s : Session) (number : Nat) (response : Response) (zoom : Bool) :
    (s.forget number).display response zoom = (s.display response zoom).forget number := by
  have detailed (t : Session) :
      (if (t.forget number).options.debug then (t.forget number).showDetails response
        else t.forget number) =
        (if t.options.debug then t.showDetails response else t).forget number := by
    have same : (t.forget number).options = t.options := rfl
    rw [same, showDetails_forget]
    split <;> rfl
  exact congrArg (fun t : Session => { t with response := some response }.refreshMarkers)
    (detailed ({ s with selected := 0 }.emit [.showPaths response.paths 0 zoom]))

private theorem present_forget (s : Session) (number : Nat) (result : RoutingResult) (zoom : Bool) :
    (s.forget number).present result zoom = (s.present result zoom).forget number := by
  cases result with
  | ok response => exact display_forget s number response zoom
  | error failure => rfl

private theorem settle_forget (s : Session) (m n : Nat) : (s.forget m).settle n = (s.settle n).forget m := by
  simp only [settle, forget, List.filter_filter]
  congr 2
  funext k
  ac_rfl

/-- What becomes of one request does not depend on whether another is waited for. -/
private theorem completeRequest_forget (s : Session) {m n : Nat} (h : n ≠ m) (result : RoutingResult) :
    (s.forget m).completeRequest n result =
      ((s.completeRequest n result).1, (s.completeRequest n result).2.forget m) := by
  by_cases ha : s.accepts n
  · have accepts : (s.forget m).accepts n := ha
    rw [completeRequest_eq_present ha, completeRequest_eq_present accepts, zoomOf_forget s h,
      settle_forget, present_forget]
  · have refused : ¬ (s.forget m).accepts n := ha
    rw [completeRequest_refused ha, completeRequest_refused refused]
    exact congrArg (Prod.mk false) (forget_comm s m n)

/-- An answer to another than the newest request only takes that request out of flight. -/
theorem after_reply_old {a : Reply} (h : a.1 ≠ s.dispatcher.lastNumber) :
    s.after (.ofReply a) = s.forget a.1 := by
  have refused : ¬ s.accepts a.1 := fun accepts => h accepts.1
  exact congrArg Prod.snd (completeRequest_refused refused a.2)

private theorem lastNumber_reply (s : Session) (a : Reply) :
    (s.after (.ofReply a)).dispatcher.lastNumber = s.dispatcher.lastNumber := by
  by_cases ha : s.accepts a.1
  · obtain ⟨es, _, he⟩ := completeRequest_accepted ha a.2
    exact congrArg (·.2.dispatcher.lastNumber) he
  · exact congrArg (·.2.dispatcher.lastNumber) (completeRequest_refused ha a.2)

/-- Answers to two requests may change places, as one of the two is not the newest. -/
private theorem replies_comm (s : Session) {a b : Reply} (h : a.1 ≠ b.1) :
    (s.after (.ofReply a)).after (.ofReply b) = (s.after (.ofReply b)).after (.ofReply a) := by
  have swap (s : Session) {a b : Reply} (h : a.1 ≠ b.1) (old : b.1 ≠ s.dispatcher.lastNumber) :
      (s.after (.ofReply a)).after (.ofReply b) = (s.after (.ofReply b)).after (.ofReply a) := by
    have still : b.1 ≠ (s.after (.ofReply a)).dispatcher.lastNumber := by
      rw [lastNumber_reply]
      exact old
    rw [after_reply_old still, after_reply_old old]
    exact (congrArg Prod.snd (completeRequest_forget s h a.2)).symm
  by_cases hb : b.1 = s.dispatcher.lastNumber
  · have old : a.1 ≠ s.dispatcher.lastNumber := fun ha => h (ha.trans hb.symm)
    exact (swap s h.symm old).symm
  · exact swap s h hb

/-- Answers to different requests, in any order. -/
private theorem play_replies_perm (s : Session) {as bs : List Reply} (same : as.Perm bs)
    (distinct : (as.map Prod.fst).Nodup) : s.play (replies as) = s.play (replies bs) := by
  rw [play, play, replies, replies, List.foldl_map, List.foldl_map]
  refine same.foldl_eq' (fun a ha b hb t => ?_) s
  by_cases h : a.1 = b.1
  · rw [List.inj_on_of_nodup_map distinct ha hb h]
  · exact replies_comm t h

private theorem answersShown_of_refused {number : Nat} (h : ¬ s.accepts number) (result : RoutingResult) :
    s.answersShown (.completeRequest number result) = [] := by
  have kept : (s.after (.completeRequest number result)).outbox = s.outbox :=
    congrArg (·.2.outbox) (completeRequest_refused h result)
  rw [answersShown, kept, List.drop_length]
  rfl

/-- Nothing is displayed of answers that do not count. -/
theorem replies_refused {as : List Reply} (h : ∀ a ∈ as, ¬ s.accepts a.1) :
    record answersShown s (replies as) = [] := by
  induction as generalizing s with
  | nil => rfl
  | cons a as ih =>
    have refused := h a List.mem_cons_self
    have same : (s.after (.ofReply a)).dispatcher = s.dispatcher :=
      congrArg (·.2.dispatcher) (completeRequest_refused refused a.2)
    have later : ∀ b ∈ as, ¬ (s.after (.ofReply a)).accepts b.1 := by
      intro b hb
      rw [accepts, same]
      exact h b (List.mem_cons_of_mem _ hb)
    rw [replies, List.map_cons, record]
    exact (congrArg (· ++ _) (answersShown_of_refused refused a.2)).trans (ih later)

/-- Of answers to different requests just the newest request's is displayed. -/
private theorem replies_shown {as : List Reply} (distinct : (as.map Prod.fst).Nodup) {a : Reply} (ha : a ∈ as)
    (h : s.accepts a.1) : record answersShown s (replies as) = [.ofResult (s.zoomOf a.1) a.2] := by
  induction as generalizing s with
  | nil => cases ha
  | cons b as ih =>
    obtain ⟨apart, distinct⟩ := List.nodup_cons.mp distinct
    rw [replies, List.map_cons, record]
    rcases List.mem_cons.mp ha with rfl | ha
    · have later : ∀ b ∈ as, ¬ (s.after (.ofReply a)).accepts b.1 := by
        intro b hb accepts
        have newest := accepts.1
        rw [lastNumber_reply, ← h.1] at newest
        exact apart (newest ▸ List.mem_map_of_mem hb)
      have rest : record answersShown (s.after (.ofReply a)) (as.map .ofReply) = [] :=
        replies_refused later
      rw [rest, List.append_nil]
      exact answersShown_of_accepts h a.2
    · have other : a.1 ≠ b.1 := fun he => apart (he ▸ List.mem_map_of_mem ha)
      have old : b.1 ≠ s.dispatcher.lastNumber := fun hb => other (h.1.trans hb.symm)
      have refused : ¬ s.accepts b.1 := fun accepts => old accepts.1
      have rest := ih (s := s.forget b.1) distinct ha h
      rw [zoomOf_forget s other] at rest
      rw [after_reply_old old]
      exact (congrArg (· ++ _) (answersShown_of_refused refused b.2)).trans rest

theorem mem_record {α : Type} {note : Session → Event → List α} {s : Session} {es : List Event} {x : α}
    (h : x ∈ record note s es) : ∃ past e, past ++ [e] <+: es ∧ x ∈ note (s.play past) e := by
  induction es using List.reverseRecOn with
  | nil => cases h
  | append_singleton es e ih =>
    rw [record_concat] at h
    rcases List.mem_append.mp h with h | h
    · obtain ⟨past, e', before, hx⟩ := ih h
      exact ⟨past, e', before.trans (List.prefix_append es [e]), hx⟩
    · exact ⟨es, e, List.prefix_refl _, h⟩

private theorem mem_accepted {n number : Nat} {result : RoutingResult}
    (h : n ∈ s.accepted (.completeRequest number result)) : s.accepts number ∧ n = number := by
  rw [accepted] at h
  split at h
  · rename_i ha
    exact ⟨(completeRequest_fst s number result).mp ha, List.mem_singleton.mp h⟩
  · cases h

/-- No answer to a request was applied as long as none came since it was sent out. -/
private theorem not_accepted_of_unanswered {config : SessionConfig} {historyAvailable : Bool}
    {clock : Instant} {es : List Event} {number : Nat}
    (sent : number ∈ record sentNumbers (start config historyAvailable clock) es)
    (h : (start config historyAvailable clock).Unanswered es number) :
    number ∉ record accepted (start config historyAvailable clock) es := by
  intro got
  have numbered (past : List Event) :
      ((start config historyAvailable clock).play past).NumberedBy
        (record sentNumbers (start config historyAvailable clock) past)
        (record accepted (start config historyAvailable clock) past) :=
    NumberedBy.play (start_settled config historyAvailable clock) Numbered.start past
  have bounds := sent
  rw [(numbered es).sent_eq, List.mem_range'_1] at bounds
  obtain ⟨past, e, before, now⟩ := mem_record got
  cases e with
  | completeRequest n result =>
    obtain ⟨counts, own⟩ := mem_accepted now
    cases own
    refine h past result before ?_
    have newest := counts.1
    rw [(numbered past).sent_eq, List.mem_range'_1]
    omega
  | _ => cases now

private theorem reply_keeps (s : Session) (a : Reply) : (s.after (.ofReply a)).route = s.route ∧
    (s.after (.ofReply a)).options = s.options := by
  by_cases ha : s.accepts a.1
  · obtain ⟨es, _, he⟩ := completeRequest_accepted ha a.2
    exact ⟨congrArg (·.2.route) he, congrArg (·.2.options) he⟩
  · have he := completeRequest_refused ha a.2
    exact ⟨congrArg (·.2.route) he, congrArg (·.2.options) he⟩

private theorem play_replies_keeps (s : Session) (as : List Reply) : (s.play (replies as)).route = s.route ∧
    (s.play (replies as)).options = s.options := by
  induction as generalizing s with
  | nil => exact ⟨rfl, rfl⟩
  | cons a as ih =>
    obtain ⟨route, options⟩ := s.reply_keeps a
    exact ⟨(ih _).1.trans route, (ih _).2.trans options⟩

/-- A failure leaves what is displayed and the route as they were. -/
private theorem failure_keeps (s : Session) (number : Nat) (failure : RoutingFailure) :
    let t := (s.completeRequest number (.error failure)).2
    t.response = s.response ∧ t.selected = s.selected ∧ t.route = s.route := by
  by_cases ha : s.accepts number
  · rw [completeRequest_eq_present ha]
    exact ⟨rfl, rfl, rfl⟩
  · rw [completeRequest_refused ha]
    exact ⟨rfl, rfl, rfl⟩

/-- At any time of any run, the answers to requests that were sent out and not answered since may
come in any order, each successful or not, and lead to the same session. If one of them is to the
newest request, that one is displayed, and no other; otherwise none is. A failure never changes what
is displayed, nor the route. -/
theorem replies_in_any_order (config : SessionConfig) (historyAvailable : Bool) (clock : Instant)
    (past : List Event) (as bs : List Reply) (same : as.Perm bs) (distinct : (as.map Prod.fst).Nodup)
    (out : ∀ a ∈ as, a.1 ∈ record sentNumbers (start config historyAvailable clock) past ∧
      (start config historyAvailable clock).Unanswered past a.1) :
    let first := start config historyAvailable clock
    let s := first.play past
    let newest? := (record sentNumbers first past).getLast?
    s.play (replies as) = s.play (replies bs) ∧
    (s.play (replies as)).route = s.route ∧ (s.play (replies as)).options = s.options ∧
    (∀ a ∈ as, newest? = some a.1 →
      record answersShown s (replies as) = [.ofResult (s.zoomOf a.1) a.2]) ∧
    ((∀ a ∈ as, newest? ≠ some a.1) → record answersShown s (replies as) = []) ∧
    ∀ (t : Session) (number : Nat) (failure : RoutingFailure),
      let u := (t.completeRequest number (.error failure)).2
      u.response = t.response ∧ u.selected = t.selected ∧ u.route = t.route := by
  intro first s newest?
  obtain ⟨route, options⟩ := s.play_replies_keeps as
  have accepts_iff (a : Reply) (ha : a ∈ as) : s.accepts a.1 ↔ newest? = some a.1 := by
    obtain ⟨sent, unanswered⟩ := out a ha
    have numbered : s.NumberedBy (record sentNumbers first past) (record accepted first past) :=
      NumberedBy.play (start_settled config historyAvailable clock) Numbered.start past
    have some_sent : record sentNumbers first past ≠ [] := List.ne_nil_of_mem sent
    rw [accepts, numbered.accepts_iff]
    constructor
    · rintro ⟨newest | ⟨none, _⟩, _⟩
      · exact newest
      · exact absurd none some_sent
    · intro newest
      exact ⟨.inl newest, not_accepted_of_unanswered sent unanswered⟩
  refine ⟨s.play_replies_perm same distinct, route, options, ?_, ?_, failure_keeps⟩
  · intro a ha newest
    exact replies_shown distinct ha ((accepts_iff a ha).mpr newest)
  · intro old
    exact replies_refused fun a ha accepts => old a ha ((accepts_iff a ha).mp accepts)

/-- Both stops are found, and the link of the journey is opened again without zoom: two requests are
out. -/
def bothOut : List Event :=
  [.edit (.setInput 0 "Bonn"), .edit (.setInput 1 "Köln"),
    .completeLookup ⟨⟨1⟩, "Bonn", 1⟩ (.ok [⟨50.7, 7.1, "Bonn"⟩]),
    .completeLookup ⟨⟨2⟩, "Köln", 1⟩ (.ok [⟨50.9, 7.0, "Köln"⟩]),
    .navigate { points := ["Bonn", "Köln"], options := {}, zoom := false, token := none }]

/-- The first request fails, and the second one's answer has no paths. -/
def bothReplies : List Reply := [(1, .error (.transport "timeout")), (2, .ok ⟨[]⟩)]

/-- Of the two answers, in either order, just the second one is displayed. -/
theorem bothReplies_in_any_order :
    let first := start {} false ⟨0, 0⟩
    let s := first.play bothOut
    bothReplies.Perm bothReplies.reverse ∧ (bothReplies.map Prod.fst).Nodup ∧
    (∀ a ∈ bothReplies, a.1 ∈ record sentNumbers first bothOut ∧ first.Unanswered bothOut a.1) ∧
    s.play (replies bothReplies) = s.play (replies bothReplies.reverse) ∧
    record answersShown s (replies bothReplies) = [.showPaths [] 0 false] := by
  intro first s
  have same : bothReplies.Perm bothReplies.reverse := (List.reverse_perm bothReplies).symm
  have distinct : (bothReplies.map Prod.fst).Nodup := by decide
  have sent : record sentNumbers first bothOut = [1, 2] := by decide +kernel
  have out : ∀ a ∈ bothReplies, a.1 ∈ record sentNumbers first bothOut ∧
      first.Unanswered bothOut a.1 := by
    intro a ha
    have known : a.1 ∈ [1, 2] := List.mem_map_of_mem (f := Prod.fst) ha
    exact ⟨sent ▸ known, unanswered_of_not_mem List.not_mem_nil⟩
  have stays : s.zoomOf 2 = false := by decide +kernel
  obtain ⟨equal, _, _, shown, _⟩ :=
    replies_in_any_order {} false ⟨0, 0⟩ bothOut bothReplies bothReplies.reverse same distinct out
  refine ⟨same, distinct, out, equal, ?_⟩
  have newest : (record sentNumbers first bothOut).getLast? = some 2 := by rw [sent]; rfl
  have second := shown (2, .ok ⟨[]⟩) (List.mem_cons_of_mem _ (List.mem_singleton_self _)) newest
  rw [second]
  exact congrArg (fun zoom => [Effect.showPaths [] 0 zoom]) stays

end Itinerary.Session

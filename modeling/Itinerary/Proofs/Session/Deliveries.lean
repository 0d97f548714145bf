import Itinerary.Proofs.Session.Readiness
import Itinerary.Proofs.Route.Tracking
import Mathlib.Data.List.Induction
import Mathlib.Data.List.Infix

/-! The traffic of lookups in a run: which are issued, which are answered, and what an answer does to
the route. -/
namespace Itinerary.Session

/-- A lookup together with the answer to it. -/
abbrev Delivery := Lookup × LookupResult

def Event.ofDelivery (d : Delivery) : Event := .completeLookup d.1 d.2

def Event.delivery? : Event → Option Delivery
  | .completeLookup l result => some (l, result)
  | _ => none

/-- The lookups that a run issues. -/
def issued (s : Session) (es : List Event) : List Lookup := record newLookups s es

/-- The answers that a run delivers. -/
def delivered (es : List Event) : List Delivery := es.filterMap Event.delivery?

/-- The lookups that a run delivers answers to. -/
def answeredIn (es : List Event) : List Lookup := (delivered es).map Prod.fst

/-- Answers come only for lookups that were issued before. -/
def AnswersIssued (s : Session) (es : List Event) : Prop :=
  ∀ past, past <+: es → answeredIn past ⊆ s.issued past

/-- Answers come only for lookups that were issued before, and once for each at most. -/
def AnswersOnce (s : Session) (es : List Event) : Prop :=
  ∀ past, past <+: es → (answeredIn past).Subperm (s.issued past)

instance (s : Session) (es : List Event) : Decidable (s.AnswersIssued es) :=
  decidable_of_iff (∀ past ∈ es.inits, answeredIn past ⊆ s.issued past)
    (by simp only [AnswersIssued, List.mem_inits])

instance (s : Session) (es : List Event) : Decidable (s.AnswersOnce es) :=
  decidable_of_iff (∀ past ∈ es.inits, (answeredIn past).Subperm (s.issued past))
    (by simp only [AnswersOnce, List.mem_inits])

private theorem issued_concat (s : Session) (es : List Event) (e : Event) :
    s.issued (es ++ [e]) = s.issued es ++ (s.play es).newLookups e :=
  record_concat newLookups s es e

private theorem delivered_concat (es : List Event) (e : Event) :
    delivered (es ++ [e]) = delivered es ++ e.delivery?.toList := by
  rw [delivered, List.filterMap_append]
  cases h : e.delivery? <;> simp [delivered, h]

variable {s : Session}

/-- An event delivers no answer and changes the route, delivers one too late, or delivers one that
the route waits for. -/
inductive LookupTurn (s : Session) (e : Event) : Prop
  | changed (hd : e.delivery? = none)
      (hc : Route.Changes s.route (s.newLookups e) (s.after e).route)
  | stale (d : Delivery) (he : e = .ofDelivery d) (hw : s.route.awaits d.1 = false)
      (hn : s.newLookups e = []) (hr : (s.after e).route = s.route)
  | answered (d : Delivery) (he : e = .ofDelivery d) (hw : s.route.awaits d.1 = true)
      (hn : s.newLookups e = [])
      (hr : (s.after e).route = s.route.modify d.1.stop (·.resolveWith d.2))

private theorem delivery?_of_asksFor {e : Event} {link : Link} (h : s.asksFor link e) :
    e.delivery? = none := by
  cases e with
  | completeLookup l result => exact h.elim
  | _ => rfl

/-- The lookups before an evaluation are those after it. -/
theorem newLookups_of_evaluate {e : Event} {t : Session} {always : Bool} {ls : List Lookup}
    (he : s.after e = t.evaluate always) (hl : t.lookups = s.lookups ++ ls) : s.newLookups e = ls := by
  rw [newLookups, he, evaluate_lookups, hl, List.drop_left]

theorem lookupTurn (h : s.route.WellFormed) (e : Event) : LookupTurn s e := by
  cases turn h e with
  | kept ht hr _ _ _ _ hl _ _ =>
    cases e with
    | completeLookup l result =>
      refine .stale (l, result) rfl (Bool.eq_false_iff.mpr fun hw => ht ?_) hl hr
      obtain ⟨status, _, _, _, he⟩ := completeLookup_applied hw result
      exact ⟨status, congrArg Prod.fst he⟩
    | _ =>
      refine .changed rfl ?_
      rw [hr, hl]
      exact .refl _
  | stale l result he hw ha =>
    refine .stale (l, result) he hw ?_ ?_
    · rw [newLookups, ha]
      exact List.drop_length
    · rw [ha]
  | shown link he hn route ls focusOn es hc hes ha =>
    refine .changed (delivery?_of_asksFor he) ?_
    have news : s.newLookups e = ls := by
      rw [newLookups, ha]
      exact List.drop_left
    rw [news, ha]
    exact hc
  | edited x he hx route ls hc ha =>
    subst he
    refine .changed rfl ?_
    rw [newLookups_of_evaluate ha rfl, ha, evaluate_route]
    exact hc
  | navigated link he hn route ls hc ha =>
    refine .changed (delivery?_of_asksFor he) ?_
    rw [newLookups_of_evaluate ha rfl, ha, evaluate_route]
    exact hc
  | answered l result he hw focusOn es hes ht ha =>
    refine .answered (l, result) he hw ?_ ?_
    · exact newLookups_of_evaluate ha (List.append_nil _).symm
    · rw [ha, evaluate_route]
      rfl

/-- What holds of a new route, of the lookups issued and of the answers delivered, and is kept by
every event whose answer is within bounds, holds after a run whose answers are within bounds all
along. -/
theorem play_keeps {R : List Lookup → List Lookup → Prop}
    {P : Route → List Lookup → List Delivery → Prop} (blank : P .blank [] [])
    (step : ∀ {s : Session} {past : List Lookup} {answers : List Delivery} (e : Event),
      s.route.WellFormed →
      R ((answers ++ e.delivery?.toList).map Prod.fst) (past ++ s.newLookups e) →
      P s.route past answers →
      P (s.after e).route (past ++ s.newLookups e) (answers ++ e.delivery?.toList))
    (config : SessionConfig) (historyAvailable : Bool) (clock : Instant) {es : List Event}
    (h : ∀ past, past <+: es →
      R (answeredIn past) ((start config historyAvailable clock).issued past)) :
    P ((start config historyAvailable clock).play es).route
      ((start config historyAvailable clock).issued es) (delivered es) := by
  induction es using List.reverseRecOn with
  | nil => exact blank
  | append_singleton es e ih =>
    have reachable := (Reachable.start config historyAvailable clock).play es
    have bounds := h _ (List.prefix_refl _)
    rw [answeredIn, delivered_concat, issued_concat] at bounds
    rw [play_concat, issued_concat, delivered_concat]
    refine step e reachable.settled.wellFormed bounds (ih fun past hp => h past ?_)
    exact hp.trans (List.prefix_append es [e])

end Itinerary.Session

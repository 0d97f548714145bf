import Itinerary.Proofs.Session.Deliveries

/-! What waits in the two queues of a session, and what has been taken out of them. An event puts lookups
and requests at the end of its queue or takes the whole queue, so that what waits is the newest of all
that was sent; and the lookup of a stop that is pending waits in the queue or is held outside. -/
namespace Itinerary

/-- Every pending stop has its own lookup among these. -/
def Route.Covered (r : Route) (ls : List Lookup) : Prop :=
  ∀ stop ∈ r.stops, stop.status = .pending → stop.lookup ∈ ls

theorem Route.blank_covered : Route.blank.Covered [] := by
  intro stop hs pending
  rcases Route.mem_blank.mp hs with rfl | rfl <;>
    exact absurd pending (Stop.create_status_ne_pending _ "")

/-- A change that leaves a stop pending leaves its lookup, or issues it. -/
private theorem Route.Covered.changes {r t : Route} {past ls : List Lookup} (h : r.Covered past)
    (w : r.WellFormed) (c : Route.Changes r ls t) : t.Covered (past ++ ls) := by
  refine Route.Changes.keep (P := Route.Covered) (fun w c h => ?_) w c h
  intro stop hs pending
  cases c.origin w hs with
  | kept hm _ => exact List.mem_append_left _ (h stop hm pending)
  | retyped _ text => exact absurd pending (Stop.setInput_status_ne_pending _ text)
  | created text => exact absurd pending (Stop.create_status_ne_pending _ text)
  | pending _ _ => exact List.mem_append_right _ (List.mem_singleton_self _)

namespace Session
variable {s t : Session} {e : Event} {held : List Lookup}

/-- From one session to the other nothing was taken out of the queues. -/
structure Grows (s t : Session) : Prop where
  lookups : s.lookups <+: t.lookups
  requests : s.requests <+: t.requests

namespace Grows

private theorem same (lookups : t.lookups = s.lookups) (requests : t.requests = s.requests) : Grows s t :=
  ⟨lookups ▸ List.prefix_refl _, requests ▸ List.prefix_refl _⟩

private theorem issued (ls : List Lookup) (lookups : t.lookups = s.lookups ++ ls)
    (requests : t.requests = s.requests) : Grows s t :=
  ⟨lookups ▸ List.prefix_append _ _, requests ▸ List.prefix_refl _⟩

private theorem evaluate (h : Grows s t) (always : Bool) : Grows s (t.evaluate always) := by
  refine ⟨?_, ?_⟩
  · rw [evaluate_lookups]
    exact h.lookups
  · rw [evaluate_requests]
    exact h.requests.trans (List.prefix_append _ _)

private theorem edit (w : s.route.WellFormed) (x : Edit) : Grows s (s.edit x).2 := by
  cases edit_cases w x with
  | refused error he =>
    rw [he]
    exact same rfl rfl
  | skipped hs he =>
    rw [he]
    exact same rfl rfl
  | done hs route ls hc he =>
    rw [he]
    apply evaluate (t := (s.revised x route ls).refreshMarkers.withDirect false)
    exact issued ls rfl rfl

private theorem navigate (w : s.route.WellFormed) (link : Link) : Grows s (s.navigate link) := by
  rcases Nat.lt_or_ge 1 link.nonBlankPoints with many | few
  · obtain ⟨route, ls, _, he⟩ := navigate_many w many
    rw [he]
    apply evaluate
    exact issued ls rfl rfl
  · obtain ⟨route, ls, focusOn, es, _, _, he⟩ := navigate_few w few
    rw [he]
    exact issued ls rfl rfl

private theorem navigateText (w : s.route.WellFormed) (text : String) : Grows s (s.navigateText text).2 := by
  rcases navigateText_cases s text with ⟨error, he⟩ | ⟨link, _, he⟩
  · rw [he]
    exact same rfl rfl
  · rw [he]
    exact navigate w link

private theorem completeLookup (s : Session) (l : Lookup) (result : LookupResult) :
    Grows s (s.completeLookup l result).2 := by
  cases hw : s.route.awaits l with
  | false =>
    rw [completeLookup_stale hw]
    exact same rfl rfl
  | true =>
    obtain ⟨status, focusOn, es, _, he⟩ := completeLookup_applied hw result
    rw [he]
    apply evaluate (t := ((s.answered l result).shown focusOn es).refreshMarkers)
    exact same rfl rfl

private theorem completeRequest (s : Session) (number : Nat) (result : RoutingResult) :
    Grows s (s.completeRequest number result).2 := by
  obtain ⟨lookups, requests⟩ := completeRequest_queues s number result
  exact same lookups requests

private theorem selectAlternative (s : Session) (index : Nat) : Grows s (s.selectAlternative index).2 := by
  obtain ⟨selected, es, _, he⟩ := selectAlternative_cases s index
  rw [he]
  exact same rfl rfl

end Grows

/-- An event takes the whole queue, or puts something at its end. -/
theorem queues_after (w : s.route.WellFormed) (e : Event) :
    (e ≠ .takeLookups → (s.after e).lookups = s.lookups ++ s.newLookups e) ∧
      (e ≠ .takeRequests → (s.after e).requests = s.requests ++ s.newRequests e) := by
  have grown (h : Grows s (s.after e)) : (s.after e).lookups = s.lookups ++ s.newLookups e ∧
      (s.after e).requests = s.requests ++ s.newRequests e :=
    ⟨(List.prefix_iff_eq_append.mp h.lookups).symm, (List.prefix_iff_eq_append.mp h.requests).symm⟩
  have both (h : Grows s (s.after e)) := And.intro (fun _ : e ≠ .takeLookups => (grown h).1)
    fun _ : e ≠ .takeRequests => (grown h).2
  cases e with
  | edit x => exact both (.edit w x)
  | selectAlternative index => exact both (.selectAlternative s index)
  | navigate link => exact both (.navigate w link)
  | navigateText text => exact both (.navigateText w text)
  | takeLookups =>
    refine ⟨fun h => absurd rfl h, fun _ => ?_⟩
    exact (List.prefix_iff_eq_append.mp (List.prefix_refl s.requests)).symm
  | takeRequests =>
    refine ⟨fun _ => ?_, fun h => absurd rfl h⟩
    exact (List.prefix_iff_eq_append.mp (List.prefix_refl s.lookups)).symm
  | completeLookup l result => exact both (.completeLookup s l result)
  | completeRequest number result => exact both (.completeRequest s number result)
  | setClock now => exact both (.same rfl rfl)
  | collect => exact both (.same rfl rfl)
  | geocode queries => exact both (.same rfl rfl)
  | findRoute payload => exact both (.same rfl rfl)

theorem play_requests (h : s.Settled) {es : List Event} (kept : ∀ e ∈ es, e ≠ .takeRequests) :
    (s.play es).requests = s.requests ++ record newRequests s es := by
  induction es generalizing s with
  | nil => exact (List.append_nil _).symm
  | cons e es ih =>
    have first := (queues_after h.wellFormed e).2 (kept e List.mem_cons_self)
    have rest := ih (h.after e) fun e' he => kept e' (List.mem_cons_of_mem e he)
    rw [record, ← List.append_assoc, ← first]
    exact rest

/-- The requests that wait are the newest of those that were sent out. -/
theorem requests_suffix (h : s.Settled) {sent : List Dispatch} (waiting : s.requests <:+ sent)
    (es : List Event) : (s.play es).requests <:+ sent ++ record newRequests s es := by
  induction es generalizing s sent with
  | nil => exact waiting.trans (by simp [record])
  | cons e es ih =>
    rw [record, ← List.append_assoc]
    refine ih (h.after e) ?_
    by_cases taken : e = .takeRequests
    · rw [taken]
      exact List.nil_suffix
    · rw [(queues_after h.wellFormed e).2 taken]
      obtain ⟨older, rfl⟩ := waiting
      exact ⟨older, List.append_assoc older _ _ |>.symm⟩

/-- The lookups that are held outside after an event, if these were before: those that have been taken
and not been answered. -/
def heldAfter (s : Session) (held : List Lookup) : Event → List Lookup
  | .takeLookups => held ++ s.lookups
  | .completeLookup l _ => held.erase l
  | _ => held

/-- The lookups that are held outside after a run. -/
def heldOver (s : Session) (held : List Lookup) : List Event → List Lookup
  | [] => held
  | e :: es => (s.after e).heldOver (s.heldAfter held e) es

theorem heldOver_append (s : Session) (held : List Lookup) (es fs : List Event) :
    s.heldOver held (es ++ fs) = (s.play es).heldOver (s.heldOver held es) fs := by
  induction es generalizing s held with
  | nil => rfl
  | cons e es ih => exact ih (s.after e) (s.heldAfter held e)

/-- An answer leaves the lookups of the stops that are pending after it. -/
private theorem covered_of_delivery {d : Delivery} {r : Route} (h : s.route.Covered (held ++ s.lookups))
    (left : ∀ stop ∈ r.stops, stop.status = .pending →
      stop ∈ s.route.stops ∧ stop.lookup ≠ d.1) : r.Covered (held.erase d.1 ++ s.lookups) := by
  intro stop hs pending
  obtain ⟨before, other⟩ := left stop hs pending
  rcases List.mem_append.mp (h stop before pending) with taken | waiting
  · exact List.mem_append_left _ ((List.mem_erase_of_ne other).mpr taken)
  · exact List.mem_append_right _ waiting

/-- The lookup of a pending stop waits in the queue or is held outside, whatever happens. -/
private theorem covered_after (w : s.route.WellFormed) (h : s.route.Covered (held ++ s.lookups)) (e : Event) :
    (s.after e).route.Covered (s.heldAfter held e ++ (s.after e).lookups) := by
  cases lookupTurn w e with
  | changed hd hc =>
    have next := h.changes w hc
    by_cases taken : e = .takeLookups
    · subst taken
      have none : s.newLookups .takeLookups = [] := List.drop_nil
      rw [none] at next
      exact next
    · rw [(queues_after w e).1 taken, ← List.append_assoc]
      cases e with
      | takeLookups => exact absurd rfl taken
      | completeLookup l result => cases hd
      | _ => exact next
  | stale d he hw hn hr =>
    subst he
    have kept : (s.after (.ofDelivery d)).lookups = s.lookups := completeLookup_lookups s d.1 d.2
    rw [hr, kept]
    refine covered_of_delivery h fun stop hs pending => ⟨hs, fun own => ?_⟩
    have awaited : s.route.awaits d.1 = true :=
      Route.awaits_iff.mpr ⟨stop, own ▸ w.find?_of_mem hs, own ▸ rfl, pending⟩
    rw [hw] at awaited
    cases awaited
  | answered d he hw hn hr =>
    subst he
    have kept : (s.after (.ofDelivery d)).lookups = s.lookups := completeLookup_lookups s d.1 d.2
    rw [hr, kept]
    refine covered_of_delivery h fun stop hs pending => ?_
    obtain ⟨old, hm, rfl⟩ := w.mem_modify.mp hs
    by_cases same : old.id = d.1.stop
    · rw [if_pos same] at pending
      exact absurd pending (old.resolveWith_status_ne_pending d.2)
    · rw [if_neg same]
      exact ⟨hm, fun own => same (congrArg Lookup.stop own)⟩

theorem covered_play (h : s.Settled) (covered : s.route.Covered (held ++ s.lookups)) (es : List Event) :
    (s.play es).route.Covered (s.heldOver held es ++ (s.play es).lookups) := by
  induction es generalizing s held with
  | nil => exact covered
  | cons e es ih => exact ih (h.after e) (covered_after h.wellFormed covered e)

end Session
end Itinerary

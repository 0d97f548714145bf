import Itinerary.Proofs.Session.Calls
import Itinerary.Proofs.Session.Confluence
import Itinerary.Proofs.Session.InFlight
import Itinerary.Proofs.Session.Queues
import Mathlib.Data.Multiset.AddSub

/-! The two stages of a run: the lookups that wait are all looked up, and the requests that wait are all
served. What a stage comes to does not depend on what is answered. -/
namespace Itinerary.Session
variable {s : Session}

/-- A session takes its lookups, has them looked up, and gets the answers in whatever order they come. -/
def lookupRound (s : Session) (ds : List Delivery) : List Event :=
  .takeLookups :: .geocode (s.lookups.map (·.query)) :: deliveries ds

/-- Requests are sent one after the other, each when the one before is answered. -/
def served (as : List (Dispatch × RoutingResult)) : List Event :=
  as.flatMap fun a => [.findRoute a.1.payload, .completeRequest a.1.number a.2]

/-- A session takes its requests and has them served. -/
def requestRound (as : List (Dispatch × RoutingResult)) : List Event := .takeRequests :: served as

/-- What the lookups of a session come to when they are run. -/
structure LookedUp (s : Session) (es : List Event) : Prop where
  lookups : (s.play es).lookups = []
  requests : (s.play es).requests = s.requests ++ record newRequests s es
  oneMore : (record newRequests s es).length ≤ 1
  calls : record calls s es = s.lookups.map fun l => .geocode l.query
  answered : (answeredIn es).Perm s.lookups
  accepted : record accepted s es = []
  held : ∀ held, (s.heldOver held es).Perm held

/-- What the requests of a session come to when they are run. -/
structure Routed (s : Session) (es : List Event) : Prop where
  lookups : (s.play es).lookups = s.lookups
  requests : (s.play es).requests = []
  noneMore : record newRequests s es = []
  calls : record calls s es = s.requests.map fun d => .findRoute d.payload
  answered : answeredIn es = []
  accepted {sent got : List Nat} (numbered : s.NumberedBy sent got)
    (waiting : s.requests.map Dispatch.number <:+ sent) :
    record accepted s es = ((s.requests.map Dispatch.number).getLast?.toList).filter (· ∉ got)
  held : ∀ held, s.heldOver held es = held

theorem LookedUp.idle (h : s.lookups = []) : LookedUp s [] where
  lookups := h
  requests := (List.append_nil _).symm
  oneMore := Nat.zero_le _
  calls := by rw [h]; rfl
  answered := by rw [h]; exact .nil
  accepted := rfl
  held := .refl

private theorem lookups_deliveries (s : Session) (ds : List Delivery) :
    (s.play (deliveries ds)).lookups = s.lookups := by
  induction ds generalizing s with
  | nil => rfl
  | cons d ds ih => exact (ih _).trans (completeLookup_lookups s d.1 d.2)

private theorem heldOver_deliveries (s : Session) (held : List Lookup) (ds : List Delivery) :
    s.heldOver held (deliveries ds) = held.diff (ds.map Prod.fst) := by
  induction ds generalizing s held with
  | nil => rfl
  | cons d ds ih =>
    rw [List.map_cons, List.diff_cons]
    exact ih (s.after (.ofDelivery d)) (held.erase d.1)

theorem answeredIn_append (es fs : List Event) :
    answeredIn (es ++ fs) = answeredIn es ++ answeredIn fs := by
  rw [answeredIn, delivered, List.filterMap_append, List.map_append]
  rfl

private theorem answeredIn_deliveries (ds : List Delivery) :
    answeredIn (deliveries ds) = ds.map Prod.fst := by
  induction ds with
  | nil => rfl
  | cons d ds ih => exact congrArg (d.1 :: ·) ih

theorem forall_mem_deliveries {P : Event → Prop} {ds : List Delivery}
    (h : ∀ l result, P (.completeLookup l result)) : ∀ e ∈ deliveries ds, P e :=
  List.forall_mem_map.mpr fun d _ => h d.1 d.2

/-- Answers to lookups lead to one request at most. -/
private theorem newRequests_deliveries (h : s.Settled) (ds : List Delivery) :
    (record newRequests s (deliveries ds)).length ≤ 1 := by
  have kept : ∀ e ∈ deliveries ds, e ≠ .takeRequests := forall_mem_deliveries fun _ _ => nofun
  have grown := play_requests h kept
  have once := (Answered.play h ds).requests
  rw [grown] at once
  rw [List.append_cancel_left once]
  cases (s.dispatcher.evaluate _ s.options s.clock false).1.dispatch? with
  | none => exact Nat.zero_le _
  | some d => exact Nat.le_refl _

theorem LookedUp.round (h : s.Settled) {ds : List Delivery} (each : (ds.map Prod.fst).Perm s.lookups) :
    LookedUp s (s.lookupRound ds) := by
  obtain ⟨t, ht⟩ : ∃ t, t = (s.after .takeLookups).after (.geocode (s.lookups.map (·.query))) :=
    ⟨_, rfl⟩
  have settled : t.Settled := by
    rw [ht]
    exact (h.after _).after _
  have rest {α : Type} (note : Session → Event → List α) : record note s (s.lookupRound ds) =
      note s .takeLookups ++ (note (s.after .takeLookups) (.geocode (s.lookups.map (·.query))) ++
        record note t (deliveries ds)) := by
    rw [ht]
    rfl
  have quiet : s.newRequests .takeLookups = [] := List.drop_length
  have asked : (s.after .takeLookups).newRequests (.geocode (s.lookups.map (·.query))) = [] :=
    List.drop_length
  refine ⟨?_, ?_, ?_, ?_, ?_, ?_, fun held => ?_⟩
  · have none : t.lookups = [] := by rw [ht]; rfl
    rw [← none, ← lookups_deliveries t ds, ht]
    rfl
  · refine play_requests h (List.forall_mem_cons.mpr ⟨nofun, List.forall_mem_cons.mpr ⟨nofun, ?_⟩⟩)
    exact forall_mem_deliveries fun _ _ => nofun
  · rw [rest, quiet, asked]
    exact newRequests_deliveries settled ds
  · have taken : s.calls .takeLookups = [] := Uncalled.calls (.refl s)
    have answers : record Session.calls t (deliveries ds) = [] :=
      record_eq_nil (forall_mem_deliveries fun l result u => calls_completeLookup u l result) t
    rw [rest, taken, calls_geocode, answers, List.map_map]
    exact List.append_nil _
  · exact (answeredIn_deliveries ds).symm ▸ each
  · rw [rest]
    exact record_eq_nil (forall_mem_deliveries fun _ _ _ => rfl) t
  · -- What is taken is given back, as a collection: the order does not count.
    have left_held : s.heldOver held (s.lookupRound ds) = (held ++ s.lookups).diff (ds.map Prod.fst) := by
      rw [← heldOver_deliveries t, ht]
      rfl
    have asked : (ds.map Prod.fst : Multiset Lookup) = s.lookups := Multiset.coe_eq_coe.mpr each
    rw [left_held, ← Multiset.coe_eq_coe, ← Multiset.coe_sub, ← Multiset.coe_add, asked]
    exact Multiset.add_sub_cancel_right

theorem Routed.idle (h : s.requests = []) : Routed s [] where
  lookups := rfl
  requests := h
  noneMore := rfl
  calls := by rw [h]; rfl
  answered := rfl
  accepted _ _ := by rw [h]; rfl
  held _ := rfl

/-- Of the requests that are served the last one's answer is applied, if it is the newest that was sent
out and was not answered before. -/
private theorem accepted_served {sent got : List Nat} {as : List (Dispatch × RoutingResult)}
    (numbered : s.NumberedBy sent got) (waiting : as.map (·.1.number) <:+ sent) :
    record accepted s (served as) = ((as.map (·.1.number)).getLast?.toList).filter (· ∉ got) := by
  induction as generalizing s with
  | nil => rfl
  | cons a as ih =>
    obtain ⟨t, ht⟩ : ∃ t, t = s.after (.findRoute a.1.payload) := ⟨_, rfl⟩
    have same : t.NumberedBy sent got := by
      rw [ht]
      exact numbered
    have rest : record accepted s (served (a :: as)) = t.accepted (.completeRequest a.1.number a.2) ++
        record accepted (t.after (.completeRequest a.1.number a.2)) (served as) := by
      rw [ht]
      rfl
    have some_sent : sent ≠ [] := fun none => by simp [none] at waiting
    have counts : t.accepts a.1.number ↔ sent.getLast? = some a.1.number ∧ a.1.number ∉ got := by
      refine (same.accepts_iff a.1.number).trans ?_
      simp [some_sent]
    rw [rest, accepted]
    -- The numbers go up, so that only the last of the requests can be the newest that was sent out.
    cases as with
    | nil =>
      obtain ⟨older, rfl⟩ := waiting
      have newest : t.accepts a.1.number ↔ a.1.number ∉ got := by
        rw [counts]
        simp
      by_cases known : a.1.number ∈ got <;> simp [completeRequest_fst, newest, known, served, record]
    | cons b as =>
      have distinct : (a.1.number :: (b :: as).map (·.1.number)).Nodup := by
        have all : sent.Nodup := by
          rw [same.sent_eq]
          exact List.nodup_range'
        exact all.sublist waiting.sublist
      have behind : (b :: as).map (·.1.number) <:+ sent := (List.suffix_cons _ _).trans waiting
      have older : ¬ t.accepts a.1.number := by
        intro newest
        obtain ⟨before, he⟩ := behind
        have last := (counts.mp newest).1
        rw [← he, List.map_cons, List.getLast?_append_of_ne_nil _ (List.cons_ne_nil _ _)] at last
        exact (List.nodup_cons.mp distinct).1 (List.mem_of_getLast? last)
      have refused := completeRequest_refused older a.2
      have later : (t.after (.completeRequest a.1.number a.2)).NumberedBy sent got := by
        rw [after, refused]
        exact same
      rw [refused, ih later behind]
      rfl

theorem forall_mem_served {P : Event → Prop} {as : List (Dispatch × RoutingResult)}
    (asked : ∀ payload, P (.findRoute payload))
    (answered : ∀ number result, P (.completeRequest number result)) : ∀ e ∈ served as, P e := by
  intro e he
  obtain ⟨a, _, he⟩ := List.mem_flatMap.mp he
  rcases List.mem_pair.mp he with rfl | rfl
  · exact asked _
  · exact answered _ _

private theorem queues_served (s : Session) (as : List (Dispatch × RoutingResult)) :
    (s.play (served as)).lookups = s.lookups ∧ (s.play (served as)).requests = s.requests := by
  induction as generalizing s with
  | nil => exact ⟨rfl, rfl⟩
  | cons a as ih =>
    obtain ⟨lookups, requests⟩ :=
      completeRequest_queues (s.after (.findRoute a.1.payload)) a.1.number a.2
    exact ⟨(ih _).1.trans lookups, (ih _).2.trans requests⟩

private theorem calls_served (s : Session) (as : List (Dispatch × RoutingResult)) :
    record calls s (served as) = as.map fun a => .findRoute a.1.payload := by
  induction as generalizing s with
  | nil => rfl
  | cons a as ih =>
    change s.calls (.findRoute a.1.payload) ++ (calls _ (.completeRequest a.1.number a.2) ++
      record calls _ (served as)) = _
    rw [calls_findRoute, calls_completeRequest, ih]
    rfl

private theorem heldOver_of_kept {es : List Event} (h : ∀ e ∈ es, ∀ (t : Session) (ls : List Lookup),
    t.heldAfter ls e = ls) (s : Session) (held : List Lookup) : s.heldOver held es = held := by
  induction es generalizing s with
  | nil => rfl
  | cons e es ih =>
    rw [heldOver, h e List.mem_cons_self]
    exact ih (fun e' he => h e' (List.mem_cons_of_mem e he)) _

theorem Routed.round {as : List (Dispatch × RoutingResult)} (each : as.map Prod.fst = s.requests) :
    Routed s (requestRound as) := by
  obtain ⟨lookups, requests⟩ := queues_served (s.after .takeRequests) as
  have numbers : as.map (·.1.number) = s.requests.map Dispatch.number := by
    rw [← each, List.map_map]
    rfl
  refine ⟨lookups, requests, ?_, ?_, ?_, fun numbered waiting => ?_, ?_⟩
  · refine record_eq_nil (List.forall_mem_cons.mpr ⟨fun _ => List.drop_nil, ?_⟩) s
    exact forall_mem_served (fun _ _ => List.drop_length) fun n r t => newRequests_completeRequest t n r
  · have taken : s.calls .takeRequests = [] := Uncalled.calls (.refl s)
    rw [requestRound, record, taken, calls_served, ← each, List.map_map]
    rfl
  · have none : delivered (requestRound as) = [] := by
      refine List.filterMap_eq_nil_iff.mpr (List.forall_mem_cons.mpr ⟨rfl, ?_⟩)
      exact forall_mem_served (fun _ => rfl) fun _ _ => rfl
    rw [answeredIn, none]
    rfl
  · rw [← numbers] at waiting ⊢
    exact accepted_served (s := s.after .takeRequests) numbered waiting
  · refine heldOver_of_kept (List.forall_mem_cons.mpr ⟨fun _ _ => rfl, ?_⟩) s
    exact forall_mem_served (fun _ _ _ => rfl) fun _ _ _ _ => rfl

end Itinerary.Session

import Itinerary.Proofs.Session.Reading
import Itinerary.Proofs.Session.Stages

/-! Running a session until nothing waits: it does so in two rounds at most, whatever its services answer
and in whatever order, and what has become of it then, unless a response that is put on display stops the
program. -/
namespace Itinerary.Session
variable {s : Session}

/-- Nothing waits. -/
def Idle (s : Session) : Prop := s.lookups = [] ∧ s.requests = []

/-- No stop is being looked up. -/
def NonePending (s : Session) : Prop := ∀ stop ∈ s.route.stops, stop.status ≠ .pending

/-- What a session does at once when it runs: it has all its lookups looked up, whatever is answered and
in whatever order, or, if it has none, its requests served. -/
inductive Round (s : Session) : List Event → Prop
  | lookups (ds : List Delivery) (waiting : s.lookups ≠ []) (each : (ds.map Prod.fst).Perm s.lookups) :
      Round s (s.lookupRound ds)
  | requests (as : List (Dispatch × RoutingResult)) (none : s.lookups = []) (waiting : s.requests ≠ [])
      (each : as.map Prod.fst = s.requests) : Round s (requestRound as)

/-- Rounds one after the other. -/
inductive Rounds : Session → List (List Event) → Prop
  | nil (s : Session) : Rounds s []
  | cons {s : Session} {round : List Event} {rounds : List (List Event)} (h : s.Round round)
      (h' : Rounds (s.play round) rounds) : Rounds s (round :: rounds)

private theorem Round.not_idle {es : List Event} (h : s.Round es) : ¬ s.Idle := by
  rintro ⟨lookups, requests⟩
  cases h with
  | lookups ds waiting each => exact waiting lookups
  | requests as none waiting each => exact waiting requests

/-- As long as something waits there is another round. -/
private theorem exists_round (h : ¬ s.Idle) : ∃ es, s.Round es := by
  by_cases none : s.lookups = []
  · have waiting : s.requests ≠ [] := fun requests => h ⟨none, requests⟩
    refine ⟨_, .requests (s.requests.map (·, .error (.transport ""))) none waiting ?_⟩
    rw [List.map_map]
    exact List.map_id _
  · refine ⟨_, .lookups (s.lookups.map (·, .ok [])) none ?_⟩
    rw [List.map_map]
    exact .of_eq (List.map_id _)

namespace Rounds
variable {rounds : List (List Event)}

/-- Without lookups there is one round at most. -/
private theorem of_no_lookups (none : s.lookups = []) (h : s.Rounds rounds) : rounds.length ≤ 1 ∧
    ((s.play rounds.flatten).Idle → Routed s rounds.flatten) := by
  cases h with
  | nil => exact ⟨Nat.zero_le _, fun idle => .idle idle.2⟩
  | cons first rest =>
    cases first with
    | lookups ds waiting each => exact absurd none waiting
    | requests as _ waiting each =>
      have routed := Routed.round each
      have idle : (s.play (requestRound as)).Idle := ⟨routed.lookups.trans none, routed.requests⟩
      cases rest with
      | nil =>
        rw [List.flatten_singleton]
        exact ⟨Nat.le_refl _, fun _ => routed⟩
      | cons second _ => exact absurd idle second.not_idle

/-- There are two rounds at most; and if nothing waits after them, the lookups have been looked up, and
then the requests been served. -/
theorem stages (settled : s.Settled) (h : s.Rounds rounds) : rounds.length ≤ 2 ∧
    ((s.play rounds.flatten).Idle →
      ∃ es fs, rounds.flatten = es ++ fs ∧ LookedUp s es ∧ Routed (s.play es) fs) := by
  by_cases none : s.lookups = []
  · obtain ⟨few, routed⟩ := of_no_lookups none h
    exact ⟨Nat.le_succ_of_le few, fun idle => ⟨[], _, rfl, .idle none, routed idle⟩⟩
  · cases h with
    | nil => exact ⟨Nat.zero_le _, fun idle => absurd idle.1 none⟩
    | cons first rest =>
      cases first with
      | requests as none' waiting each => exact absurd none' none
      | lookups ds waiting each =>
        have lookedUp := LookedUp.round settled each
        obtain ⟨few, routed⟩ := of_no_lookups lookedUp.lookups rest
        refine ⟨Nat.succ_le_succ few, fun idle => ⟨_, _, rfl, lookedUp, routed ?_⟩⟩
        rw [List.flatten_cons, play_append] at idle
        exact idle

end Rounds

private theorem requestEvents_eq_served {σ : Type} (service : Payload → σ → RoutingResult × σ) (memory : σ)
    (ds : List Dispatch) : ∃ as, as.map Prod.fst = ds ∧ requestEvents service memory ds = served as := by
  induction ds generalizing memory with
  | nil => exact ⟨[], rfl, rfl⟩
  | cons d ds ih =>
    obtain ⟨as, each, same⟩ := ih (service d.payload memory).2
    refine ⟨(d, (service d.payload memory).1) :: as, ?_, ?_⟩
    · rw [List.map_cons, each]
    · rw [requestEvents, same]
      rfl

private theorem lookupEvents_eq_lookupRound (s : Session) (geocoder : Geocoder) : s.lookupEvents geocoder =
    s.lookupRound ((geocoder.arrivals s.lookups).map fun l => (l, geocoder.answer l.query)) := by
  rw [lookupRound, deliveries, List.map_map]
  rfl

/-- Running until nothing waits is rounds until nothing waits, also where it stops the program. -/
private theorem exists_rounds_run {σ : Type} (geocoder : Geocoder)
    (service : Payload → σ → RoutingResult × σ) (memory : σ) (s : Session) :
    ∃ rounds, s.Rounds rounds ∧ (run geocoder service memory s).2 = s.play rounds.flatten ∧
      (s.play rounds.flatten).Idle ∧
      (runOrFault geocoder service memory s).map Prod.snd = s.playOrFault rounds.flatten := by
  fun_induction run geocoder service memory s with
  | case1 memory s hl hr =>
    refine ⟨[], .nil s, rfl, ⟨List.isEmpty_iff.mp hl, List.isEmpty_iff.mp hr⟩, ?_⟩
    rw [runOrFault, dif_pos hl, dif_pos hr]
    rfl
  | case2 memory s hl hr next ih =>
    obtain ⟨rounds, h, same, idle, faults⟩ := ih
    obtain ⟨as, each, events⟩ := requestEvents_eq_served service memory s.requests
    have first : next.2 = s.play (requestRound as) := by
      rw [requestRound, ← events]
      exact runRequests_eq_play service memory s
    have served := runRequestsOrFault_eq_play service memory s
    rw [events] at served
    have round : s.Round (requestRound as) :=
      .requests as (List.isEmpty_iff.mp hl) (fun none => hr (List.isEmpty_iff.mpr none)) each
    refine ⟨requestRound as :: rounds, .cons round (first ▸ h), ?_⟩
    rw [List.flatten_cons, play_append, playOrFault_append]
    refine ⟨same.trans (congrArg (play · rounds.flatten) first), first ▸ idle, ?_⟩
    rw [requestRound, ← served, runOrFault, dif_pos hl, dif_neg hr]
    split
    · rename_i st ok
      rw [ok, runRequestsOrFault_eq_ok ok]
      exact faults
    · rename_i fault error
      rw [error]
      rfl
  | case3 memory s hl ih =>
    obtain ⟨rounds, h, same, idle, faults⟩ := ih
    have first := (runLookups_eq_play s geocoder).trans
      (congrArg (play s) (lookupEvents_eq_lookupRound s geocoder))
    have clear : s.Clear (s.lookupRound ((geocoder.arrivals s.lookups).map fun l =>
        (l, geocoder.answer l.query))) := by
      refine clear_of_forall (List.forall_mem_cons.mpr ⟨fun _ => id, List.forall_mem_cons.mpr ⟨fun _ => id, ?_⟩⟩)
      exact forall_mem_deliveries fun _ _ _ => id
    refine ⟨_ :: rounds, .cons (.lookups _ (fun none => hl (List.isEmpty_iff.mpr none)) ?_) (first ▸ h), ?_⟩
    · rw [List.map_map]
      exact (List.map_id _).symm ▸ geocoder.perm s.lookups
    · rw [List.flatten_cons, play_append, playOrFault_append, playOrFault_of_clear clear, ← first]
      refine ⟨same, idle, ?_⟩
      rw [runOrFault, dif_neg hl]
      exact faults

/-- What a run is made of leaves the options as they are. -/
private theorem options_of_ofRun {e : Event} (h : e.ofRun = true) (s : Session) :
    (s.after e).options = s.options := by
  cases e with
  | takeLookups | takeRequests | geocode _ | findRoute _ => rfl
  | completeLookup l result => exact (completeLookup_options s l result).1
  | completeRequest number result => exact (completeRequest_options s number result).1
  | _ => cases h

/-- A response that is put on display, while the debug view is on, stops the program. -/
def StopsOn (s : Session) (es : List Event) : Prop := s.options.debug = true ∧
  ∃ response ∈ record displayed s es, response.Overflows s.options.elevation

private theorem overflows_iff_of_ofRun {e : Event} (h : e.ofRun = true) : s.Overflows e ↔
    s.options.debug = true ∧ ∃ response ∈ s.displayed e, response.Overflows s.options.elevation := by
  cases e with
  | completeRequest number result => rfl
  | takeLookups | takeRequests | geocode _ | findRoute _ | completeLookup _ _ =>
    exact ⟨False.elim, fun ⟨_, _, shown, _⟩ => absurd shown List.not_mem_nil⟩
  | _ => cases h

/-- Nothing else stops a run. -/
private theorem clear_iff_of_ofRun {es : List Event} (h : ∀ e ∈ es, e.ofRun = true) :
    s.Clear es ↔ ¬ s.StopsOn es := by
  induction es generalizing s with
  | nil => exact ⟨fun _ ⟨_, _, shown, _⟩ => absurd shown List.not_mem_nil, fun _ => trivial⟩
  | cons e es ih =>
    obtain ⟨first, rest⟩ := List.forall_mem_cons.mp h
    rw [Clear, overflows_iff_of_ofRun first, ih rest, StopsOn, StopsOn, options_of_ofRun first, record]
    simp only [List.mem_append, or_and_right, exists_or, and_or_left, not_or]

private theorem Rounds.ofRun {rounds : List (List Event)} (h : s.Rounds rounds) :
    ∀ e ∈ rounds.flatten, e.ofRun = true := by
  induction h with
  | nil => exact fun _ he => absurd he List.not_mem_nil
  | cons first _ ih =>
    rw [List.flatten_cons]
    refine List.forall_mem_append.mpr ⟨?_, ih⟩
    cases first with
    | lookups ds _ _ =>
      refine List.forall_mem_cons.mpr ⟨rfl, List.forall_mem_cons.mpr ⟨rfl, ?_⟩⟩
      exact forall_mem_deliveries fun _ _ => rfl
    | requests as _ _ _ =>
      exact List.forall_mem_cons.mpr ⟨rfl, forall_mem_served (fun _ => rfl) fun _ _ => rfl⟩

/-- The requests that a session has served when it runs: those that wait, and those that the answers to
its lookups lead to. -/
def toServe (s : Session) (fs : List Event) : List Dispatch := s.requests ++ record newRequests s fs

/-- What has become of a session, after the events `es` and a run that consists of the events `fs`. Each
lookup that waited has been looked up once, and no other; each request that waited has been served once,
and one more at most. Of their answers only that to the newest request is applied, unless one was applied
before; and a stop is pending only if its lookup was held outside. -/
structure Quiesced (first : Session) (es fs : List Event) : Prop where
  idle : ((first.play es).play fs).Idle
  calls : record calls (first.play es) fs =
    ((first.play es).lookups.map fun l => .geocode l.query) ++
      ((first.play es).toServe fs).map fun d => .findRoute d.payload
  answered : (answeredIn fs).Perm (first.play es).lookups
  oneMore : (record newRequests (first.play es) fs).length ≤ 1
  newest : (first.play es).toServe fs <:+ record newRequests first (es ++ fs)
  applied : record accepted (first.play es) fs =
    ((((first.play es).toServe fs).map Dispatch.number).getLast?.toList).filter
      (· ∉ record accepted first es)
  pending : ∀ stop ∈ ((first.play es).play fs).route.stops, stop.status = .pending →
    stop.lookup ∈ first.heldOver [] es

/-- The two stages of a run, put together. -/
private theorem quiesced_of_stages {config : SessionConfig} {historyAvailable : Bool} {clock : Instant}
    {first : Session} (hf : first = start config historyAvailable clock) {past es fs : List Event}
    (up : LookedUp (first.play past) es) (out : Routed ((first.play past).play es) fs) :
    Quiesced first past (es ++ fs) := by
  obtain ⟨s, hs⟩ : ∃ s, s = first.play past := ⟨_, rfl⟩
  obtain ⟨t, ht⟩ : ∃ t, t = s.play es := ⟨_, rfl⟩
  have settled : first.Settled := hf ▸ start_settled config historyAvailable clock
  have none : first.requests <:+ [] := by
    rw [hf]
    exact List.suffix_refl []
  have numbered : first.NumberedBy [] [] := by
    rw [hf]
    exact Numbered.start
  have covered : first.route.Covered ([] ++ first.lookups) := by
    rw [hf]
    exact Route.blank_covered
  rw [← hs] at up out
  rw [← ht] at out
  have later : t = first.play (past ++ es) := by rw [play_append, ← hs, ht]
  have ends : s.play (es ++ fs) = t.play fs := by rw [play_append, ht]
  have added : record newRequests s (es ++ fs) = record newRequests s es := by
    rw [record_append, ← ht, out.noneMore, List.append_nil]
  have serves : s.toServe (es ++ fs) = t.requests := by rw [toServe, added, ht, up.requests]
  have sent : record newRequests first (past ++ (es ++ fs)) = record newRequests first (past ++ es) := by
    rw [← List.append_assoc, record_append, ← later, out.noneMore, List.append_nil]
  have waiting : t.requests <:+ record newRequests first (past ++ es) := by
    rw [later]
    exact requests_suffix settled none (past ++ es)
  refine ⟨⟨?_, ?_⟩, ?_, ?_, ?_, ?_, ?_, ?_⟩
  · rw [← hs, ends, out.lookups, ht, up.lookups]
  · rw [← hs, ends, out.requests]
  · rw [← hs, record_append, ← ht, up.calls, out.calls, serves]
  · rw [← hs, answeredIn_append, out.answered, List.append_nil]
    exact up.answered
  · rw [← hs, added]
    exact up.oneMore
  · rw [← hs, serves, sent]
    exact waiting
  · have counted := NumberedBy.play settled numbered (past ++ es)
    have before : record accepted first (past ++ es) = record accepted first past := by
      rw [record_append, ← hs, up.accepted, List.append_nil]
    rw [← later, List.nil_append, List.nil_append, before, record_sentNumbers] at counted
    rw [← hs, serves, record_append, ← ht, up.accepted, List.nil_append]
    refine out.accepted counted ?_
    obtain ⟨older, he⟩ := waiting
    exact ⟨older.map Dispatch.number, by rw [← List.map_append, he]⟩
  · have kept := covered_play settled covered (past ++ (es ++ fs))
    rw [play_append, heldOver_append, ← hs, heldOver_append, ← ht, out.held, ends, out.lookups] at kept
    rw [ht, up.lookups, List.append_nil] at kept
    intro stop hm pending
    rw [← hs, ends, ht] at hm
    exact (up.held _).subset (kept stop hm pending)

/-- At any time of any run, a session that runs does so in two rounds at most, whatever its services
answer and in whatever order, with another round as long as anything waits. When nothing waits any more,
just what waited has been looked up, once each, and what waited has been sent, once each, with one more
request at most; only the newest request's answer is applied; and no stop is pending but one whose lookup
is held outside. So it runs with any services, unless one of their responses is put on display while the
debug view is on and its first path has a sum that no word holds: this, and nothing else, stops the
program. -/
theorem run_quiesces (config : SessionConfig) (historyAvailable : Bool) (clock : Instant)
    (es : List Event) :
    let first := start config historyAvailable clock
    let s := first.play es
    (∀ rounds, s.Rounds rounds → rounds.length ≤ 2 ∧
      (¬ (s.play rounds.flatten).Idle → ∃ round, (s.play rounds.flatten).Round round) ∧
      ((s.play rounds.flatten).Idle → Quiesced first es rounds.flatten ∧
        (first.heldOver [] es = [] → (s.play rounds.flatten).NonePending))) ∧
    ∀ {σ : Type} (geocoder : Geocoder) (service : Payload → σ → RoutingResult × σ) (memory : σ),
      ∃ rounds, s.Rounds rounds ∧ (run geocoder service memory s).2 = s.play rounds.flatten ∧
        (run geocoder service memory s).2.Idle ∧
        (¬ s.StopsOn rounds.flatten →
          runOrFault geocoder service memory s = .ok (run geocoder service memory s)) ∧
        (s.StopsOn rounds.flatten → runOrFault geocoder service memory s = .error .overflow) := by
  intro first s
  have settled : s.Settled := ((Reachable.start config historyAvailable clock).play es).settled
  refine ⟨fun rounds h => ?_, fun geocoder service memory => ?_⟩
  · obtain ⟨few, staged⟩ := h.stages settled
    refine ⟨few, exists_round, fun idle => ?_⟩
    obtain ⟨up, out, parts, lookedUp, routed⟩ := staged idle
    have quiesced : Quiesced first es rounds.flatten := by
      rw [parts]
      exact quiesced_of_stages rfl lookedUp routed
    refine ⟨quiesced, fun none stop hs pending => ?_⟩
    have held := quiesced.pending stop hs pending
    rw [none] at held
    cases held
  · obtain ⟨rounds, h, same, idle, faults⟩ := exists_rounds_run geocoder service memory s
    refine ⟨rounds, h, same, same ▸ idle, fun goes => ?_, fun stops => ?_⟩
    · rw [playOrFault_of_clear ((clear_iff_of_ofRun h.ofRun).mpr goes)] at faults
      cases hr : runOrFault geocoder service memory s with
      | ok st => rw [runOrFault_eq_ok hr]
      | error fault =>
        rw [hr] at faults
        cases faults
    · rw [playOrFault_of_not_clear fun clear => (clear_iff_of_ofRun h.ofRun).mp clear stops] at faults
      cases hr : runOrFault geocoder service memory s with
      | ok st =>
        rw [hr] at faults
        cases faults
      | error fault =>
        cases fault
        rfl

/-- Two texts are typed and both are found, the second one first; that leads to a request, which
fails. -/
theorem run_quiesces_when_found :
    let first := start {} false ⟨0, 0⟩
    let typed : List Event := [.edit (.setInput 0 "Bonn"), .edit (.setInput 1 "Köln")]
    let s := first.play typed
    let found := s.lookupRound [(⟨⟨2⟩, "Köln", 1⟩, .ok [⟨50.9, 7.0, "Köln"⟩]),
      (⟨⟨1⟩, "Bonn", 1⟩, .ok [⟨50.7, 7.1, "Bonn"⟩])]
    let asked := (s.play found).requests
    let failed := requestRound (asked.map (·, .error (.transport "timeout")))
    s.lookups.length = 2 ∧ s.requests.length = 0 ∧ asked.length = 1 ∧ s.Rounds [found, failed] ∧
      Quiesced first typed [found, failed].flatten ∧
      (s.play [found, failed].flatten).NonePending := by
  intro first typed s found asked failed
  have waiting : s.lookups = [⟨⟨1⟩, "Bonn", 1⟩, ⟨⟨2⟩, "Köln", 1⟩] := by decide +kernel
  have noneLeft : (s.play found).lookups = [] := by decide +kernel
  have one : asked.length = 1 := by decide +kernel
  have outside : first.heldOver [] typed = [] := by decide +kernel
  have rounds : s.Rounds [found, failed] := by
    refine .cons (.lookups _ ?_ ?_) (.cons (.requests _ noneLeft ?_ ?_) (.nil _))
    · rw [waiting]
      exact List.cons_ne_nil _ _
    · rw [waiting]
      exact .swap _ _ _
    · exact List.ne_nil_of_length_pos (Nat.lt_of_lt_of_eq Nat.one_pos one.symm)
    · rw [List.map_map]
      exact List.map_id _
  have idle : (s.play [found, failed].flatten).Idle := by
    refine ⟨by decide +kernel, List.eq_nil_of_length_eq_zero ?_⟩
    decide +kernel
  obtain ⟨quiesced, settled⟩ := ((run_quiesces {} false ⟨0, 0⟩ typed).1 _ rounds).2.2 idle
  exact ⟨congrArg List.length waiting, by decide +kernel, one, rounds, quiesced, settled outside⟩

/-- A service whose answer goes three times as far south as one number can say stops the program, but only
while the debug view is on. -/
example :
    let path : Path := {
      distance := 25000, time := 1200000, ascend := 0, descend := 0
      points := some (.text "~~~~~~~~~~~~F?~~~~~~~~~~~~F?~~~~~~~~~~~~F?"), snapped := none
      bounds := none, order := none, details := [], legs := [], fare := none, description := none }
    let asked (debug : Bool) := (start {} false ⟨0, 0⟩).play [
      .edit (.setOptions { debug }), .edit (.setInput 0 "50.7,7.1"), .edit (.setInput 1 "50.9,7")]
    let runs (debug : Bool) := (runOrFault (.inOrder fun _ => .ok []) (fun _ () => (.ok ⟨[path]⟩, ()))
      () (asked debug)).isOk
    runs true = false ∧ runs false = true := by decide +kernel

end Itinerary.Session

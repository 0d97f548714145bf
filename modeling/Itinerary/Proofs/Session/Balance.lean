import Itinerary.Proofs.Session.Deliveries
import Mathlib.Data.List.Perm.Subperm

/-! The account of the lookups while each is answered once at most: a stop's own lookup is out exactly
while the stop is pending, so that no two answers on their way are for the same stop. -/
namespace Itinerary.Session
variable {r t : Route} {past done ls : List Lookup}

/-- Every stop's own lookup was issued as often as it was answered, and once more if the stop is
pending. -/
structure Balanced (r : Route) (past done : List Lookup) : Prop extends r.Tracks past where
  known : done ⊆ past
  balanced : ∀ s ∈ r.stops,
    past.count s.lookup = done.count s.lookup + if s.status = .pending then 1 else 0

namespace Balanced

private theorem fresh {s : Stop} (known : done ⊆ past) (hl : s.lookup ∉ past)
    (hp : s.status ≠ .pending) :
    past.count s.lookup = done.count s.lookup + if s.status = .pending then 1 else 0 := by
  have unanswered : s.lookup ∉ done := fun hd => hl (known hd)
  rw [List.count_eq_zero.mpr hl, List.count_eq_zero.mpr unanswered, if_neg hp]

private theorem blank : Balanced Route.blank [] [] where
  toTracks := .blank
  known := List.Subset.refl _
  balanced s hs := by
    rcases Route.mem_blank.mp hs with rfl | rfl <;>
      exact fresh (List.Subset.refl _) List.not_mem_nil (Stop.create_status_ne_pending _ "")

private theorem change (h : Balanced r past done) (w : r.WellFormed) (c : r.Change ls t) :
    Balanced t (past ++ ls) done where
  toTracks := h.toTracks.change w c
  known := List.subset_append_of_subset_left ls h.known
  balanced s hs := by
    cases c.origin w hs with
    | kept hm hn =>
      have unasked : s.lookup ∉ ls := fun hl => hn _ hl rfl
      rw [List.count_append, List.count_eq_zero.mpr unasked]
      exact h.balanced s hm
    | retyped hm text =>
      rw [List.append_nil]
      exact fresh h.known (h.setInput_fresh hm text) (Stop.setInput_status_ne_pending _ text)
    | created text =>
      rw [List.append_nil]
      exact fresh h.known (fun hl => h.not_created hl text rfl) (Stop.create_status_ne_pending _ text)
    | @pending s hm hp =>
      have before := h.balanced s hm
      rw [if_neg hp] at before
      change (past ++ [s.lookup]).count s.lookup = done.count s.lookup + 1
      rw [List.count_append, before, List.count_singleton_self]

private theorem changes (h : Balanced r past done) (w : r.WellFormed) (c : r.Changes ls t) :
    Balanced t (past ++ ls) done :=
  Route.Changes.keep (P := fun r past => Balanced r past done) (fun w c h => h.change w c) w c h

/-- An answer that comes too late is not to the lookup of a pending stop. -/
private theorem stale (h : Balanced r past done) (w : r.WellFormed) {l : Lookup} (ha : r.awaits l = false)
    (hs : (done ++ [l]).Subperm past) : Balanced r past (done ++ [l]) where
  toTracks := h.toTracks
  known := hs.subset
  balanced s hm := by
    -- Were it the stop's own, it would have been answered more often than it was issued.
    have other : l ≠ s.lookup := by
      rintro rfl
      have enough := hs.count_le s.lookup
      have balanced := h.balanced s hm
      rw [List.count_append, List.count_singleton_self] at enough
      have pending : s.status = .pending := by
        by_contra hp
        rw [if_neg hp] at balanced
        omega
      have awaited : r.awaits s.lookup = true := Route.awaits_iff.mpr ⟨s, w.find?_of_mem hm, rfl, pending⟩
      rw [ha] at awaited
      cases awaited
    have unanswered : s.lookup ∉ [l] := fun hl => other (List.mem_singleton.mp hl).symm
    rw [List.count_append, List.count_eq_zero.mpr unanswered]
    exact h.balanced s hm

/-- An answer that is waited for settles the account of its stop. -/
theorem answered (h : Balanced r past done) (w : r.WellFormed) {l : Lookup} (hl : l ∈ past)
    (ha : r.awaits l = true) (result : LookupResult) :
    Balanced (r.modify l.stop (·.resolveWith result)) past (done ++ [l]) where
  toTracks := h.toTracks.answered w l.stop result
  known := List.append_subset.mpr ⟨h.known, List.cons_subset.mpr ⟨hl, List.nil_subset _⟩⟩
  balanced t ht := by
    obtain ⟨s, hs, rfl⟩ := w.mem_modify.mp ht
    obtain ⟨own, hm, _, he, hp⟩ := h.toTracks.awaited w hl ha
    have before := h.balanced s hs
    rw [List.count_append]
    by_cases same : s.id = l.stop
    · cases w.eq_of_id hs hm (same.trans (congrArg Lookup.stop he))
      rw [if_pos hp] at before
      rw [if_pos same, if_neg (s.resolveWith_status_ne_pending result), s.resolveWith_lookup, before, he,
        List.count_singleton_self]
    · have other : s.lookup ∉ [l] := fun hl => same (congrArg Lookup.stop (List.mem_singleton.mp hl))
      rw [if_neg same, List.count_eq_zero.mpr other]
      exact before

private theorem after {s : Session} (h : Balanced s.route past done) (w : s.route.WellFormed) (e : Event)
    (hd : (done ++ e.delivery?.toList.map Prod.fst).Subperm (past ++ s.newLookups e)) :
    Balanced (s.after e).route (past ++ s.newLookups e) (done ++ e.delivery?.toList.map Prod.fst) := by
  cases lookupTurn w e with
  | changed none hc =>
    rw [none, Option.toList_none, List.map_nil, List.append_nil]
    exact h.changes w hc
  | stale d he hw hn hr =>
    have answer : e.delivery?.toList.map Prod.fst = [d.1] := by
      rw [he]
      rfl
    rw [hn, List.append_nil, answer] at hd ⊢
    rw [hr]
    exact h.stale w hw hd
  | answered d he hw hn hr =>
    have answer : e.delivery?.toList.map Prod.fst = [d.1] := by
      rw [he]
      rfl
    rw [hn, List.append_nil, answer] at hd ⊢
    rw [hr]
    have asked : d.1 ∈ past := hd.subset (List.mem_append_right _ (List.mem_singleton_self _))
    exact h.answered w asked hw d.2

/-- Of two answers on their way, at most one is waited for by each stop. -/
theorem apart (h : Balanced r past done) (w : r.WellFormed) {ds : List Delivery}
    (hs : (done ++ ds.map Prod.fst).Subperm past) : ds.Pairwise fun d e =>
      r.awaits d.1 = true → r.awaits e.1 = true → d.1.stop ≠ e.1.stop := by
  refine List.pairwise_iff_forall_sublist.mpr fun {d e} sub hd he same => ?_
  have mem {d : Delivery} (hd : d ∈ ds) : d.1 ∈ past :=
    hs.subset (List.mem_append_right _ (List.mem_map_of_mem hd))
  have both := sub.subset
  obtain ⟨s, hm, hf, first, hp⟩ := h.toTracks.awaited w (mem (both (by simp))) hd
  obtain ⟨t, _, hg, second, _⟩ := h.toTracks.awaited w (mem (both (by simp))) he
  rw [same, hg] at hf
  cases hf
  have twice : 2 ≤ (ds.map Prod.fst).count s.lookup := by
    have sub := (sub.map Prod.fst).count_le s.lookup
    rw [List.map_cons, List.map_cons, List.map_nil, first, second] at sub
    simpa using sub
  have enough := hs.count_le s.lookup
  have balanced := h.balanced s hm
  rw [if_pos hp] at balanced
  rw [List.count_append] at enough
  omega

end Balanced

theorem play_balanced {config : SessionConfig} {historyAvailable : Bool} {clock : Instant}
    {es : List Event} (h : (start config historyAvailable clock).AnswersOnce es) :
    Balanced ((start config historyAvailable clock).play es).route
      ((start config historyAvailable clock).issued es) (answeredIn es) :=
  play_keeps (P := fun r past answers => Balanced r past (answers.map Prod.fst)) .blank
    (fun e w bounds h => by
      rw [List.map_append] at bounds ⊢
      exact h.after w e bounds)
    config historyAvailable clock h

end Itinerary.Session

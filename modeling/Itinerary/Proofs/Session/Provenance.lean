import Itinerary.Proofs.Session.Deliveries

/-! Where the candidates of a stop come from: an answer that was delivered to a lookup of this very
stop, issued for the text that the stop has now. -/
namespace Itinerary.Session
variable {r t : Route} {past ls : List Lookup} {answers : List Delivery}

/-- What was found for a stop was delivered for it and for its present text. -/
structure Sourced (r : Route) (past : List Lookup) (answers : List Delivery) : Prop
    extends r.Tracks past where
  sourced : ∀ s ∈ r.stops, ∀ top others, s.Shows (.found top others) →
    ∃ l ∈ past, (l, .ok (top :: others)) ∈ answers ∧ l.stop = s.id ∧ l.query = Text.trimmed s.input

namespace Sourced

private theorem blank : Sourced Route.blank [] [] where
  toTracks := .blank
  sourced s hs top others hf := by
    rcases Route.mem_blank.mp hs with rfl | rfl <;> cases hf.candidates

private theorem change (h : Sourced r past answers) (w : r.WellFormed) (c : r.Change ls t) :
    Sourced t (past ++ ls) answers where
  toTracks := h.toTracks.change w c
  sourced s hs top others hf := by
    cases c.origin w hs with
    | kept hm hn =>
      obtain ⟨l, hl, answer⟩ := h.sourced s hm top others hf
      exact ⟨l, List.mem_append_left _ hl, answer⟩
    | retyped hm text => cases hf.candidates
    | created text => cases hf.candidates
    | pending hm hp => cases hf.status

private theorem changes (h : Sourced r past answers) (w : r.WellFormed) (c : r.Changes ls t) :
    Sourced t (past ++ ls) answers :=
  Route.Changes.keep (P := fun r past => Sourced r past answers) (fun w c h => h.change w c) w c h

private theorem delivered (h : Sourced r past answers) (d : Delivery) : Sourced r past (answers ++ [d]) where
  toTracks := h.toTracks
  sourced s hs top others hf := by
    obtain ⟨l, hl, answer, own⟩ := h.sourced s hs top others hf
    exact ⟨l, hl, List.mem_append_left _ answer, own⟩

/-- An answer that is waited for becomes the source of what it finds. -/
private theorem answered (h : Sourced r past answers) (w : r.WellFormed) {d : Delivery} (hd : d.1 ∈ past)
    (ha : r.awaits d.1 = true) :
    Sourced (r.modify d.1.stop (·.resolveWith d.2)) past (answers ++ [d]) where
  toTracks := h.toTracks.answered w d.1.stop d.2
  sourced t ht top others hf := by
    obtain ⟨s, hs, rfl⟩ := w.mem_modify.mp ht
    by_cases he : s.id = d.1.stop
    · rw [if_pos he] at hf ⊢
      obtain ⟨own, hm, _, hl, _⟩ := h.toTracks.awaited w hd ha
      cases w.eq_of_id hs hm (he.trans (congrArg Lookup.stop hl))
      have result := Resolution.ofResult_eq_found ((s.resolveWith_shows d.2).eq_found hf)
      obtain ⟨id, input, _⟩ := s.resolveWith_kept d.2
      refine ⟨d.1, hd, ?_, he.symm.trans id.symm, ?_⟩
      · rw [← result]
        exact List.mem_append_right _ (List.mem_singleton_self _)
      · rw [input]
        exact congrArg Lookup.query hl
    · rw [if_neg he] at hf ⊢
      exact (h.delivered d).sourced s hs top others hf

private theorem after {s : Session} (h : Sourced s.route past answers) (w : s.route.WellFormed) (e : Event)
    (hd : (answers ++ e.delivery?.toList).map Prod.fst ⊆ past ++ s.newLookups e) :
    Sourced (s.after e).route (past ++ s.newLookups e) (answers ++ e.delivery?.toList) := by
  cases lookupTurn w e with
  | changed none hc =>
    rw [none, Option.toList_none, List.append_nil]
    exact h.changes w hc
  | stale d he _ hn hr =>
    rw [hn, hr, he, List.append_nil]
    exact h.delivered d
  | answered d he hw hn hr =>
    have known : d.1 ∈ past ++ s.newLookups e := hd (by simp [he, Event.ofDelivery, Event.delivery?])
    rw [hn, List.append_nil] at known ⊢
    rw [hr, he]
    exact h.answered w known hw

end Sourced

private theorem play_sourced {config : SessionConfig} {historyAvailable : Bool} {clock : Instant}
    {es : List Event} (h : (start config historyAvailable clock).AnswersIssued es) :
    Sourced ((start config historyAvailable clock).play es).route
      ((start config historyAvailable clock).issued es) (delivered es) :=
  play_keeps (P := Sourced) .blank (fun e w bounds h => h.after w e bounds) config historyAvailable clock h

/-- In every run in which answers come only for lookups that were issued, and whatever else happens:
a resolved stop whose text is no literal has for its candidates those of an answer that was delivered
to a lookup of this very stop, issued for its present text, and the first of them is its coordinate.
An answer that comes too late is counted and changes nothing else. -/
theorem resolved_from_own_lookup (config : SessionConfig) (historyAvailable : Bool) (clock : Instant)
    (es : List Event) (h : (start config historyAvailable clock).AnswersIssued es) :
    let first := start config historyAvailable clock
    let s := first.play es
    (∀ stop ∈ s.route.toList, stop.status = .resolved → stop.isLiteral = false →
      ∃ l ∈ first.issued es, l.stop = stop.id ∧ l.query = Text.trimmed stop.input ∧
        (l, .ok stop.candidates) ∈ delivered es ∧
        ∃ top others, stop.candidates = top :: others ∧ stop.coordinate = some top.coordinate) ∧
    ∀ l result, (s.completeLookup l result).1 = .stale → (s.completeLookup l result).2 =
      { s with stats := { s.stats with discarded := s.stats.discarded + 1 } } := by
  intro first s
  have w : s.route.WellFormed := ((Reachable.start config historyAvailable clock).play es).settled.wellFormed
  refine ⟨fun stop hs hr hl => ?_, fun l result stale => ?_⟩
  · have member := w.mem_toList.mp hs
    obtain ⟨top, others, found⟩ := (w.sound stop member).found hr hl
    obtain ⟨l, issued, answer, id_eq, query_eq⟩ :=
      (play_sourced h).sourced stop member top others found
    have candidates : stop.candidates = top :: others := found.candidates
    exact ⟨l, issued, id_eq, query_eq, candidates ▸ answer, top, others, candidates, found.coordinate⟩
  · cases hw : s.route.awaits l with
    | false => exact congrArg Prod.snd (completeLookup_stale hw result)
    | true =>
      obtain ⟨status, _, _, _, applied⟩ := completeLookup_applied hw result
      rw [applied] at stale
      cases stale

/-- The text is typed anew while the first lookup is under way, and both answers come. -/
def retyped : List Event :=
  [.edit (.setInput 0 "Bon"), .edit (.setInput 0 " Bonn"),
    .completeLookup ⟨⟨1⟩, "Bonn", 2⟩ (.ok [⟨50.7, 7.1, "Bonn"⟩]),
    .completeLookup ⟨⟨1⟩, "Bon", 1⟩ (.ok [⟨50.9, 7.0, "Bonames"⟩])]

/-- The stop keeps what was found for its second text, and another answer to its first one is too
late. -/
theorem resolved_from_second_lookup :
    let first := start {} false ⟨0, 0⟩
    let s := first.play retyped
    first.AnswersIssued retyped ∧
    (∃ stop ∈ s.route.toList, stop.status = .resolved ∧ stop.isLiteral = false ∧
      ∃ l ∈ first.issued retyped, l.query = Text.trimmed stop.input ∧
        (l, .ok stop.candidates) ∈ delivered retyped) ∧
    (s.completeLookup ⟨⟨1⟩, "Bon", 1⟩ (.ok [])).1 = .stale ∧
    (s.completeLookup ⟨⟨1⟩, "Bon", 1⟩ (.ok [])).2 =
      { s with stats := { s.stats with discarded := s.stats.discarded + 1 } } := by
  intro first s
  have answers : first.AnswersIssued retyped := by decide +kernel
  have resolved : ∃ stop ∈ s.route.toList, stop.status = .resolved ∧ stop.isLiteral = false := by
    decide +kernel
  have stale : (s.completeLookup ⟨⟨1⟩, "Bon", 1⟩ (.ok [])).1 = .stale := by decide +kernel
  obtain ⟨provenance, unchanged⟩ := resolved_from_own_lookup {} false ⟨0, 0⟩ retyped answers
  obtain ⟨stop, hs, hr, hl⟩ := resolved
  obtain ⟨l, issued, _, query_eq, answer, _⟩ := provenance stop hs hr hl
  refine ⟨answers, ⟨stop, hs, hr, hl, l, issued, query_eq, answer⟩, stale, ?_⟩
  simpa only [first, s] using unchanged ⟨⟨1⟩, "Bon", 1⟩ (.ok []) stale

end Itinerary.Session

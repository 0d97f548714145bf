import Itinerary.Proofs.Route.Sync

/-! Resolving by position: which stops are asked for, and what that leaves of each. -/
namespace Itinerary

namespace Stop
variable {s : Stop}

/-- The stop after it has been resolved: a lookup of it is under way, or it stays as it is. -/
def asked (s : Stop) : Stop := if s.resolve.lookup?.isSome then s.markPending else s

theorem asked_of_none (h : s.resolve.lookup? = none) : s.asked = s := by
  rw [asked, h]
  rfl

theorem asked_of_some {l : Lookup} (h : s.resolve.lookup? = some l) : s.asked = s.markPending := by
  rw [asked, h]
  rfl

/-- Asking touches neither the identity of a stop nor its text nor its revision. -/
theorem asked_kept (s : Stop) :
    s.asked.id = s.id ∧ s.asked.input = s.input ∧ s.asked.revision = s.revision := by
  rw [asked]
  split <;> exact ⟨rfl, rfl, rfl⟩

theorem asked_id (s : Stop) : s.asked.id = s.id := s.asked_kept.1

theorem asked_lookup (s : Stop) : s.asked.lookup = s.lookup := by
  obtain ⟨id, input, revision⟩ := s.asked_kept
  rw [lookup, lookup, id, input, revision]

/-- A lookup is issued exactly for text that is no literal and not blank, as long as it is neither
resolved nor being looked up. -/
theorem resolve_lookup? (s : Stop) : s.resolve.lookup? =
    if s.isLiteral = false ∧ s.isBlank = false ∧ s.status ≠ .resolved ∧ s.status ≠ .pending
    then some s.lookup else none := by
  rw [resolve]
  cases s.isLiteral <;> cases s.isBlank <;> cases s.status <;> rfl

theorem resolve_lookup?_of_blank (h : s.isBlank = true) : s.resolve.lookup? = none := by
  rw [resolve_lookup?, if_neg]
  rintro ⟨_, text, _⟩
  rw [h] at text
  cases text

theorem keepsInput_iff {text : String} :
    s.keepsInput text = true ↔ s.input = text ∧ (s.status = .resolved ∨ s.status = .pending) := by
  simp [keepsInput]

theorem resolve_lookup?_of_keepsInput {text : String} (h : s.keepsInput text = true) :
    s.resolve.lookup? = none := by
  rw [resolve_lookup?, if_neg]
  rintro ⟨_, _, unresolved, idle⟩
  exact (keepsInput_iff.mp h).2.elim unresolved idle

private theorem resolve_lookup?_setInput (s : Stop) (text : String) : (s.setInput text).resolve.lookup? =
    if Coordinate.parse? text = none ∧ Text.allBlank text = false
    then some (s.setInput text).lookup else none := by
  have literal : (s.setInput text).isLiteral = (Coordinate.parse? text).isSome := rfl
  have blank : (s.setInput text).isBlank = Text.allBlank text := rfl
  have status : (s.setInput text).status =
      if (Coordinate.parse? text).isSome then .resolved else .unresolved := rfl
  rw [resolve_lookup?, literal, blank, status]
  cases Coordinate.parse? text <;> simp

/-- Giving a stop its text asks for it unless the stop keeps it, the text is a literal or it is blank. -/
theorem resolve_lookup?_fill (s : Stop) (text : String) : (s.fill (some text)).resolve.lookup? =
    if s.keepsInput text = false ∧ Coordinate.parse? text = none ∧ Text.allBlank text = false
    then some (s.fill (some text)).lookup else none := by
  rw [fill]
  cases kept : s.keepsInput text with
  | true => simp [resolve_lookup?_of_keepsInput kept]
  | false => simp [resolve_lookup?_setInput]

/-- After its text has been asked for, a stop keeps it. -/
theorem asked_fill_keepsInput (s : Stop) {text : String} (h : Text.allBlank text = false) :
    (s.fill (some text)).asked.keepsInput text = true := by
  have same : (s.fill (some text)).asked.input = text := (asked_kept _).2.1.trans (s.fill_input text)
  refine keepsInput_iff.mpr ⟨same, ?_⟩
  have issued := s.resolve_lookup?_fill text
  cases kept : s.keepsInput text with
  | true =>
    rw [asked_of_none (issued.trans (if_neg (by simp [kept]))), fill, if_pos kept]
    exact (keepsInput_iff.mp kept).2
  | false =>
    cases literal : Coordinate.parse? text with
    | none =>
      rw [asked_of_some (issued.trans (if_pos ⟨kept, literal, h⟩))]
      exact .inr rfl
    | some c =>
      rw [asked_of_none (issued.trans (if_neg (by simp [literal]))), fill, kept, if_neg Bool.false_ne_true]
      left
      rw [setInput, applyInput, literal]
      rfl

end Stop

namespace Route
variable {r : Route} {i : Nat} {id : StopId} {s : Stop}

/-- Resolving a stop asks for that one. -/
theorem WellFormed.resolve_asked (h : r.WellFormed) (hs : r.find? id = some s) :
    ∃ t, r.resolve id = .ok (s.resolve, t) ∧ t.WellFormed ∧ t.order = r.order ∧
      ∀ other, t.find? other = (r.find? other).map fun u => if u.id = id then u.asked else u := by
  obtain ⟨hm, rfl⟩ := h.find?_some hs
  obtain ⟨t, ht, changes⟩ := h.own_keys.resolve_changes hs
  refine ⟨t, ht, h.changes changes, ?_⟩
  rw [h.own_keys.resolve_of_find? hs] at ht
  have only (other : StopId) {f : Stop → Stop} (hf : f s = s.asked) :
      ((r.find? other).map fun u => if u.id = s.id then f u else u) =
        (r.find? other).map fun u => if u.id = s.id then u.asked else u := by
    refine Option.map_congr fun u hu => ?_
    split
    · rename_i own
      rw [h.eq_of_id (h.find?_some hu).1 hm own, hf]
    · rfl
  cases ho : s.resolve.lookup? with
  | none =>
    rw [ho] at ht
    cases ht
    refine ⟨rfl, fun other => ?_⟩
    rw [← only other (f := fun u => u) (Stop.asked_of_none ho).symm]
    simp
  | some l =>
    rw [ho] at ht
    cases ht
    refine ⟨rfl, fun other => ?_⟩
    exact (h.own_keys.find?_modify s.id other _).trans (only other (Stop.asked_of_some ho).symm)

/-- Resolving several stops asks for each of them as it was. -/
private theorem WellFormed.resolveEach_asked (h : r.WellFormed) {ids : List StopId} (hn : ids.Nodup) :
    (r.resolveEach ids).1.filterMap ResolveOutcome.lookup? =
        (ids.filterMap r.find?).filterMap (·.resolve.lookup?) ∧
      (r.resolveEach ids).2.order = r.order ∧
      ∀ other, (r.resolveEach ids).2.find? other =
        (r.find? other).map fun u => if u.id ∈ ids then u.asked else u := by
  induction ids generalizing r with
  | nil => exact ⟨rfl, rfl, fun other => by simp [resolveEach]⟩
  | cons id ids ih =>
    obtain ⟨fresh, hn⟩ := List.nodup_cons.mp hn
    rw [resolveEach, List.filterMap_cons]
    cases hf : r.find? id with
    | none =>
      obtain ⟨issued, order, stops⟩ := ih h hn
      rw [resolve_of_none hf]
      refine ⟨issued, order, fun other => (stops other).trans ?_⟩
      cases ho : r.find? other with
      | none => rfl
      | some u =>
        have apart : u.id ≠ id := by
          rintro rfl
          rw [(h.find?_some ho).2, ho] at hf
          cases hf
        simp [apart]
    | some s =>
      obtain ⟨t, ht, next, order, stops⟩ := h.resolve_asked hf
      obtain ⟨issued, order', stops'⟩ := ih next hn
      -- The stops that are still to be resolved have not been touched.
      have untouched : ids.filterMap t.find? = ids.filterMap r.find? := by
        refine List.filterMap_congr fun other ho => ?_
        rw [stops]
        cases hu : r.find? other with
        | none => rfl
        | some u =>
          have apart : u.id ≠ id := by
            rw [(h.find?_some hu).2]
            rintro rfl
            exact fresh ho
          rw [Option.map_some, if_neg apart]
      rw [ht]
      dsimp only
      refine ⟨?_, order'.trans order, fun other => ?_⟩
      · rw [List.filterMap_cons, List.filterMap_cons, issued, untouched]
      · rw [stops', stops, Option.map_map]
        congr 1
        funext u
        by_cases own : u.id = id
        · simp [own, Stop.asked_id, fresh]
        · simp [own]

/-- The route after all its stops have been asked for, and the lookups of them in route order. -/
structure Asks (r : Route) (ls : List Lookup) (t : Route) : Prop where
  wellFormed : t.WellFormed
  order : t.order = r.order
  stops : ∀ i, t.at? i = (r.at? i).map Stop.asked
  lookups : ls = r.toList.filterMap (·.resolve.lookup?)

/-- Resolving some of the stops in order asks for all, if the others are blank. -/
theorem WellFormed.asks_filter (h : r.WellFormed) {p : StopId → Bool}
    (others : ∀ s ∈ r.stops, p s.id = false → s.isBlank = true) :
    Asks r ((r.resolveEach (r.order.filter p)).1.filterMap ResolveOutcome.lookup?)
      (r.resolveEach (r.order.filter p)).2 := by
  obtain ⟨issued, order, stops⟩ := h.resolveEach_asked (h.order_nodup.filter p)
  refine ⟨h.changes (h.resolveEach_changes _), order, fun i => ?_, issued.trans ?_⟩
  · rw [at?, at?, order]
    cases hi : r.order[i]? with
    | none => rfl
    | some id =>
      refine (stops id).trans ?_
      rw [Option.bind_some]
      cases hs : r.find? id with
      | none => rfl
      | some s =>
        obtain ⟨hm, rfl⟩ := h.find?_some hs
        rw [Option.map_some, Option.map_some]
        cases hp : p s.id with
        | true => rw [if_pos (List.mem_filter.mpr ⟨List.mem_of_getElem? hi, hp⟩)]
        | false =>
          have silent := Stop.resolve_lookup?_of_blank (others s hm hp)
          rw [Stop.asked_of_none silent, ite_self]
  · rw [toList, List.filterMap_filter, List.filterMap_filterMap, List.filterMap_filterMap]
    congr 1
    funext id
    cases hp : p id with
    | true => rfl
    | false =>
      cases hs : r.find? id with
      | none => rfl
      | some s =>
        obtain ⟨hm, rfl⟩ := h.find?_some hs
        exact (Stop.resolve_lookup?_of_blank (others s hm hp)).symm

theorem WellFormed.asks_all (h : r.WellFormed) :
    Asks r (r.resolveAll.1.filterMap ResolveOutcome.lookup?) r.resolveAll.2 := by
  have all : r.order.filter (fun _ => true) = r.order := List.filter_true r.order
  have asks := h.asks_filter (p := fun _ => true) (fun _ _ no => nomatch no)
  rwa [all] at asks

theorem WellFormed.asks_none (h : r.WellFormed) (blank : ∀ s ∈ r.stops, s.isBlank = true) : Asks r [] r := by
  have none : r.order.filter (fun _ => false) = [] := List.filter_false r.order
  have asks := h.asks_filter (p := fun _ => false) (fun s hs _ => blank s hs)
  rwa [none] at asks

theorem WellFormed.asks_one (h : r.WellFormed) (hs : r.find? id = some s)
    (others : ∀ u ∈ r.stops, u.id ≠ id → u.isBlank = true) :
    ∃ t, r.resolve id = .ok (s.resolve, t) ∧ Asks r s.resolve.lookup?.toList t := by
  obtain ⟨t, ht, _⟩ := h.resolve_asked hs
  have placed : id ∈ r.order := (h.mem_order id).mpr ⟨s, h.find?_some hs⟩
  have one : r.order.filter (· == id) = [id] := by
    rw [List.filter_beq, List.count_eq_one_of_mem h.order_nodup placed]
    rfl
  have asks := h.asks_filter (p := (· == id)) (fun u hu apart => others u hu (by simpa using apart))
  have outcome : r.resolveEach [id] = ([s.resolve], t) := by
    rw [resolveEach, ht]
    rfl
  have issued : [s.resolve].filterMap ResolveOutcome.lookup? = s.resolve.lookup?.toList := by
    cases ho : s.resolve.lookup? <;> simp [ho]
  rw [one, outcome, issued] at asks
  exact ⟨t, ht, asks⟩

end Route
end Itinerary

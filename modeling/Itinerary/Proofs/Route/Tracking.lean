import Itinerary.Proofs.Route.Operations

/-! Which lookups belong to which stops: a lookup is no newer than its stop, and one of the stop's own
revision asks for the stop's own text. -/
namespace Itinerary.Route
variable {r t : Route} {ls past : List Lookup}

/-- Where a stop of the changed route comes from. -/
inductive Origin (r : Route) : List Lookup → Stop → Prop
  | kept {ls : List Lookup} {s : Stop} (hs : s ∈ r.stops) (hl : ∀ l ∈ ls, l.stop ≠ s.id) : Origin r ls s
  | retyped {s : Stop} (hs : s ∈ r.stops) (text : String) : Origin r [] (s.setInput text)
  | created (text : String) : Origin r [] (.create ⟨r.nextNumber⟩ text)
  | pending {s : Stop} (hs : s ∈ r.stops) (hp : s.status ≠ .pending) :
      Origin r [s.lookup] s.markPending

theorem Change.origin (h : r.WellFormed) (c : Change r ls t) {s : Stop} (hs : s ∈ t.stops) :
    Origin r ls s := by
  cases c with
  | retype id f hf =>
    obtain ⟨s, hm, rfl⟩ := h.mem_modify.mp hs
    by_cases he : s.id = id
    · rw [if_pos he]
      rcases hf s with same | ⟨text, typed⟩
      · rw [same]
        exact .kept hm (by simp)
      · rw [typed]
        exact .retyped hm text
    · rw [if_neg he]
      exact .kept hm (by simp)
  | @issue _ l hf hl =>
    obtain ⟨s, hm, rfl⟩ := h.mem_modify.mp hs
    obtain ⟨ho, hid⟩ := h.find?_some hf
    by_cases he : s.id = l.stop
    · rw [if_pos he]
      cases h.eq_of_id hm ho (he.trans hid.symm)
      obtain ⟨rfl, _, _, hp⟩ := Stop.resolve_issued hl
      refine .pending hm ?_
      rcases hp with hp | hp <;> simp [hp]
    · rw [if_neg he]
      refine .kept hm fun l hl => ?_
      rw [List.mem_singleton.mp hl]
      exact Ne.symm he
  | insert index text hi =>
    rw [stops_inserted] at hs
    rcases List.mem_append.mp hs with hm | hm
    · exact .kept hm (by simp)
    · rw [List.mem_singleton.mp hm]
      exact .created text
  | arrange order hn ho h2 =>
    rw [h.own_keys.stops_arranged] at hs
    exact .kept (List.mem_filter.mp hs).1 (by simp)

/-- The numbers handed out to stops only go up. -/
private theorem Change.nextNumber_le (c : Change r ls t) : r.nextNumber ≤ t.nextNumber := by
  cases c with
  | insert index text hi => exact Nat.le_succ _
  | _ => exact Nat.le_refl _

/-- A lookup is issued for a stop as it is. -/
private theorem Change.asked (h : r.WellFormed) (c : Change r ls t) {l : Lookup} (hl : l ∈ ls) :
    ∃ s ∈ r.stops, l = s.lookup := by
  cases c with
  | issue hf ho =>
    rw [List.mem_singleton.mp hl]
    exact ⟨_, (h.find?_some hf).1, (Stop.resolve_issued ho).1⟩
  | _ => simp at hl

/-- What every change of a well-formed route keeps, every row of changes keeps. -/
theorem Changes.keep {P : Route → List Lookup → Prop}
    (step : ∀ {r t : Route} {past ls : List Lookup}, r.WellFormed → Change r ls t →
      P r past → P t (past ++ ls))
    (h : r.WellFormed) (c : Changes r ls t) (hP : P r past) : P t (past ++ ls) := by
  induction c with
  | refl => simpa using hP
  | tail first c ih =>
    rw [← List.append_assoc]
    exact step (h.changes first) c ih

/-- How the stops of a route stand to the lookups issued so far: every lookup for a stop asks for its
present text, or is older. -/
structure Tracks (r : Route) (past : List Lookup) : Prop where
  numbered : ∀ l ∈ past, l.stop.number < r.nextNumber
  current : ∀ l ∈ past, ∀ s ∈ r.stops, l.stop = s.id → l = s.lookup ∨ l.revision < s.revision

namespace Tracks

theorem blank : Route.blank.Tracks [] where
  numbered := by simp
  current := by simp

/-- A stop with a new text was never looked up. -/
theorem setInput_fresh (h : r.Tracks past) {s : Stop} (hs : s ∈ r.stops) (text : String) :
    (s.setInput text).lookup ∉ past := by
  intro hl
  rcases h.current _ hl s hs rfl with he | newer
  · exact absurd (congrArg Lookup.revision he) (Nat.succ_ne_self _)
  · exact absurd newer (Nat.not_lt.mpr (Nat.le_succ _))

/-- A new stop was never looked up. -/
theorem not_created (h : r.Tracks past) {l : Lookup} (hl : l ∈ past) (text : String) :
    l.stop ≠ (Stop.create ⟨r.nextNumber⟩ text).id := by
  intro he
  have below := h.numbered l hl
  rw [he] at below
  exact absurd below (Nat.lt_irrefl _)

theorem change (h : r.Tracks past) (w : r.WellFormed) (c : Change r ls t) :
    t.Tracks (past ++ ls) := by
  refine ⟨fun l hl => ?_, fun l hl s hs he => ?_⟩
  · refine Nat.lt_of_lt_of_le ?_ c.nextNumber_le
    rcases List.mem_append.mp hl with hl | hl
    · exact h.numbered l hl
    · obtain ⟨s, hs, rfl⟩ := c.asked w hl
      exact w.numbered s hs
  · cases c.origin w hs with
    | kept hm hn =>
      rcases List.mem_append.mp hl with hl | hl
      · exact h.current l hl s hm he
      · exact absurd he (hn l hl)
    | @retyped s hm text =>
      -- The new revision leaves every lookup behind, even if the text is the same again.
      rw [List.append_nil] at hl
      right
      rcases h.current l hl s hm he with rfl | older
      · exact Nat.lt_succ_self _
      · exact Nat.lt_succ_of_lt older
    | created text =>
      rw [List.append_nil] at hl
      exact absurd he (h.not_created hl text)
    | @pending s hm hp =>
      rcases List.mem_append.mp hl with hl | hl
      · exact h.current l hl s hm he
      · exact .inl (List.mem_singleton.mp hl)

/-- An answer leaves the texts and the revisions. -/
theorem answered (h : r.Tracks past) (w : r.WellFormed) (id : StopId) (result : LookupResult) :
    (r.modify id (·.resolveWith result)).Tracks past := by
  refine ⟨h.numbered, fun l hl t ht he => ?_⟩
  obtain ⟨s, hs, rfl⟩ := w.mem_modify.mp ht
  have same : (if s.id = id then s.resolveWith result else s).lookup = s.lookup := by
    split
    · exact s.resolveWith_lookup result
    · rfl
  have own := h.current l hl s hs (he.trans (congrArg Lookup.stop same))
  rcases own with own | older
  · exact .inl (own.trans same.symm)
  · exact .inr (Nat.lt_of_lt_of_eq older (congrArg Lookup.revision same).symm)

/-- A stop that waits for a lookup waits for its own. -/
theorem awaited (h : r.Tracks past) (w : r.WellFormed) {l : Lookup} (hl : l ∈ past) (ha : r.awaits l = true) :
    ∃ s ∈ r.stops, r.find? l.stop = some s ∧ l = s.lookup ∧ s.status = .pending := by
  obtain ⟨s, hf, hr, hp⟩ := awaits_iff.mp ha
  obtain ⟨hs, hid⟩ := w.find?_some hf
  refine ⟨s, hs, hf, ?_, hp⟩
  rcases h.current l hl s hs hid.symm with own | older
  · exact own
  · rw [hr] at older
    exact absurd older (Nat.lt_irrefl _)

end Tracks
end Itinerary.Route

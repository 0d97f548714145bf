import Itinerary.Proofs.Route.Change
import Itinerary.Session.Navigation

/-! Every operation on a well-formed route is made of changes, or it is refused and leaves the route
as it was. -/
namespace Itinerary.Route
variable {r : Route}

/-- A new stop is kept beside the others. -/
theorem WellFormed.keep_mint (h : r.WellFormed) (text : String) :
    (r.mint text).2.keep (r.mint text).1 = ⟨r.order,
      r.entries ++ [(⟨r.nextNumber⟩, .create ⟨r.nextNumber⟩ text)], r.nextNumber + 1⟩ := by
  have absent : (r.mint text).2.contains (r.mint text).1.id = false := h.not_contains_next
  rw [keep, absent]
  rfl

theorem insertInput_of_le (h : r.WellFormed) {index : Nat} (hi : index ≤ r.length) (text : String) :
    r.insertInput index text = .ok (⟨r.nextNumber⟩, r.inserted index text) := by
  have fits : ¬ (r.mint text).2.length < index := Nat.not_lt.mpr hi
  rw [insertInput]
  dsimp only
  rw [insert, if_neg fits, h.keep_mint]
  rfl

theorem insertInput_of_lt {index : Nat} (hi : r.length < index) (text : String) :
    r.insertInput index text = .error (.indexOutOfBounds index r.length) := by
  have beyond : (r.mint text).2.length < index := hi
  rw [insertInput]
  dsimp only
  rw [insert, if_pos beyond]
  rfl

theorem push_eq (h : r.WellFormed) (text : String) : r.push text = r.inserted r.length text := by
  rw [push]
  dsimp only
  rw [append, h.keep_mint, inserted, length, List.insertIdx_length_self]
  rfl

/-- Reordering leaves out nothing. -/
private theorem arranged_of_perm (h : r.WellFormed) {order : List StopId} (hp : order.Perm r.order) :
    r.arranged order = { r with order } := by
  have all : (r.entries.filter fun e => decide (e.1 ∈ order)) = r.entries :=
    List.filter_eq_self.mpr fun e he => decide_eq_true (hp.mem_iff.mpr (h.key_mem_order he))
  simp only [arranged, all]

private theorem change_of_perm (h : r.WellFormed) {order : List StopId} (hp : order.Perm r.order) :
    Change r [] { r with order } := by
  rw [← arranged_of_perm h hp]
  refine .arrange order (hp.nodup_iff.mpr h.order_nodup) hp.subset ?_
  rw [hp.length_eq]
  exact h.two_stops

private theorem inside_of_move {origin target : Nat} {s : Route} (hm : r.move origin target = .ok s) :
    origin < r.length ∧ target < r.length := by
  rw [move, checkIndex, checkIndex] at hm
  by_cases found : origin < r.length
  · rw [if_pos found] at hm
    by_cases inside : target < r.length
    · exact ⟨found, inside⟩
    · rw [if_neg inside] at hm
      cases hm
  · rw [if_neg found] at hm
    cases hm

/-- A stop is taken out and put in again, on its own place too. -/
theorem move_of_inside {origin target : Nat} {id : StopId} (hid : r.order[origin]? = some id)
    (inside : target < r.length) :
    r.move origin target = .ok { r with order := (r.order.eraseIdx origin).insertIdx target id } := by
  obtain ⟨found, here⟩ := List.getElem?_eq_some_iff.mp hid
  have start : r.checkIndex origin = .ok () := if_pos found
  have stop : r.checkIndex target = .ok () := if_pos inside
  rw [move, start, stop]
  change (if origin = target then Except.ok r else _) = _
  split
  · rename_i own
    rw [← own, ← here, List.insertIdx_eraseIdx_getElem found]
  · rw [hid]
    rfl

/-- The stop that is taken out leaves room for it at any position. -/
theorem le_length_eraseIdx {origin target : Nat} (found : origin < r.length) (inside : target < r.length) :
    target ≤ (r.order.eraseIdx origin).length := by
  rw [List.length_eraseIdx_of_lt found]
  exact Nat.le_sub_one_of_lt inside

/-- Moving a stop reorders the others and nothing more. -/
theorem exists_perm_of_move {origin target : Nat} {s : Route} (hm : r.move origin target = .ok s) :
    ∃ order : List StopId, order.Perm r.order ∧ s = { r with order } := by
  obtain ⟨found, inside⟩ := inside_of_move hm
  rw [move_of_inside (List.getElem?_eq_getElem found) inside] at hm
  cases hm
  refine ⟨_, (List.perm_insertIdx _ _ (le_length_eraseIdx found inside)).trans ?_, rfl⟩
  exact List.getElem_cons_eraseIdx_perm found

theorem move_changes (h : r.WellFormed) {origin target : Nat} {s : Route}
    (hm : r.move origin target = .ok s) : Changes r [] s := by
  obtain ⟨order, moved, rfl⟩ := exists_perm_of_move hm
  exact (change_of_perm h moved).changes

/-- Taking out a stop leaves out just that one. -/
theorem removeAt_cases (h : r.WellFormed) (index : Nat) :
    (∃ e, r.removeAt index = (.error e, r)) ∨
      ∃ s t, r.removeAt index = (.ok s, t) ∧ Change r [] t := by
  rw [removeAt]
  cases hid : r.order[index]? with
  | none => exact .inl ⟨_, rfl⟩
  | some id =>
    dsimp only
    by_cases few : r.length ≤ minStops
    · exact .inl ⟨_, by rw [if_pos few]⟩
    · rw [if_neg few]
      obtain ⟨hlt, hget⟩ := List.getElem?_eq_some_iff.mp hid
      obtain ⟨s, hs, hf, rfl⟩ := h.find?_of_mem_order (hget ▸ List.getElem_mem hlt)
      have taken : (s.id :: r.order.eraseIdx index).Perm r.order := by
        rw [← hget]
        exact List.getElem_cons_eraseIdx_perm hlt
      have parted := List.nodup_cons.mp (taken.nodup_iff.mpr h.order_nodup)
      have shorter := taken.length_eq
      refine .inr ⟨s, r.arranged (r.order.eraseIdx index), ?_, .arrange _ parted.2 ?_ ?_⟩
      · rw [hf]
        simp only [forget, arranged, Prod.mk.injEq, true_and]
        congr 1
        refine List.filter_congr fun e he => ?_
        rcases List.mem_cons.mp (taken.mem_iff.mpr (h.key_mem_order he)) with own | hm
        · rw [own]
          simpa using parted.1
        · have other : e.1 ≠ s.id := fun own => parted.1 (own ▸ hm)
          simp [hm, other]
      · exact List.eraseIdx_subset
      · rw [List.length_cons] at shorter
        rw [length] at few
        omega

theorem ensureLength_changes (h : r.WellFormed) (length : Nat) : Changes r [] (r.ensureLength length) := by
  have pushed (texts : List String) (s : Route) (hs : s.WellFormed) :
      Changes s [] (texts.foldl push s) := by
    induction texts generalizing s with
    | nil => exact .refl s
    | cons text texts ih =>
      have first : Change s [] (s.push text) := by
        rw [push_eq hs]
        exact .insert _ text (Nat.le_refl _)
      exact first.changes.trans (ih _ (hs.change first))
  exact pushed _ r h

theorem truncate_change (h : r.WellFormed) (length : Nat) : Change r [] (r.truncate length) := by
  have parted : (r.order.take (max length minStops) ++ r.order.drop (max length minStops)).Nodup := by
    rw [List.take_append_drop]
    exact h.order_nodup
  have same : r.truncate length = r.arranged (r.order.take (max length minStops)) := by
    simp only [truncate, arranged]
    congr 1
    refine List.filter_congr fun e he => ?_
    have known := h.key_mem_order he
    rw [← List.take_append_drop (max length minStops) r.order] at known
    have apart := (List.nodup_append.mp parted).2.2 e.1
    rcases List.mem_append.mp known with ht | hd
    · have gone : e.1 ∉ r.order.drop (max length minStops) := fun hd => apart ht _ hd rfl
      simp [ht, gone]
    · have gone : e.1 ∉ r.order.take (max length minStops) := fun ht => apart ht _ hd rfl
      simp [hd, gone]
  rw [same]
  refine .arrange _ (List.nodup_append.mp parted).1 (List.take_subset _ _) ?_
  have := h.two_stops
  rw [Route.length] at this
  rw [List.length_take]
  omega

theorem WellFormed.order_of_at? (h : r.WellFormed) {index : Nat} {s : Stop} (hs : r.at? index = some s) :
    r.order[index]? = some s.id := by
  obtain ⟨id, ho, hf⟩ := Option.bind_eq_some_iff.mp hs
  rw [ho, (h.find?_some hf).2]

/-- At the position of a stop, that stop is changed. -/
theorem WellFormed.modifyAt_eq (h : r.WellFormed) {index : Nat} {s : Stop} (hs : r.at? index = some s)
    (f : Stop → Stop) : r.modifyAt index f = r.modify s.id f := by
  rw [modifyAt, h.order_of_at? hs]

theorem modifyAt_changes (index : Nat) {f : Stop → Stop}
    (hf : ∀ s, f s = s ∨ ∃ text, f s = s.setInput text) : Changes r [] (r.modifyAt index f) := by
  rw [modifyAt]
  split
  · exact (Change.retype _ f hf).changes
  · exact .refl r

private theorem fillFrom_changes (texts : List String) (index : Nat) (r : Route) :
    Changes r [] (Session.fillFrom index r texts) := by
  induction texts generalizing index r with
  | nil =>
    have cleared (ids : List StopId) (s : Route) : Changes s [] (ids.foldl
        (fun r id => r.modify id fun stop => if stop.isBlank then stop else stop.setInput "") s) := by
      induction ids generalizing s with
      | nil => exact .refl s
      | cons id ids ih =>
        refine (Change.retype id _ fun stop => ?_).changes.trans (ih _)
        split
        · exact .inl rfl
        · exact .inr ⟨"", rfl⟩
    exact cleared _ r
  | cons text texts ih =>
    have first : Changes r [] (r.modifyAt index fun stop =>
        if stop.keepsInput text then stop else stop.setInput text) := by
      refine modifyAt_changes index fun stop => ?_
      split
      · exact .inl rfl
      · exact .inr ⟨text, rfl⟩
    exact first.trans (ih (index + 1) _)

/-- Giving the stops the texts of a link looks up nothing. -/
theorem syncStops_changes (h : r.WellFormed) (inputs : List String) :
    Changes r [] (Session.syncStops r inputs) := by
  have grown := ensureLength_changes h inputs.length
  have cut := (truncate_change (h.changes grown) inputs.length).changes
  exact (grown.trans cut).trans (fillFrom_changes inputs 0 _)

theorem resolve_of_none {id : StopId} (h : r.find? id = none) : r.resolve id = .error (.unknownStop id) := by
  rw [resolve]
  rw [h]

/-- A lookup that is issued for a stop under its own identity is the stop's. -/
theorem OwnKeys.issued_stop (own : r.OwnKeys) {id : StopId} {s : Stop} (hs : r.find? id = some s)
    {l : Lookup} (ho : s.resolve = .issued l) : l.stop = id := by
  rw [(Stop.resolve_issued ho).1]
  exact (own.find?_some hs).2

/-- Resolving a stop issues its lookup, or changes nothing. -/
theorem OwnKeys.resolve_of_find? (own : r.OwnKeys) {id : StopId} {s : Stop} (hs : r.find? id = some s) :
    r.resolve id =
      .ok (s.resolve, if s.resolve.lookup?.isSome then r.modify id Stop.markPending else r) := by
  rw [resolve, hs]
  dsimp only
  cases ho : s.resolve with
  | issued l =>
    rw [← own.issued_stop hs ho]
    rfl
  | _ => rfl

theorem OwnKeys.resolve_changes (own : r.OwnKeys) {id : StopId} {s : Stop} (hs : r.find? id = some s) :
    ∃ t, r.resolve id = .ok (s.resolve, t) ∧ Changes r s.resolve.lookup?.toList t := by
  refine ⟨_, own.resolve_of_find? hs, ?_⟩
  cases ho : s.resolve with
  | issued l =>
    obtain rfl := own.issued_stop hs ho
    exact (Change.issue hs ho).changes
  | _ => exact .refl r

theorem filterMap_lookup?_cons (outcome : ResolveOutcome) (rest : List ResolveOutcome) :
    (outcome :: rest).filterMap ResolveOutcome.lookup? =
      outcome.lookup?.toList ++ rest.filterMap ResolveOutcome.lookup? := by
  rw [List.filterMap_cons]
  cases outcome.lookup? <;> rfl

theorem WellFormed.resolveEach_changes (h : r.WellFormed) (ids : List StopId) :
    Changes r ((r.resolveEach ids).1.filterMap ResolveOutcome.lookup?) (r.resolveEach ids).2 := by
  induction ids generalizing r with
  | nil => exact .refl r
  | cons id ids ih =>
    rw [resolveEach]
    cases hs : r.find? id with
    | none =>
      rw [resolve_of_none hs]
      exact ih h
    | some s =>
      obtain ⟨t, ht, first⟩ := h.own_keys.resolve_changes hs
      rw [ht]
      dsimp only
      rw [filterMap_lookup?_cons]
      exact first.trans (ih (h.changes first))

theorem WellFormed.resolveAll_changes (h : r.WellFormed) :
    Changes r (r.resolveAll.1.filterMap ResolveOutcome.lookup?) r.resolveAll.2 :=
  h.resolveEach_changes r.order

/-- There is a stop that waits for the answer to this lookup. -/
def awaits (r : Route) (l : Lookup) : Bool := (r.find? l.stop).any (·.awaits l)

theorem awaits_iff {l : Lookup} :
    r.awaits l = true ↔ ∃ s, r.find? l.stop = some s ∧ s.revision = l.revision ∧ s.status = .pending := by
  simp [awaits, Option.any_eq_true, Stop.awaits_iff]

theorem complete_of_awaits {l : Lookup} (h : r.awaits l = true) (result : LookupResult) :
    ∃ status, r.complete l result = (.applied status, r.modify l.stop (·.resolveWith result)) := by
  obtain ⟨s, hs, ha⟩ := (Option.any_eq_true _ _).mp h
  refine ⟨(s.resolveWith result).status, ?_⟩
  simp only [complete, hs, ha, if_true]

theorem complete_of_not_awaits {l : Lookup} (h : r.awaits l = false) (result : LookupResult) :
    r.complete l result = (.stale, r) := by
  rw [complete]
  cases hs : r.find? l.stop with
  | none => rfl
  | some s =>
    have ha : s.awaits l = false := by simpa [awaits, hs] using h
    simp only [ha, Bool.false_eq_true, if_false]

/-- An answer that is waited for leaves a well-formed route well formed. -/
theorem WellFormed.answered (h : r.WellFormed) {l : Lookup} (ha : r.awaits l = true)
    (result : LookupResult) : (r.modify l.stop (·.resolveWith result)).WellFormed := by
  obtain ⟨s, hs, _, hp⟩ := awaits_iff.mp ha
  refine h.modify l.stop (fun s => s.resolveWith_id result) fun t ht he => ?_
  obtain ⟨hm, hid⟩ := h.find?_some hs
  rw [h.eq_of_id ht hm (he.trans hid.symm)]
  exact Stop.resolveWith_sound (h.sound s hm) hp result

end Itinerary.Route

import Itinerary.Proofs.Route.Operations

/-! The route by position, and what becomes of each position when the route is given the texts of a
link. -/
namespace Itinerary

namespace Stop

/-- The stop with the text for its position, or beyond the texts. It stays as it is if it need not
change. -/
def fill (s : Stop) : Option String → Stop
  | some text => if s.keepsInput text then s else s.setInput text
  | none => if s.isBlank then s else s.setInput ""

private theorem fill_cases (s : Stop) (text? : Option String) :
    s.fill text? = s ∨ ∃ text, s.fill text? = s.setInput text := by
  cases text? with
  | some text =>
    rw [fill]
    split
    · exact .inl rfl
    · exact .inr ⟨text, rfl⟩
  | none =>
    rw [fill]
    split
    · exact .inl rfl
    · exact .inr ⟨"", rfl⟩

private theorem fill_id (s : Stop) (text? : Option String) : (s.fill text?).id = s.id := by
  cases text? <;> rw [fill] <;> split <;> rfl

theorem fill_input (s : Stop) (text : String) : (s.fill (some text)).input = text := by
  rw [fill]
  split
  · rename_i kept
    rw [keepsInput, Bool.and_eq_true] at kept
    exact beq_iff_eq.mp kept.1
  · rfl

theorem fill_none_isBlank (s : Stop) : (s.fill none).isBlank = true := by
  rw [fill]
  split
  · assumption
  · rfl

end Stop

namespace Route
variable {r : Route} {i k : Nat} {s t : Stop}

theorem lt_of_at? (h : r.at? i = some s) : i < r.length := by
  obtain ⟨id, ho, _⟩ := Option.bind_eq_some_iff.mp h
  exact (List.getElem?_eq_some_iff.mp ho).1

theorem at?_of_outside (h : r.length ≤ i) : r.at? i = none := by
  rw [at?, List.getElem?_eq_none h]
  rfl

theorem WellFormed.exists_at? (h : r.WellFormed) (hi : i < r.length) : ∃ s, r.at? i = some s := by
  have here : r.order[i]? = some r.order[i] := List.getElem?_eq_getElem hi
  obtain ⟨s, _, hf, _⟩ := h.find?_of_mem_order (List.getElem_mem hi)
  refine ⟨s, ?_⟩
  rw [at?, here]
  exact hf

/-- A stop stands at one position only. -/
theorem WellFormed.eq_of_at? (h : r.WellFormed) (hs : r.at? i = some s) (ht : r.at? k = some t)
    (he : s.id = t.id) : i = k := by
  apply (List.getElem?_inj (lt_of_at? hs) h.order_nodup).mp
  rw [h.order_of_at? hs, h.order_of_at? ht, he]

private theorem OwnKeys.at?_modify (own : r.OwnKeys) (id : StopId) (f : Stop → Stop) :
    (r.modify id f).at? i = (r.at? i).map fun s => if s.id = id then f s else s := by
  change r.order[i]?.bind (r.modify id f).find? = (r.order[i]?.bind r.find?).map _
  cases r.order[i]? with
  | none => rfl
  | some other => exact own.find?_modify id other f

private theorem WellFormed.at?_modifyAt (h : r.WellFormed) (f : Stop → Stop) :
    (r.modifyAt k f).at? i = (r.at? i).map fun s => if i = k then f s else s := by
  rw [modifyAt]
  cases hk : r.order[k]? with
  | none =>
    refine Option.map_id'.symm.trans (Option.map_congr fun s hs => ?_)
    have apart : i ≠ k := by
      rintro rfl
      rw [h.order_of_at? hs] at hk
      cases hk
    exact (if_neg apart).symm
  | some id =>
    dsimp only
    rw [h.own_keys.at?_modify]
    refine Option.map_congr fun s hs => ?_
    have same : s.id = id ↔ i = k := by
      rw [← Option.some_inj, ← h.order_of_at? hs, ← hk]
      exact List.getElem?_inj (lt_of_at? hs) h.order_nodup
    simp only [same]

/-- The list of the stops in order, by position. -/
theorem WellFormed.getElem?_toList (h : r.WellFormed) (i : Nat) : r.toList[i]? = r.at? i := by
  have known : ∀ id ∈ r.order, (r.find? id).isSome := by
    intro id hid
    obtain ⟨s, _, hf, _⟩ := h.find?_of_mem_order hid
    rw [hf]
    rfl
  have listed (ids : List StopId) (all : ∀ id ∈ ids, (r.find? id).isSome) :
      (ids.filterMap r.find?)[i]? = ids[i]?.bind r.find? := by
    induction ids generalizing i with
    | nil => rfl
    | cons id ids ih =>
      obtain ⟨s, hs⟩ := Option.isSome_iff_exists.mp (all id List.mem_cons_self)
      rw [List.filterMap_cons_some hs]
      cases i with
      | zero => exact hs.symm
      | succ i => exact ih i fun id hid => all id (List.mem_cons_of_mem _ hid)
  exact listed r.order known

theorem WellFormed.exists_position (h : r.WellFormed) (hs : s ∈ r.stops) : ∃ i, r.at? i = some s := by
  obtain ⟨i, hi⟩ := List.mem_iff_getElem?.mp (h.mem_toList.mpr hs)
  rw [h.getElem?_toList] at hi
  exact ⟨i, hi⟩

/-- Changing several stops one after the other changes each of them. -/
private theorem OwnKeys.at?_foldl_modify (own : r.OwnKeys) {g : Stop → Stop} (hg : ∀ s, (g s).id = s.id)
    {ids : List StopId} (hn : ids.Nodup) : (ids.foldl (fun r id => r.modify id g) r).at? i =
      (r.at? i).map fun s => if s.id ∈ ids then g s else s := by
  induction ids generalizing r with
  | nil => simp
  | cons id ids ih =>
    obtain ⟨fresh, hn⟩ := List.nodup_cons.mp hn
    have next : (r.modify id g).OwnKeys := own.modify fun s _ here => (hg s).trans here
    rw [List.foldl_cons, ih next hn, own.at?_modify, Option.map_map]
    congr 1
    funext s
    by_cases he : s.id = id
    · subst he
      simp [hg, fresh]
    · simp [he]

private theorem modifyAt_order (r : Route) (f : Stop → Stop) : (r.modifyAt k f).order = r.order := by
  rw [modifyAt]
  split <;> rfl

private theorem fillFrom_order (texts : List String) (k : Nat) (r : Route) :
    (Session.fillFrom k r texts).order = r.order := by
  induction texts generalizing k r with
  | nil =>
    have kept (ids : List StopId) (g : Stop → Stop) (s : Route) :
        (ids.foldl (fun r id => r.modify id g) s).order = s.order := by
      induction ids generalizing s with
      | nil => rfl
      | cons id ids ih => exact ih (s.modify id g)
    exact kept _ _ r
  | cons text texts ih =>
    rw [Session.fillFrom, ih, modifyAt_order]

/-- From position `k` on every stop gets the text for it. -/
theorem WellFormed.at?_fillFrom (h : r.WellFormed) (texts : List String) (k i : Nat) :
    (Session.fillFrom k r texts).at? i =
      (r.at? i).map fun s => if k ≤ i then s.fill texts[i - k]? else s := by
  induction texts generalizing k r with
  | nil =>
    have cleared := h.own_keys.at?_foldl_modify (i := i) (fun s => s.fill_id none)
      (h.order_nodup.sublist (List.drop_sublist k _))
    refine Eq.trans cleared ?_
    cases hi : r.at? i with
    | none => rfl
    | some s =>
      have here := h.order_of_at? hi
      have beyond : s.id ∈ r.order.drop k ↔ k ≤ i := by
        constructor
        · intro hm
          obtain ⟨j, hj⟩ := List.mem_iff_getElem?.mp hm
          rw [List.getElem?_drop] at hj
          have same := (List.getElem?_inj (lt_of_at? hi) h.order_nodup).mp (here.trans hj.symm)
          omega
        · intro hk
          apply List.mem_iff_getElem?.mpr
          refine ⟨i - k, ?_⟩
          rw [List.getElem?_drop, Nat.add_sub_cancel' hk, here]
      simp only [Option.map_some, beyond, List.getElem?_nil]
  | cons text texts ih =>
    have filled : (r.modifyAt k (·.fill (some text))).WellFormed :=
      h.changes (modifyAt_changes k fun s => s.fill_cases (some text))
    rw [Session.fillFrom]
    refine (ih filled (k + 1)).trans ?_
    rw [h.at?_modifyAt, Option.map_map]
    congr 1
    funext s
    rcases Nat.lt_trichotomy i k with hik | rfl | hik
    · simp [Nat.ne_of_lt hik, show ¬ k + 1 ≤ i by omega, show ¬ k ≤ i by omega]
    · have untouched : ¬ i + 1 ≤ i := Nat.not_succ_le_self i
      simp [untouched]
    · obtain ⟨j, rfl⟩ : ∃ j, i = k + 1 + j := ⟨i - (k + 1), by omega⟩
      have next : k + 1 + j - k = j + 1 := by omega
      simp [Nat.ne_of_gt hik, next, show k ≤ k + 1 + j by omega]

private theorem WellFormed.length_push (h : r.WellFormed) (text : String) :
    (r.push text).length = r.length + 1 := by
  rw [push_eq h]
  exact List.length_insertIdx_of_le_length (Nat.le_refl _) _

private theorem WellFormed.length_ensureLength (h : r.WellFormed) (n : Nat) :
    (r.ensureLength n).length = max r.length n := by
  have pushed (texts : List String) (s : Route) (hs : s.WellFormed) :
      (texts.foldl push s).length = s.length + texts.length := by
    induction texts generalizing s with
    | nil => rfl
    | cons text texts ih =>
      have first : (s.push text).WellFormed := by
        rw [push_eq hs]
        exact hs.inserted (Nat.le_refl _) text
      rw [List.foldl_cons, ih _ first, hs.length_push, List.length_cons]
      omega
  rw [ensureLength, pushed _ r h, List.length_replicate]
  omega

private theorem length_truncate (r : Route) (n : Nat) :
    (r.truncate n).length = min (max n minStops) r.length := List.length_take

theorem WellFormed.length_syncStops (h : r.WellFormed) (inputs : List String) :
    (Session.syncStops r inputs).length = max inputs.length minStops := by
  have enough : minStops ≤ r.length := h.two_stops
  rw [Session.syncStops, length, fillFrom_order]
  refine (length_truncate _ _).trans ?_
  rw [h.length_ensureLength]
  omega

/-- The stops have the texts of the link, and those beyond are blank. -/
theorem WellFormed.syncStops_texts (h : r.WellFormed) {inputs : List String}
    (hs : (Session.syncStops r inputs).at? i = some s) :
    (∀ text, inputs[i]? = some text → s.input = text) ∧ (inputs[i]? = none → s.isBlank = true) := by
  have grown := h.changes (ensureLength_changes h inputs.length)
  have cut := grown.change (truncate_change grown inputs.length)
  rw [Session.syncStops, cut.at?_fillFrom] at hs
  obtain ⟨t, _, rfl⟩ := Option.map_eq_some_iff.mp hs
  rw [if_pos (Nat.zero_le i), Nat.sub_zero]
  constructor
  · intro text ht
    rw [ht]
    exact t.fill_input text
  · intro none
    rw [none]
    exact t.fill_none_isBlank

private theorem WellFormed.push_order (h : r.WellFormed) (text : String) :
    (r.push text).order = r.order ++ [⟨r.nextNumber⟩] := by
  rw [push_eq h]
  exact List.insertIdx_length_self

/-- A new stop stands behind the others. -/
private theorem WellFormed.at?_push (h : r.WellFormed) (text : String) : (r.push text).at? i =
    if i < r.length then r.at? i
    else if i = r.length then some (.create ⟨r.nextNumber⟩ text) else none := by
  have stops (id : StopId) : (r.push text).find? id =
      (r.find? id).or (if ⟨r.nextNumber⟩ = id then some (.create ⟨r.nextNumber⟩ text) else none) := by
    rw [push_eq h, find?, find?, Route.inserted, List.find?_append, Option.map_or, List.find?_singleton]
    simp only [beq_iff_eq]
    split <;> rfl
  rcases Nat.lt_trichotomy i r.length with inside | rfl | beyond
  · obtain ⟨s, hs⟩ := h.exists_at? inside
    obtain ⟨_, found⟩ := h.at?_some hs
    rw [if_pos inside, hs, at?, h.push_order, List.getElem?_append_left inside, h.order_of_at? hs,
      Option.bind_some, stops, found]
    rfl
  · rw [if_neg (Nat.lt_irrefl _), if_pos rfl, at?, h.push_order, length, List.getElem?_concat_length,
      Option.bind_some, stops, h.find?_next, if_pos rfl]
    rfl
  · rw [if_neg (Nat.lt_asymm beyond), if_neg (Nat.ne_of_gt beyond)]
    apply at?_of_outside
    rw [h.length_push]
    exact beyond

/-- New stops at the end leave those before them where they are. -/
theorem WellFormed.at?_foldl_push (h : r.WellFormed) (texts : List String) :
    r.order <+: (texts.foldl push r).order ∧
    (∀ i < r.length, (texts.foldl push r).at? i = r.at? i) ∧
    ∀ i s, r.length ≤ i → (texts.foldl push r).at? i = some s → ∃ id, ∃ text ∈ texts, s = .create id text := by
  induction texts generalizing r with
  | nil =>
    refine ⟨List.prefix_rfl, fun _ _ => rfl, fun i s beyond hs => ?_⟩
    exact absurd (lt_of_at? hs) (Nat.not_lt.mpr beyond)
  | cons text texts ih =>
    have first : (r.push text).WellFormed := by
      rw [push_eq h]
      exact h.inserted (Nat.le_refl _) text
    have longer := h.length_push text
    obtain ⟨order, old, new⟩ := ih first
    have front : r.order <+: (r.push text).order := by
      rw [h.push_order]
      exact List.prefix_append _ _
    refine ⟨front.trans order, fun i hi => ?_, fun i s beyond hs => ?_⟩
    · rw [List.foldl_cons, old i (by omega), h.at?_push, if_pos hi]
    · by_cases here : i = r.length
      · rw [List.foldl_cons, old i (by omega), h.at?_push, if_neg (by omega), if_pos here] at hs
        cases hs
        exact ⟨_, text, List.mem_cons_self, rfl⟩
      · obtain ⟨id, later, mem, same⟩ := new i s (by omega) hs
        exact ⟨id, later, List.mem_cons_of_mem _ mem, same⟩

private theorem WellFormed.at?_truncate (h : r.WellFormed) {n : Nat} (hi : i < max n minStops) :
    (r.truncate n).at? i = r.at? i := by
  have parted := h.order_nodup
  rw [← List.take_append_drop (max n minStops) r.order] at parted
  have order : (r.truncate n).order[i]? = r.order[i]? := List.getElem?_take_of_lt hi
  rw [at?, at?, order]
  cases hid : r.order[i]? with
  | none => rfl
  | some id =>
    have front : id ∈ r.order.take (max n minStops) := List.mem_of_getElem? (order.trans hid)
    have stays : id ∉ r.order.drop (max n minStops) := fun back =>
      (List.nodup_append.mp parted).2.2 id front id back rfl
    change ((r.entries.filter _).find? (·.1 == id)).map Prod.snd = (r.entries.find? (·.1 == id)).map Prod.snd
    rw [List.find?_filter]
    congr 2
    funext e
    by_cases same : e.1 = id
    · simp [same, stays]
    · simp [same]

/-- The stops keep their positions when the route is given texts; those that are left are the first. -/
theorem WellFormed.syncStops_order (h : r.WellFormed) {inputs : List String} {n : Nat} (old : n ≤ r.length)
    (new : n ≤ (Session.syncStops r inputs).length) :
    (Session.syncStops r inputs).order.take n = r.order.take n := by
  rw [h.length_syncStops] at new
  obtain ⟨rest, grown⟩ := (h.at?_foldl_push (List.replicate (inputs.length - r.length) "")).1
  have cut : (Session.syncStops r inputs).order =
      (r.ensureLength inputs.length).order.take (max inputs.length minStops) := fillFrom_order _ _ _
  rw [cut, List.take_take, Nat.min_eq_left new, ensureLength, ← grown, List.take_append_of_le_length old]

/-- Each stop that is left has been given its text, or is a new one that has. -/
theorem WellFormed.syncStops_origin (h : r.WellFormed) {inputs : List String}
    (hs : (Session.syncStops r inputs).at? i = some s) :
    ∃ u, s = u.fill inputs[i]? ∧ (r.at? i = some u ∨ r.at? i = none ∧ u.status = .unresolved) := by
  have grown := h.changes (ensureLength_changes h inputs.length)
  have cut := grown.change (truncate_change grown inputs.length)
  have inside := lt_of_at? hs
  rw [h.length_syncStops] at inside
  obtain ⟨_, old, new⟩ := h.at?_foldl_push (List.replicate (inputs.length - r.length) "")
  rw [Session.syncStops, cut.at?_fillFrom, grown.at?_truncate inside] at hs
  obtain ⟨u, hu, rfl⟩ := Option.map_eq_some_iff.mp hs
  refine ⟨u, by rw [if_pos (Nat.zero_le i), Nat.sub_zero], ?_⟩
  by_cases before : i < r.length
  · left
    rw [← old i before]
    exact hu
  · obtain ⟨id, text, mem, rfl⟩ := new i u (Nat.le_of_not_lt before) hu
    refine .inr ⟨at?_of_outside (Nat.le_of_not_lt before), ?_⟩
    rw [List.eq_of_mem_replicate mem]
    rfl

end Route
end Itinerary

import Itinerary.Proofs.Json.Record

/-! The shape of the values that records are read from: an object with a value under each of the keys, or a
list of the values in the order of the keys. -/
namespace Itinerary.Json
variable {α : Type}

/-- The values that stand under a key. -/
def under (key : String) (members : List (String × Json)) : List Json :=
  (members.filter (·.1 == key)).map Prod.snd

/-- What stands for each of the keys: in an object all that is under it, in a list what is in its place. -/
inductive IsRecord (keys : List String) : Json → List (List Json) → Prop
  | object (members : List (String × Json)) : IsRecord keys (.obj members) (keys.map (under · members))
  | list {items : List Json} (few : items.length ≤ keys.length) : IsRecord keys (.arr items)
    (items.map ([·]) ++ List.replicate (keys.length - items.length) [])

/-- Where nothing stands, there is `absent`; else one value has to stand there, and be like this. -/
inductive Defaults (Is : Json → α → Prop) (absent : α) : List Json → α → Prop
  | absent : Defaults Is absent [] absent
  | present {j : Json} {a : α} : Is j a → Defaults Is absent [j] a

theorem Defaults.length_le {Is : Json → α → Prop} {absent a : α} {values : List Json}
    (h : Defaults Is absent values a) : values.length ≤ 1 := by
  cases h with
  | absent => exact Nat.zero_le 1
  | present => exact Nat.le_refl 1

/-- A list of values, each of which is like this. -/
def IsList (Is : Json → α → Prop) (j : Json) (as : List α) : Prop :=
  ∃ items, j = .arr items ∧ List.Forall₂ Is items as

section
variable {keys : List String} {j : Json} {values : List (List Json)}

private theorem IsRecord.length_eq (h : IsRecord keys j values) : values.length = keys.length := by
  cases h with
  | object members => rw [List.length_map]
  | list few =>
    rw [List.length_append, List.length_map, List.length_replicate]
    exact Nat.add_sub_cancel' few

private theorem lookup_eq_head? (key : String) (members : List (String × Json)) :
    lookup key members = (under key members).head? := by
  rw [lookup, under, List.head?_map, List.head?_filter]

/-- A record is read where no more than one value stands for a key. -/
private theorem IsRecord.exists_record? (h : IsRecord keys j values) (once : ∀ vs ∈ values, vs.length ≤ 1) :
    ∃ positional, j.record? keys = some ⟨values.map List.head?, positional⟩ := by
  cases h with
  | object members =>
    have single : (keys.all fun key => (members.filter (·.1 == key)).length ≤ 1) = true := by
      rw [List.all_eq_true]
      intro key hk
      have few := once _ (List.mem_map_of_mem hk)
      rw [under, List.length_map] at few
      exact decide_eq_true few
    refine ⟨false, ?_⟩
    rw [record?, object?, if_pos single, List.map_map]
    · exact congrArg (fun slots => some (Record.mk slots false))
        (List.map_congr_left fun key _ => lookup_eq_head? key members)
    · intro items he
      cases he
  | list few =>
    refine ⟨true, ?_⟩
    rw [record?, if_pos few, List.map_append, List.map_map, List.map_replicate]
    rfl

/-- Whatever is read as a record has the shape of one. -/
private theorem exists_isRecord {r : Record} (h : j.record? keys = some r) :
    ∃ values, IsRecord keys j values ∧ (∀ vs ∈ values, vs.length ≤ 1) ∧ r.slots = values.map List.head? := by
  cases j with
  | arr items =>
    rw [record?] at h
    split at h
    · rename_i few
      cases h
      refine ⟨_, .list few, ?_, ?_⟩
      · intro vs hvs
        rcases List.mem_append.mp hvs with one | none
        · obtain ⟨item, -, rfl⟩ := List.mem_map.mp one
          exact Nat.le_refl 1
        · rw [List.eq_of_mem_replicate none]
          exact Nat.zero_le 1
      · rw [List.map_append, List.map_map, List.map_replicate]
        rfl
    · cases h
  | obj members =>
    rw [record?, object?] at h
    · split at h
      · rename_i single
        cases h
        refine ⟨_, .object members, ?_, ?_⟩
        · intro vs hvs
          obtain ⟨key, hk, rfl⟩ := List.mem_map.mp hvs
          rw [under, List.length_map]
          exact of_decide_eq_true (List.all_eq_true.mp single key hk)
        · rw [List.map_map]
          exact List.map_congr_left fun key _ => lookup_eq_head? key members
      · cases h
    · intro items he
      cases he
  | _ => cases h

/-- What is made of a record is made of the values that stand for its keys, where no more than one is needed
for each. -/
theorem bind_record?_eq_some_iff (keys : List String) (make : Record → Option α) (a : α)
    (Made : List (List Json) → Prop)
    (makes : ∀ values r, values.length = keys.length → (∀ vs ∈ values, vs.length ≤ 1) →
      r.slots = values.map List.head? → (make r = some a ↔ Made values))
    (once : ∀ values, Made values → ∀ vs ∈ values, vs.length ≤ 1) (j : Json) :
    (j.record? keys).bind make = some a ↔ ∃ values, IsRecord keys j values ∧ Made values := by
  constructor
  · intro h
    obtain ⟨r, hr, made⟩ := Option.bind_eq_some_iff.mp h
    obtain ⟨values, shape, single, slots⟩ := exists_isRecord hr
    exact ⟨values, shape, (makes values r shape.length_eq single slots).mp made⟩
  · rintro ⟨values, shape, made⟩
    obtain ⟨positional, hr⟩ := shape.exists_record? (once values made)
    rw [hr, Option.bind_some]
    exact (makes values _ shape.length_eq (once values made) rfl).mpr made

end

section
variable {read : Json → Option α} {Is : Json → α → Prop} (reads : ∀ j a, read j = some a ↔ Is j a)
  {r : Record} {values : List (List Json)} (once : ∀ vs ∈ values, vs.length ≤ 1)
  (slots : r.slots = values.map List.head?) {i : Nat} {vs : List Json} (stands : values[i]? = some vs)

include slots stands in
private theorem Record.slot_eq_head? : r.slot i = vs.head? := by
  rw [slot, slots, List.getElem?_map, stands, Option.map_some, Option.join_some]

include reads once slots stands

theorem Record.required_eq_some_iff (a : α) : r.required i read = some a ↔ ∃ j, vs = [j] ∧ Is j a := by
  have few := once vs (List.mem_of_getElem? stands)
  rw [required, slot_eq_head? slots stands]
  cases vs with
  | nil => simp
  | cons j rest =>
    cases List.length_eq_zero_iff.mp (Nat.le_zero.mp (Nat.le_of_succ_le_succ few))
    simp [reads]

theorem Record.defaulted_eq_some_iff (absent a : α) :
    r.defaulted i absent read = some a ↔ Defaults Is absent vs a := by
  have few := once vs (List.mem_of_getElem? stands)
  rw [defaulted, slot_eq_head? slots stands]
  cases vs with
  | nil =>
    constructor
    · intro h
      cases h
      exact .absent
    · intro h
      cases h
      rfl
  | cons j rest =>
    cases List.length_eq_zero_iff.mp (Nat.le_zero.mp (Nat.le_of_succ_le_succ few))
    constructor
    · exact fun h => .present ((reads j a).mp h)
    · intro h
      cases h with
      | present is => exact (reads j a).mpr is

end

theorem str?_eq_some_iff (j : Json) (s : String) : j.str? = some s ↔ j = .str s := by
  cases j <;> simp [str?]

theorem list?_eq_some_iff {read : Json → Option α} {Is : Json → α → Prop}
    (reads : ∀ j a, read j = some a ↔ Is j a) (j : Json) (as : List α) :
    j.list? read = some as ↔ IsList Is j as := by
  have items (items : List Json) : items.mapM read = some as ↔ List.Forall₂ Is items as := by
    rw [mapM_eq_some, ← List.forall₂_eq_eq_eq, List.forall₂_map_left_iff, List.forall₂_map_right_iff]
    simp only [reads]
  cases j with
  | arr js => simp [list?, IsList, items]
  | _ => simp [list?, IsList]

end Itinerary.Json

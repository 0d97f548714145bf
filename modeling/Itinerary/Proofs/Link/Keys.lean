import Itinerary.Proofs.Link.Address

/-! Which pairs of a query count, and whether their order does. -/
namespace Itinerary.Link
open Url.Form (Pair)

/-- The same pairs, in an order in which those with one key follow each other as before. -/
def Rearranged (pairs others : List Pair) : Prop := ∀ key, withKey key pairs = withKey key others

namespace Rearranged
variable {pairs others : List Pair}

private theorem symm (h : Rearranged pairs others) : Rearranged others pairs := fun key => (h key).symm

private theorem perm (h : Rearranged pairs others) : pairs.Perm others := by
  rw [List.perm_iff_count]
  intro p
  have all : ∀ l : List Pair, (withKey p.1 l).count p = l.count p := fun l =>
    List.count_filter (beq_self_eq_true p.1)
  rw [← all pairs, ← all others, h]

/-- What the one order makes, the other makes too. -/
private theorem ofPairs_eq_ok {default : Profile} {l : Link} (h : Rearranged pairs others)
    (made : ofPairs pairs default = .ok l) : ofPairs others default = .ok l := by
  obtain ⟨readable, named, decided⟩ := ofPairs_eq_ok_iff.mp made
  have keys := h.perm.map Prod.fst
  refine ofPairs_eq_ok_iff.mpr ⟨fun p hp => readable p (h.perm.mem_iff.mpr hp), ?_, ?_⟩
  · rwa [keys.mem_iff, keys.mem_iff] at named
  · exact
      { points := by rw [decided.points, h]
        options := fun key point vehicle => by rw [decided.options key point vehicle, h]
        zoom := decided.zoom
        token := decided.token }

end Rearranged

/-- What is found fault with stays the same as long as the pairs that cannot be read are kept. -/
theorem find?_unreadable_filter {keep : Pair → Bool} (h : ∀ p, Setting.unreadable p = true → keep p = true)
    (pairs : List Pair) : (pairs.filter keep).find? Setting.unreadable = pairs.find? Setting.unreadable := by
  rw [List.find?_filter]
  congr 1
  funext p
  cases hu : Setting.unreadable p with
  | true => simp [h p hu]
  | false => simp

/-- Leaving out pairs that are no settings changes neither what is made nor what is found fault with. -/
private theorem ofPairs_filter_isKey (pairs : List Pair) (default : Profile) :
    ofPairs (pairs.filter (Setting.isKey ·.1)) default = ofPairs pairs default := by
  have made : draftOf (pairs.filter (Setting.isKey ·.1)) = draftOf pairs := by
    rw [draftOf, draftOf, List.filterMap_filter]
    congr 2
    funext p
    split
    · rfl
    · rename_i other
      exact (Setting.ofPair?_eq_none.mpr (.inl (Bool.eq_false_iff.mpr other))).symm
  rw [ofPairs_eq, ofPairs_eq, find?_unreadable_filter fun p hp => (Bool.and_eq_true_iff.mp hp).1, made]

/-- Behind a host, the order of pairs with different keys does not matter to the link that a query makes,
and pairs that are no settings do not matter at all: the points are the values of the pairs for points, and
every option is decided by the last pair with its key. -/
theorem ofText_whole_decided (query : String) (default : Profile) :
    (∀ other, Rearranged (queryPairs query) (queryPairs other) →
      ∀ l, ofText (whole query) default = .ok l ↔ ofText (whole other) default = .ok l) ∧
    (∀ other,
      (queryPairs query).filter (Setting.isKey ·.1) = (queryPairs other).filter (Setting.isKey ·.1) →
      ofText (whole query) default = ofText (whole other) default) ∧
    ∀ l, ofText (whole query) default = .ok l → l.DecidedBy (queryPairs query) default := by
  refine ⟨fun other rearranged l => ?_, fun other same => ?_, fun l made => ?_⟩
  · rw [ofText_whole, ofText_whole]
    exact ⟨rearranged.ofPairs_eq_ok, rearranged.symm.ofPairs_eq_ok⟩
  · rw [ofText_whole, ofText_whole, ← ofPairs_filter_isKey, same, ofPairs_filter_isKey]
  · rw [ofText_whole] at made
    exact (ofPairs_eq_ok_iff.mp made).2.2

/-- A profile may stand before the points or behind them. -/
theorem profile_first_or_last : ∃ l,
    ofText (whole "profile=foot&point=Bonn&point=Trier") .car = .ok l ∧
    ofText (whole "point=Bonn&point=Trier&profile=foot") .car = .ok l := by
  have before : queryPairs "profile=foot&point=Bonn&point=Trier" =
      [("profile", "foot"), ("point", "Bonn"), ("point", "Trier")] := by decide +kernel
  have behind : queryPairs "point=Bonn&point=Trier&profile=foot" =
      [("point", "Bonn"), ("point", "Trier"), ("profile", "foot")] := by decide +kernel
  have rearranged : Rearranged (queryPairs "profile=foot&point=Bonn&point=Trier")
      (queryPairs "point=Bonn&point=Trier&profile=foot") := by
    intro key
    rw [before, behind]
    by_cases profile : "profile" = key
    · subst profile
      rfl
    · by_cases point : "point" = key <;> simp [withKey, profile, point]
  have made : ∃ l, ofText (whole "profile=foot&point=Bonn&point=Trier") .car = .ok l := by
    have readable : Readable [("profile", "foot"), ("point", "Bonn"), ("point", "Trier")] :=
      find?_unreadable.mp (by decide +kernel)
    rw [ofText_whole, before, ofPairs_of_readable readable]
    exact ⟨_, finish_of_profile readable .car (.inl (by decide))⟩
  obtain ⟨l, hl⟩ := made
  exact ⟨l, hl, ((ofText_whole_decided _ .car).1 _ rearranged l).mp hl⟩

/-- The pairs that links of an older kind do not have. -/
def withoutLegacy (pairs : List Pair) : List Pair := pairs.filter (·.1 ∉ legacyKeys)

private theorem withKey_withoutLegacy {key : String} (h : key ∉ legacyKeys) (pairs : List Pair) :
    withKey key (withoutLegacy pairs) = withKey key pairs := by
  rw [withKey, withoutLegacy, List.filter_filter, withKey]
  congr 1
  funext p
  by_cases same : p.1 = key
  · simp [same, h]
  · simp [same]

/-- Every value of a legacy key can be read. -/
private theorem not_legacy_of_unreadable {p : Pair} (h : Setting.unreadable p = true) : p.1 ∉ legacyKeys := by
  obtain ⟨key, value⟩ := p
  intro legacy
  simp only [legacyKeys, List.mem_cons, List.not_mem_nil, or_false] at legacy
  obtain rfl | rfl | rfl := legacy <;> cases h

private theorem find?_unreadable_withoutLegacy (pairs : List Pair) :
    (withoutLegacy pairs).find? Setting.unreadable = pairs.find? Setting.unreadable :=
  find?_unreadable_filter (fun _ hp => decide_eq_true (not_legacy_of_unreadable hp)) pairs

private theorem vehicle_withoutLegacy (pairs : List Pair) :
    "vehicle" ∉ (withoutLegacy pairs).map Prod.fst := by
  intro mem
  obtain ⟨p, kept, vehicle⟩ := List.mem_map.mp mem
  have fresh : p.1 ∉ legacyKeys := of_decide_eq_true (List.mem_filter.mp kept).2
  exact fresh (vehicle ▸ List.mem_cons_self)

section
variable {pairs : List Pair} (default : Profile)

private theorem ofPairs_withoutLegacy (h : "profile" ∈ pairs.map Prod.fst ∨ "vehicle" ∉ pairs.map Prod.fst) :
    ofPairs pairs default = ofPairs (withoutLegacy pairs) default := by
  rw [ofPairs_eq, ofPairs_eq, find?_unreadable_withoutLegacy]
  cases found : pairs.find? Setting.unreadable with
  | some p => rfl
  | none =>
    have readable := find?_unreadable.mp found
    have kept : Readable (withoutLegacy pairs) := fun p hp => readable p (List.mem_of_mem_filter hp)
    have same := (decidedBy_outcome readable default).eq (decidedBy_outcome kept default) fun key fresh =>
      (withKey_withoutLegacy fresh pairs).symm
    have made := finish_of_profile readable default h
    have made' := finish_of_profile kept default (.inr (vehicle_withoutLegacy pairs))
    dsimp only
    rw [made, made', same]

private theorem ofPairs_of_vehicle (hp : "profile" ∉ pairs.map Prod.fst)
    (hv : "vehicle" ∈ pairs.map Prod.fst) :
    ∃ vehicle, (withKey "vehicle" pairs).getLast? = some ("vehicle", vehicle) ∧
      ofPairs pairs default = .error ((pairs.find? Setting.unreadable).elim (.legacyProfile vehicle)
        fun p => .invalidParameter p.1 p.2) := by
  obtain ⟨vehicle, last⟩ := exists_last_withKey hv
  refine ⟨vehicle, last, ?_⟩
  rw [ofPairs_eq]
  cases found : pairs.find? Setting.unreadable with
  | some p => rfl
  | none => exact finish_of_legacy (find?_unreadable.mp found) default hp last

end

/-- With a profile, or without a vehicle, what is left of an older kind of link does not count. A vehicle
without a profile is refused, the last one by its name, unless fault is found with a value. -/
theorem ofText_legacy {text rest : String} {pairs : List Pair} (h : Reads text pairs)
    (hr : Reads rest (withoutLegacy pairs)) (default : Profile) :
    ("profile" ∈ pairs.map Prod.fst ∨ "vehicle" ∉ pairs.map Prod.fst →
      ofText text default = ofText rest default) ∧
    ("profile" ∉ pairs.map Prod.fst → "vehicle" ∈ pairs.map Prod.fst →
      ∃ vehicle, (withKey "vehicle" pairs).getLast? = some ("vehicle", vehicle) ∧
        ofText text default = .error ((pairs.find? Setting.unreadable).elim (.legacyProfile vehicle)
          fun p => .invalidParameter p.1 p.2)) := by
  rw [h.ofText, hr.ofText]
  exact ⟨ofPairs_withoutLegacy default, ofPairs_of_vehicle default⟩

/-- How a way was to be weighed does not count, even without a profile. What was to be driven is refused. -/
theorem fastest_unrefused :
    ofText "point=Bonn&weighting=fastest" .car = ofText "point=Bonn" .car ∧
    ofText "vehicle=bike&point=Bonn" .car = .error (.legacyProfile "bike") := by
  have weighting : Reads "point=Bonn&weighting=fastest" [("point", "Bonn"), ("weighting", "fastest")] := by
    have text : "point=Bonn&weighting=fastest" =
        String.ofList (Url.Form.encode [("point", "Bonn"), ("weighting", "fastest")]) := by decide +kernel
    rw [text]
    exact reads_encode _
  have vehicle : Reads "vehicle=bike&point=Bonn" [("vehicle", "bike"), ("point", "Bonn")] := by
    have text : "vehicle=bike&point=Bonn" =
        String.ofList (Url.Form.encode [("vehicle", "bike"), ("point", "Bonn")]) := by decide +kernel
    rw [text]
    exact reads_encode _
  have point : Reads "point=Bonn" [("point", "Bonn")] := by
    have text : "point=Bonn" = String.ofList (Url.Form.encode [("point", "Bonn")]) := by decide +kernel
    rw [text]
    exact reads_encode _
  refine ⟨(ofText_legacy weighting point .car).1 (.inr (by decide)), ?_⟩
  obtain ⟨name, last, refused⟩ := (ofText_legacy vehicle point .car).2 (by decide) (by decide)
  cases last
  exact refused

end Itinerary.Link

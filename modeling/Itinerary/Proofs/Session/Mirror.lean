import Itinerary.Proofs.Route.Asked
import Itinerary.Proofs.Session.Arrival
import Itinerary.Proofs.Session.Steering

/-! Going to a link: the stops take its texts, and no more of them are looked up than need be. -/
namespace Itinerary

/-- The stop at this position has this text already, and its place is known or being looked up. -/
def Route.keeps (r : Route) (i : Nat) (text : String) : Bool := (r.at? i).any (·.keepsInput text)

private theorem Route.keeps_iff {r : Route} {i : Nat} {text : String} : r.keeps i text = true ↔
    ∃ stop, r.at? i = some stop ∧ stop.input = text ∧ (stop.status = .resolved ∨ stop.status = .pending) := by
  rw [keeps, Option.any_eq_true]
  exact exists_congr fun stop => and_congr_right fun _ => Stop.keepsInput_iff

/-- A text that is no literal and not blank has to be looked up, unless the stop at its position has it
already and its place is known or being looked up. -/
def Route.needs (r : Route) (i : Nat) (text : String) : Bool :=
  !r.keeps i text && (Coordinate.parse? text).isNone && !Text.allBlank text

/-- Two lists that select the same at every position select the same. -/
private theorem filterMap_eq_of_getElem? {α β γ : Type} {f : α → Option γ} {g : β → Option γ} {l : List α}
    {m : List β} (h : ∀ i : Nat, l[i]?.bind f = m[i]?.bind g) : l.filterMap f = m.filterMap g := by
  induction l generalizing m with
  | nil =>
    have none : ∀ b ∈ m, g b = none := fun b hb => by
      obtain ⟨i, hi⟩ := List.mem_iff_getElem?.mp hb
      have same := h i
      rw [hi] at same
      exact same.symm
    exact (List.filterMap_eq_nil_iff.mpr none).symm
  | cons a l ih =>
    cases m with
    | nil =>
      have first : f a = none := h 0
      rw [List.filterMap_cons, first]
      exact ih (m := []) fun i => h (i + 1)
    | cons b m =>
      have first : f a = g b := h 0
      rw [List.filterMap_cons, List.filterMap_cons, first, ih fun i => h (i + 1)]

namespace Session
variable {s t : Session}

/-- How a session stands to the one before once it has gone to a link. The stops have the link's texts,
with blank ones beyond if there are fewer than two; those at the front are the same ones as before; one
that had its text already, and is known or being looked up, is as it was, so that an answer for it counts
as before; and of the others those with a text are looked up, in the order of the route. -/
structure Mirrors (s t : Session) (link : Link) : Prop where
  length : t.route.length = max link.points.length minStops
  texts : ∀ i text, link.points[i]? = some text → ∃ stop, t.route.at? i = some stop ∧ stop.input = text
  beyond : ∀ i, link.points.length ≤ i → i < t.route.length →
    ∃ stop, t.route.at? i = some stop ∧ stop.isBlank = true
  front : let n := min s.route.length t.route.length
    t.route.order.take n = s.route.order.take n
  kept : ∀ i stop, s.route.at? i = some stop → link.points[i]? = some stop.input →
    stop.status = .resolved ∨ stop.status = .pending →
    t.route.at? i = some stop ∧ ∀ l, l.stop = stop.id → t.route.awaits l = s.route.awaits l
  lookups : t.lookups = s.lookups ++ link.points.zipIdx.filterMap fun (text, i) =>
    if s.route.needs i text then (t.route.at? i).map Stop.lookup else none

private theorem keeps_of_origin {i : Nat} {u : Stop} {text : String}
    (h : s.route.at? i = some u ∨ s.route.at? i = none ∧ u.status = .unresolved) :
    s.route.keeps i text = u.keepsInput text := by
  rcases h with before | ⟨absent, unresolved⟩
  · rw [Route.keeps, before]
    rfl
  · rw [Route.keeps, absent, Stop.keepsInput, unresolved]
    exact (Bool.and_false _).symm

section
variable (h : s.route.WellFormed) {link : Link} {ls : List Lookup} {r : Route}
  (a : (syncStops s.route link.points).Asks ls r)
include h a

/-- Each stop was there before or is new, got its text, and was asked for. -/
theorem exists_origin {i : Nat} (hi : i < max link.points.length minStops) :
    ∃ u, r.at? i = some (u.fill link.points[i]?).asked ∧
      (syncStops s.route link.points).at? i = some (u.fill link.points[i]?) ∧
      (s.route.at? i = some u ∨ s.route.at? i = none ∧ u.status = .unresolved) := by
  have synced := h.changes (Route.syncStops_changes h link.points)
  obtain ⟨stop, hs⟩ := synced.exists_at? (h.length_syncStops link.points ▸ hi)
  obtain ⟨u, rfl, origin⟩ := h.syncStops_origin hs
  refine ⟨u, ?_, hs, origin⟩
  rw [a.stops, hs]
  rfl

private theorem mirrors_kept {i : Nat} {stop : Stop} (hs : s.route.at? i = some stop)
    (typed : link.points[i]? = some stop.input) (known : stop.status = .resolved ∨ stop.status = .pending) :
    r.at? i = some stop ∧ ∀ l, l.stop = stop.id → r.awaits l = s.route.awaits l := by
  have inside := (List.getElem?_eq_some_iff.mp typed).1
  obtain ⟨u, placed, _, origin⟩ := exists_origin h a (Nat.lt_of_lt_of_le inside (Nat.le_max_left _ _))
  have same : u = stop := by
    rcases origin with before | ⟨absent, _⟩
    · exact Option.some.inj (before.symm.trans hs)
    · rw [absent] at hs
      cases hs
  subst same
  have keeps : u.keepsInput u.input = true := Stop.keepsInput_iff.mpr ⟨rfl, known⟩
  rw [typed, Stop.fill, if_pos keeps, Stop.asked_of_none (Stop.resolve_lookup?_of_keepsInput keeps)] at placed
  refine ⟨placed, fun l own => ?_⟩
  rw [Route.awaits, Route.awaits, own, (a.wellFormed.at?_some placed).2, (h.at?_some hs).2]

private theorem mirrors_lookups : ls = link.points.zipIdx.filterMap fun (text, i) =>
    if s.route.needs i text then (r.at? i).map Stop.lookup else none := by
  have synced := h.changes (Route.syncStops_changes h link.points)
  rw [a.lookups]
  refine filterMap_eq_of_getElem? fun i => ?_
  rw [synced.getElem?_toList, List.getElem?_zipIdx]
  by_cases inside : i < max link.points.length minStops
  · obtain ⟨u, placed, filled, origin⟩ := exists_origin h a inside
    rw [filled, Option.bind_some]
    cases typed : link.points[i]? with
    | none => exact Stop.resolve_lookup?_of_blank (u.fill_none_isBlank)
    | some text =>
      have needs : s.route.needs i text = true ↔
          u.keepsInput text = false ∧ Coordinate.parse? text = none ∧ Text.allBlank text = false := by
        simp [Route.needs, keeps_of_origin origin, and_assoc]
      rw [typed] at placed
      rw [Stop.resolve_lookup?_fill]
      simp only [Option.map_some, Option.bind_some, Nat.zero_add, placed, Stop.asked_lookup, needs]
  · have beyond : link.points[i]? = none := List.getElem?_eq_none (by omega)
    have nowhere : (syncStops s.route link.points).at? i = none :=
      Route.at?_of_outside (by rw [h.length_syncStops]; omega)
    rw [nowhere, beyond]
    rfl

end

section
variable (h : s.route.WellFormed) (link : Link)
include h

theorem mirrors_of_wellFormed : Mirrors s (s.navigate link) link := by
  obtain ⟨ls, a, lookups⟩ := navigate_asks h link
  have length : (s.navigate link).route.length = max link.points.length minStops :=
    (congrArg List.length a.order).trans (h.length_syncStops link.points)
  refine ⟨length, fun i text typed => ?_, fun i past inside => ?_, ?_, fun i stop => mirrors_kept h a,
    lookups.trans (congrArg _ (mirrors_lookups h a))⟩
  · have inside := (List.getElem?_eq_some_iff.mp typed).1
    obtain ⟨u, placed, _⟩ := exists_origin h a (Nat.lt_of_lt_of_le inside (Nat.le_max_left _ _))
    rw [typed] at placed
    exact ⟨_, placed, (Stop.asked_kept _).2.1.trans (u.fill_input text)⟩
  · obtain ⟨u, placed, _⟩ := exists_origin h a (length ▸ inside)
    rw [List.getElem?_eq_none past] at placed
    refine ⟨_, placed, ?_⟩
    rw [Stop.isBlank, (Stop.asked_kept _).2.1]
    exact u.fill_none_isBlank
  · dsimp only
    rw [a.order]
    refine h.syncStops_order (Nat.min_le_left _ _) ?_
    rw [h.length_syncStops, ← length]
    exact Nat.min_le_right _ _

/-- At a link every text that is not blank is known or being looked up. -/
private theorem keeps_navigated {i : Nat} {text : String} (typed : link.points[i]? = some text)
    (text' : Text.allBlank text = false) : (s.navigate link).route.keeps i text = true := by
  obtain ⟨ls, a, _⟩ := navigate_asks h link
  have inside := (List.getElem?_eq_some_iff.mp typed).1
  obtain ⟨u, placed, _⟩ := exists_origin h a (Nat.lt_of_lt_of_le inside (Nat.le_max_left _ _))
  rw [Route.keeps, placed, typed]
  exact u.asked_fill_keepsInput text'

end

/-- Going to a link mirrors it, and no stop is looked up that need not be. Going there once more, with the
route as it was left, looks up nothing and leaves all stops that are not blank as they are. -/
theorem navigate_mirrors (h : s.Reachable) (link : Link) :
    Mirrors s (s.navigate link) link ∧
    ∀ u : Session, u.route = (s.navigate link).route → (u.navigate link).lookups = u.lookups ∧
      ∀ i stop, u.route.at? i = some stop → stop.isBlank = false →
        (u.navigate link).route.at? i = some stop := by
  have w := h.wellFormed
  have first := mirrors_of_wellFormed w link
  refine ⟨first, fun u same => ?_⟩
  have w' : u.route.WellFormed := by
    obtain ⟨ls, a, _⟩ := navigate_asks w link
    rw [same]
    exact a.wellFormed
  have again := mirrors_of_wellFormed w' link
  have keeps {i : Nat} {text : String} (typed : link.points[i]? = some text)
      (text' : Text.allBlank text = false) : u.route.keeps i text = true := by
    rw [same]
    exact keeps_navigated w link typed text'
  constructor
  · rw [again.lookups, List.filterMap_eq_nil_iff.mpr, List.append_nil]
    rintro ⟨text, i⟩ mem
    have typed : link.points[i]? = some text := List.mk_mem_zipIdx_iff_getElem?.mp mem
    refine if_neg fun needs => ?_
    rw [Route.needs, Bool.and_eq_true, Bool.and_eq_true] at needs
    obtain ⟨⟨fresh, _⟩, text'⟩ := needs
    rw [keeps typed ((Bool.not_eq_true' _).mp text')] at fresh
    cases fresh
  · intro i stop hs present
    have placed : (s.navigate link).route.at? i = some stop := same ▸ hs
    cases typed : link.points[i]? with
    | none =>
      obtain ⟨own, here, blank⟩ :=
        first.beyond i (List.getElem?_eq_none_iff.mp typed) (Route.lt_of_at? placed)
      cases here.symm.trans placed
      rw [present] at blank
      cases blank
    | some text =>
      obtain ⟨own, here, rfl⟩ := first.texts i text typed
      cases here.symm.trans placed
      obtain ⟨known, hk, _, status⟩ := Route.keeps_iff.mp (keeps typed present)
      cases hk.symm.trans hs
      exact (again.kept i stop hs typed status).1

/-- Of three texts one is known; one takes the place of a text that is being looked up, and one is new. Just
these two are looked up, and only once. -/
theorem halfFound_mirrored :
    let link : Link := { points := ["Bonn", "Trier", "Kiel"], options := {}, zoom := true, token := none }
    halfFound.Reachable ∧
    (halfFound.navigate link).lookups =
      halfFound.lookups ++ [⟨⟨2⟩, "Trier", 2⟩, ⟨⟨3⟩, "Kiel", 1⟩] ∧
    ((halfFound.navigate link).navigate link).lookups = (halfFound.navigate link).lookups := by
  intro link
  have reachable : halfFound.Reachable := (Reachable.start {} false ⟨0, 0⟩).play _
  obtain ⟨mirrors, again⟩ := navigate_mirrors reachable link
  refine ⟨reachable, mirrors.lookups.trans (congrArg _ ?_), (again _ rfl).1⟩
  decide +kernel

end Session
end Itinerary

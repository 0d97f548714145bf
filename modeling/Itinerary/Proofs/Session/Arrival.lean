import Itinerary.Proofs.Route.Asked
import Itinerary.Proofs.Session.Evaluation

/-! Going to a link asks for all the stops that it leaves. -/
namespace Itinerary.Session
variable {s : Session}

/-- Of texts of which just one is not blank, that one has a position, and the others are blank. -/
theorem exists_single {points : List String} (one : (points.countP fun p => !Text.allBlank p) = 1) :
    ∃ j, (points.findIdx? fun p => !Text.allBlank p) = some j ∧ j < points.length ∧
      ∀ i text, points[i]? = some text → i ≠ j → Text.allBlank text = true := by
  induction points with
  | nil => cases one
  | cons p points ih =>
    rw [List.findIdx?_cons]
    rw [List.countP_cons] at one
    cases hp : Text.allBlank p with
    | false =>
      have none : (points.countP fun p => !Text.allBlank p) = 0 := by simpa [hp] using one
      refine ⟨0, rfl, Nat.succ_pos _, ?_⟩
      intro i text hi hn
      obtain ⟨i, rfl⟩ := Nat.exists_eq_succ_of_ne_zero hn
      simpa using List.countP_eq_zero.mp none text (List.mem_of_getElem? hi)
    | true =>
      obtain ⟨j, hj, inside, others⟩ := ih (by simpa [hp] using one)
      refine ⟨j + 1, ?_, Nat.succ_lt_succ inside, ?_⟩
      · rw [hj]
        rfl
      · intro i text hi hn
        cases i with
        | zero =>
          cases hi
          exact hp
        | succ i => exact others i text hi fun he => hn (congrArg Nat.succ he)

/-- Of a link with one text, the stop with that one is asked for. -/
private theorem focusSingle_asks (h : s.route.WellFormed) {points : List String} {j : Nat} {id : StopId}
    (hj : (points.findIdx? fun p => !Text.allBlank p) = some j) (hid : s.route.order[j]? = some id)
    (others : ∀ stop ∈ s.route.stops, stop.id ≠ id → stop.isBlank = true) :
    ∃ ls, s.route.Asks ls (s.focusSingle points).route ∧ (s.focusSingle points).lookups = s.lookups ++ ls := by
  obtain ⟨stop, _, hf, _⟩ := h.find?_of_mem_order (List.mem_of_getElem? hid)
  obtain ⟨route, resolved, asks⟩ := h.asks_one hf others
  have asked : resolve { s with focusOn := some id } id = (.ok (), { s with
      route
      focusOn := some id
      stats := s.stats.countIssued stop.resolve
      lookups := s.lookups ++ stop.resolve.lookup?.toList }) := by
    rw [resolve]
    rw [resolved]
  obtain ⟨focusOn, es, _, focused⟩ := tryFocus_eq_shown { s with
    route
    focusOn := some id
    stats := s.stats.countIssued stop.resolve
    lookups := s.lookups ++ stop.resolve.lookup?.toList }
  refine ⟨stop.resolve.lookup?.toList, ?_⟩
  unfold focusSingle
  rw [hj]
  dsimp only [Option.getD_some]
  rw [hid]
  dsimp only
  rw [asked]
  dsimp only
  rw [focused]
  exact ⟨asks, rfl⟩

/-- However many of its texts are blank, going to a link asks for all stops as they are then. -/
theorem navigate_asks (h : s.route.WellFormed) (link : Link) :
    ∃ ls, (syncStops s.route link.points).Asks ls (s.navigate link).route ∧
      (s.navigate link).lookups = s.lookups ++ ls := by
  have synced := h.changes (Route.syncStops_changes h link.points)
  have blank {i : Nat} {stop : Stop} (hi : (syncStops s.route link.points).at? i = some stop)
      (none : ∀ text, link.points[i]? = some text → Text.allBlank text = true) : stop.isBlank = true := by
    obtain ⟨typed, beyond⟩ := h.syncStops_texts hi
    cases hp : link.points[i]? with
    | none => exact beyond hp
    | some text =>
      rw [Stop.isBlank, typed text hp]
      exact none text hp
  rcases (by omega : link.nonBlankPoints = 0 ∨ link.nonBlankPoints = 1 ∨ 2 ≤ link.nonBlankPoints) with
    none | one | two
  · rw [navigate_none none]
    refine ⟨[], synced.asks_none fun stop hs => ?_, (List.append_nil _).symm⟩
    obtain ⟨i, hi⟩ := synced.exists_position hs
    refine blank hi fun text hp => ?_
    simpa using List.countP_eq_zero.mp none text (List.mem_of_getElem? hp)
  · obtain ⟨j, hj, below, others⟩ := exists_single one
    have inside : j < (syncStops s.route link.points).length := by
      rw [h.length_syncStops]
      exact Nat.lt_of_lt_of_le below (Nat.le_max_left _ _)
    obtain ⟨own, hown⟩ := synced.exists_at? inside
    rw [navigate_one one]
    refine focusSingle_asks (s := s.mirrored link) synced hj (synced.order_of_at? hown) ?_
    intro stop hs other
    obtain ⟨i, hi⟩ := synced.exists_position hs
    refine blank hi fun text hp => others i text hp ?_
    rintro rfl
    rw [hi] at hown
    cases hown
    exact other rfl
  · rw [navigate_two two, evaluate_route, evaluate_lookups]
    exact ⟨_, synced.asks_all, rfl⟩

end Itinerary.Session

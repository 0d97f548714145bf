import Itinerary.Proofs.Session.Steps

/-! The three ways an edit may go. -/
namespace Itinerary.Session
variable {s : Session}

/-- An edit on the map leaves the map where it is. -/
def Edit.keepsView : Edit → Bool
  | .addIntermediate _ | .dragMarker _ _ => true
  | _ => false

/-- The options after an edit. -/
def Edit.optionsFrom (o : Options) : Edit → Options
  | .setProfile profile => { o with profile }
  | .setUnits units => { o with units }
  | .setOptions options => options
  | _ => o

/-- The session that an edit has changed, before it is looked at what follows. -/
def revised (s : Session) (e : Edit) (route : Route) (ls : List Lookup) : Session :=
  { s.issue route ls with
    options := e.optionsFrom s.options
    dispatcher := { s.dispatcher with zoom := !e.keepsView && s.dispatcher.zoom } }

/-- An edit is refused and leaves the session as it was, or is skipped, or goes through. -/
inductive EditCase (s : Session) (e : Edit) : Prop
  | refused (error : RouteError) (h : s.edit e = (.error error, s))
  | skipped (hs : s.skips e = true) (h : s.edit e = (.ok (), s))
  | done (hs : s.skips e = false) (route : Route) (ls : List Lookup)
      (hc : Route.Changes s.route ls route)
      (h : s.edit e = (.ok (), (s.revised e route ls).afterEdit))

private theorem setCoordinate_cases (s : Session) (index : Nat) (c : Coordinate) :
    (∃ error, s.setCoordinate index c = (.error error, s)) ∨ ∃ route,
      Route.Changes s.route [] route ∧
        s.setCoordinate index c = (.ok (), (s.issue route []).afterEdit) := by
  rw [setCoordinate]
  cases hs : s.route.at? index with
  | none => exact .inl ⟨_, rfl⟩
  | some stop =>
    refine .inr ⟨_, Route.modifyAt_changes index (f := (·.setCoordinate c)) fun _ => ?_, ?_⟩
    · exact .inr ⟨c.literal, rfl⟩
    · simp only [issue, List.append_nil, List.length_nil, Nat.add_zero]

private theorem resolve_inserted (h : s.route.WellFormed) {index : Nat} (hi : index ≤ s.route.length)
    (text : String) : ∃ route ls, Route.Changes s.route ls route ∧
      { s with route := s.route.inserted index text }.resolve ⟨s.route.nextNumber⟩ =
        (.ok (), s.issue route ls) := by
  have first : Route.Change s.route [] (s.route.inserted index text) := .insert index text hi
  obtain ⟨route, ls, hc, hr⟩ := resolve_eq_issue (s := { s with route := s.route.inserted index text })
    (h.change first) (h.find?_inserted hi text)
  exact ⟨route, ls, first.changes.trans hc, hr⟩

private theorem setInput_cases (h : s.route.WellFormed) (index : Nat) (text : String) :
    EditCase s (.setInput index text) := by
  cases hs : s.route.at? index with
  | none => exact .refused (.indexOutOfBounds index s.route.length) (by simp only [edit, setInput, hs])
  | some stop =>
    by_cases hk : stop.keepsInput text
    · refine .skipped ?_ ?_
      · simp [skips, hs, hk]
      · simp [edit, setInput, hs, hk]
    · have typed : Route.Changes s.route [] (s.route.modifyAt index (·.setInput text)) :=
        Route.modifyAt_changes index fun _ => .inr ⟨text, rfl⟩
      have found : (s.route.modifyAt index (·.setInput text)).find? stop.id = some (stop.setInput text) := by
        rw [h.modifyAt_eq hs]
        exact Route.find?_modify_self (h.at?_some hs).2 _
      obtain ⟨route, ls, hc, hr⟩ := resolve_eq_issue
        (s := { s with route := s.route.modifyAt index (·.setInput text) }) (h.changes typed) found
      refine .done ?_ route ls (typed.trans hc) ?_
      · simp [skips, hs, hk]
      · simp only [edit, setInput, hs, hk, Bool.false_eq_true, if_false, hr]
        rfl

private theorem insertInput_cases (h : s.route.WellFormed) (index : Nat) (text : String) :
    EditCase s (.insertInput index text) := by
  rcases Nat.lt_or_ge s.route.length index with hi | hi
  · refine .refused (.indexOutOfBounds index s.route.length) ?_
    simp only [edit, insertInput, Route.insertInput_of_lt hi, forgetId]
  · obtain ⟨route, ls, hc, hr⟩ := resolve_inserted h hi text
    refine .done rfl route ls hc ?_
    simp only [edit, insertInput, Route.insertInput_of_le h hi, hr, forgetId]
    rfl

private theorem addIntermediate_cases (h : s.route.WellFormed) (c : Coordinate) :
    EditCase s (.addIntermediate c) := by
  obtain ⟨index, hx⟩ : ∃ index, (s.indexOnPath c).getD (max (s.route.length - 1) 1) = index := ⟨_, rfl⟩
  rcases Nat.lt_or_ge s.route.length index with hi | hi
  · refine .refused (.indexOutOfBounds index s.route.length) ?_
    simp only [edit, addIntermediate, addClicked, hx, Route.insertInput_of_lt hi, forgetId]
  · refine .done rfl _ [] (Route.Change.insert _ c.literal hi).changes ?_
    simp only [edit, addIntermediate, addClicked, hx, Route.insertInput_of_le h hi, forgetId]
    simp only [revised, issue, List.append_nil, List.length_nil, Nat.add_zero]
    rfl

/-- Every edit of a session with a well-formed route goes one of the three ways. In particular,
whatever may fail fails before anything is changed. -/
theorem edit_cases (h : s.route.WellFormed) (e : Edit) : EditCase s e := by
  have plain (route : Route) (hc : Route.Changes s.route [] route) :
      { s with route }.afterEdit = (s.issue route []).afterEdit := by
    simp only [issue, List.append_nil, List.length_nil, Nat.add_zero]
  cases e with
  | setInput index text => exact setInput_cases h index text
  | insertInput index text => exact insertInput_cases h index text
  | setStart c =>
    rcases setCoordinate_cases s 0 c with ⟨error, he⟩ | ⟨route, hc, he⟩
    · exact .refused error he
    · exact .done rfl route [] hc he
  | setEnd c =>
    rcases setCoordinate_cases s (s.route.length - 1) c with ⟨error, he⟩ | ⟨route, hc, he⟩
    · exact .refused error he
    · exact .done rfl route [] hc he
  | setCoordinate index c =>
    rcases setCoordinate_cases s index c with ⟨error, he⟩ | ⟨route, hc, he⟩
    · exact .refused error he
    · exact .done rfl route [] hc he
  | addIntermediate c => exact addIntermediate_cases h c
  | dragMarker id c =>
    by_cases hk : s.route.contains id
    · refine .done rfl _ [] (Route.Change.retype id (·.setCoordinate c) fun _ => ?_).changes ?_
      · exact .inr ⟨c.literal, rfl⟩
      · simp only [edit, dragMarker, hk, if_true, revised, issue, List.append_nil, List.length_nil,
          Nat.add_zero]
        rfl
    · exact .refused (.unknownStop id) (by simp only [edit, dragMarker, hk]; rfl)
  | moveToStart index =>
    cases hm : s.route.move index 0 with
    | error error => exact .refused error (by simp only [edit, moveToStart, hm]; rfl)
    | ok route =>
      refine .done rfl route [] (Route.move_changes h hm) ?_
      simp only [edit, moveToStart, hm]
      exact congrArg (Prod.mk _) (plain route (Route.move_changes h hm))
  | moveToEnd index =>
    cases hm : s.route.moveToEnd index with
    | error error => exact .refused error (by simp only [edit, moveToEnd, hm]; rfl)
    | ok route =>
      refine .done rfl route [] (Route.move_changes h hm) ?_
      simp only [edit, moveToEnd, hm]
      exact congrArg (Prod.mk _) (plain route (Route.move_changes h hm))
  | moveStop origin target =>
    by_cases ho : origin = target
    · refine .skipped ?_ ?_
      · simp [skips, ho]
      · simp [edit, moveStop, ho]
    · cases hm : s.route.move origin target with
      | error error => exact .refused error (by simp only [edit, moveStop, ho, if_false, hm]; rfl)
      | ok route =>
        refine .done ?_ route [] (Route.move_changes h hm) ?_
        · simp [skips, ho]
        · simp only [edit, moveStop, ho, if_false, hm]
          exact congrArg (Prod.mk _) (plain route (Route.move_changes h hm))
  | removeStop index =>
    rcases Route.removeAt_cases h index with ⟨error, he⟩ | ⟨stop, route, he, hc⟩
    · exact .refused error (by simp only [edit, removeStop, he])
    · refine .done rfl route [] hc.changes ?_
      simp only [edit, removeStop, he]
      exact congrArg (Prod.mk _) (plain route hc.changes)
  | setProfile profile =>
    obtain ⟨route, ls, hc, hr⟩ := resolveAll_eq_issue
      (s := { s with options := { s.options with profile } }) h
    refine .done rfl route ls hc ?_
    simp only [edit, setProfile, hr]
    rfl
  | setUnits units =>
    obtain ⟨route, ls, hc, hr⟩ := resolveAll_eq_issue
      (s := { s with options := { s.options with units } }) h
    refine .done rfl route ls hc ?_
    simp only [edit, setUnits, hr]
    rfl
  | setOptions options =>
    refine .done rfl s.route [] (.refl _) ?_
    simp only [edit, setOptions, revised, issue, List.append_nil, List.length_nil, Nat.add_zero]
    rfl
  | submit =>
    obtain ⟨route, ls, hc, hr⟩ := resolveAll_eq_issue h
    refine .done rfl route ls hc ?_
    simp only [edit, submit, hr]
    rfl

end Itinerary.Session

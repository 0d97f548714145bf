import Itinerary.Proofs.Geometry.Keyword
import Itinerary.Proofs.Session.Event

/-! What stops the program: a geometry with a running sum that no word holds, where it is read for a click
or for the debug view. As long as none is, a run goes as it does without faults. -/
namespace Itinerary

namespace Geometry
variable {g : Geometry} {elevation : Bool}

/-- The geometry is read as an encoded polyline, and one of its running sums is no word. -/
def Overflows (elevation : Bool) : Geometry → Prop
  | .text s => ¬ TakenForWkt s ∧ ¬ Polyline.Fits s elevation
  | .lineString _ => False

private theorem decode_eq_overflow_iff : g.decode elevation = .error .overflow ↔ g.Overflows elevation := by
  cases g with
  | lineString tuples => exact ⟨nofun, False.elim⟩
  | text s =>
    by_cases taken : TakenForWkt s
    · rw [decode_of_taken taken]
      refine ⟨fun overflow => ?_, fun h => absurd taken h.1⟩
      rcases Polyline.ofWkt_cases s with ⟨reason, made⟩ | ⟨_, made | ⟨tuples, made⟩⟩
      all_goals
        rw [made] at overflow
        cases overflow
    · rw [decode_of_not_taken taken, Polyline.decode_eq_overflow_iff, Overflows, and_iff_right taken]

private theorem orFault_of_ne {α : Type} {r : Except GeometryError α} (h : r ≠ .error .overflow) :
    orFault r = .ok r.toOption := by
  cases r with
  | ok a => rfl
  | error e =>
    cases e with
    | overflow => exact absurd rfl h
    | _ => rfl

end Geometry

/-- The drawing of the path stops the program. -/
def Path.Overflows (p : Path) (elevation : Bool) : Prop := ∃ g, p.points = some g ∧ g.Overflows elevation

/-- The path can be drawn, but its snapped stops stop the program. -/
def Path.SnappedOverflow (p : Path) (elevation : Bool) : Prop :=
  (∃ drawn, p.geometry elevation = .ok drawn) ∧ ∃ g, p.snapped = some g ∧ g.Overflows elevation

/-- The first path of the response does. -/
def Response.Overflows (r : Response) (elevation : Bool) : Prop :=
  ∃ path, r.paths.head? = some path ∧ path.Overflows elevation

namespace Path
variable {p : Path} {elevation : Bool}

private theorem decoded_eq_overflow_iff {geometry : Option Geometry} :
    decoded elevation geometry = .error .overflow ↔ ∃ g, geometry = some g ∧ g.Overflows elevation := by
  cases geometry with
  | none => exact ⟨nofun, nofun⟩
  | some g =>
    refine Geometry.decode_eq_overflow_iff.trans ⟨fun h => ⟨g, rfl, h⟩, ?_⟩
    rintro ⟨_, ⟨⟩, h⟩
    exact h

end Path

namespace Session
variable {s t : Session}

/-- Reading the displayed path for a click stops the program. -/
def ClickOverflows (s : Session) : Prop := ∃ path, s.selectedPath? = some path ∧
  (path.Overflows s.options.elevation ∨ path.SnappedOverflow s.options.elevation)

private theorem indexOnPathOrFault_of_overflows (h : s.ClickOverflows) (click : Coordinate) :
    s.indexOnPathOrFault click = .error .overflow := by
  obtain ⟨path, shown, drawing | ⟨⟨drawn, hd⟩, snapped⟩⟩ := h
  · have stops : path.geometry s.options.elevation = .error .overflow :=
      Path.decoded_eq_overflow_iff.mpr drawing
    rw [indexOnPathOrFault, shown]
    dsimp only
    rw [stops]
    rfl
  · have stops : path.snappedStops s.options.elevation = .error .overflow :=
      Path.decoded_eq_overflow_iff.mpr snapped
    rw [indexOnPathOrFault, shown]
    dsimp only
    rw [hd, stops]
    rfl

private theorem indexOnPathOrFault_of_clear (h : ¬ s.ClickOverflows) (click : Coordinate) :
    s.indexOnPathOrFault click = .ok (s.indexOnPath click) := by
  rw [indexOnPathOrFault, indexOnPath]
  cases shown : s.selectedPath? with
  | none => rfl
  | some path =>
    have drawing : path.geometry s.options.elevation ≠ .error .overflow := fun overflow =>
      h ⟨path, shown, .inl (Path.decoded_eq_overflow_iff.mp overflow)⟩
    dsimp only [Option.bind_eq_bind, Option.bind_some]
    rw [Geometry.orFault_of_ne drawing]
    cases hd : path.geometry s.options.elevation with
    | error e => rfl
    | ok drawn =>
      have snapped : path.snappedStops s.options.elevation ≠ .error .overflow := fun overflow =>
        h ⟨path, shown, .inr ⟨⟨drawn, hd⟩, Path.decoded_eq_overflow_iff.mp overflow⟩⟩
      rw [Geometry.orFault_of_ne snapped]
      cases path.snappedStops s.options.elevation with
      | error e => rfl
      | ok stops =>
        dsimp only [Except.toOption, bind, Except.bind, Option.bind]
        split <;> rfl

theorem addIntermediateOrFault_of_overflows (h : s.ClickOverflows) (click : Coordinate) :
    s.addIntermediateOrFault click = .error .overflow := by
  rw [addIntermediateOrFault, indexOnPathOrFault_of_overflows h]
  rfl

theorem addIntermediateOrFault_of_clear (h : ¬ s.ClickOverflows) (click : Coordinate) :
    s.addIntermediateOrFault click = .ok (s.addIntermediate click) := by
  rw [addIntermediateOrFault, indexOnPathOrFault_of_clear h]
  rfl

/-- The response that an event puts on display. -/
def displayed (s : Session) : Event → List Response
  | .completeRequest number (.ok response) =>
    if (s.completeRequest number (.ok response)).1 then [response] else []
  | _ => []

/-- The event stops the program. -/
def Overflows (s : Session) (e : Event) : Prop :=
  match e with
  | .edit (.addIntermediate _) => s.ClickOverflows
  | .completeRequest number result => s.options.debug = true ∧
      ∃ response ∈ s.displayed (.completeRequest number result), response.Overflows s.options.elevation
  | _ => False

/-- No event of the run stops the program. -/
def Clear : Session → List Event → Prop
  | _, [] => True
  | s, e :: es => ¬ s.Overflows e ∧ (s.after e).Clear es

/-- The session after an event, unless that stops the program. -/
def afterOrFault (s : Session) : Event → Except Fault Session
  | .edit (.addIntermediate c) => (s.addIntermediateOrFault c).map Prod.snd
  | .completeRequest number result => (s.completeRequestOrFault number result).map Prod.snd
  | e => .ok (s.after e)

def playOrFault (s : Session) (es : List Event) : Except Fault Session := es.foldlM afterOrFault s

private theorem readDetails_of_overflows {response : Response} (h : response.Overflows s.options.elevation) :
    s.readDetails response = .error .overflow := by
  obtain ⟨path, first, drawing⟩ := h
  have overflow : path.geometry s.options.elevation = .error .overflow :=
    Path.decoded_eq_overflow_iff.mpr drawing
  rw [readDetails, first]
  dsimp only
  rw [overflow]
  rfl

private theorem readDetails_of_clear {response : Response} (h : ¬ response.Overflows s.options.elevation) :
    s.readDetails response = .ok () := by
  rw [readDetails]
  cases first : response.paths.head? with
  | none => rfl
  | some path =>
    have drawing : path.geometry s.options.elevation ≠ .error .overflow := fun overflow =>
      h ⟨path, first, Path.decoded_eq_overflow_iff.mp overflow⟩
    dsimp only
    rw [Geometry.orFault_of_ne drawing]
    rfl

private theorem completeRequestOrFault_of_overflows {number : Nat} {result : RoutingResult}
    (h : s.Overflows (.completeRequest number result)) :
    s.completeRequestOrFault number result = .error .overflow := by
  obtain ⟨debug, response, shown, overflows⟩ := h
  cases result with
  | error failure => cases shown
  | ok answer =>
    rw [displayed] at shown
    split at shown
    · rename_i counts
      obtain rfl := List.mem_singleton.mp shown
      rw [completeRequestOrFault]
      simp only [counts, debug, Bool.and_self, if_true, readDetails_of_overflows overflows]
      rfl
    · cases shown

private theorem completeRequestOrFault_of_clear {number : Nat} {result : RoutingResult}
    (h : ¬ s.Overflows (.completeRequest number result)) :
    s.completeRequestOrFault number result = .ok (s.completeRequest number result) := by
  unfold completeRequestOrFault
  dsimp only
  split
  · rename_i read
    obtain ⟨counts, debug⟩ := (Bool.and_eq_true_iff ..).mp read
    cases result with
    | error failure => rfl
    | ok response =>
      have shown : s.displayed (.completeRequest number (.ok response)) = [response] := if_pos counts
      have clear : ¬ response.Overflows s.options.elevation := fun overflows =>
        h ⟨debug, response, shown ▸ List.mem_singleton_self response, overflows⟩
      dsimp only
      rw [readDetails_of_clear clear]
      rfl
  · rfl

private theorem afterOrFault_of_overflows {e : Event} (h : s.Overflows e) :
    s.afterOrFault e = .error .overflow := by
  cases e with
  | edit x =>
    cases x with
    | addIntermediate c =>
      rw [afterOrFault, addIntermediateOrFault_of_overflows h]
      rfl
    | _ => cases h
  | completeRequest number result =>
    rw [afterOrFault, completeRequestOrFault_of_overflows h]
    rfl
  | _ => cases h

private theorem afterOrFault_of_clear {e : Event} (h : ¬ s.Overflows e) :
    s.afterOrFault e = .ok (s.after e) := by
  cases e with
  | edit x =>
    cases x with
    | addIntermediate c =>
      rw [afterOrFault, addIntermediateOrFault_of_clear h, after, edit]
      rcases s.addIntermediate c with ⟨_ | _, _⟩ <;> rfl
    | _ => rfl
  | completeRequest number result =>
    rw [afterOrFault, completeRequestOrFault_of_clear h]
    rfl
  | _ => rfl

theorem playOrFault_of_clear {es : List Event} (h : s.Clear es) : s.playOrFault es = .ok (s.play es) := by
  induction es generalizing s with
  | nil => rfl
  | cons e es ih =>
    rw [playOrFault, List.foldlM_cons, afterOrFault_of_clear h.1]
    exact ih h.2

theorem playOrFault_of_not_clear {es : List Event} (h : ¬ s.Clear es) :
    s.playOrFault es = .error .overflow := by
  induction es generalizing s with
  | nil => exact absurd trivial h
  | cons e es ih =>
    rw [playOrFault, List.foldlM_cons]
    by_cases overflows : s.Overflows e
    · rw [afterOrFault_of_overflows overflows]
      rfl
    · rw [afterOrFault_of_clear overflows]
      exact ih fun later => h ⟨overflows, later⟩

theorem playOrFault_append (s : Session) (es fs : List Event) :
    s.playOrFault (es ++ fs) = (s.playOrFault es).bind (·.playOrFault fs) := List.foldlM_append

theorem clear_of_forall {es : List Event} (h : ∀ e ∈ es, ∀ t : Session, ¬ t.Overflows e) : s.Clear es := by
  induction es generalizing s with
  | nil => trivial
  | cons e es ih => exact ⟨h e List.mem_cons_self s, ih fun e' he => h e' (List.mem_cons_of_mem e he)⟩

/-- Sending the requests that wait is a run of its own also where it stops the program. -/
theorem runRequestsOrFault_eq_play {σ : Type} (service : Payload → σ → RoutingResult × σ) (memory : σ)
    (s : Session) : (runRequestsOrFault service memory s).map Prod.snd =
      s.playOrFault (.takeRequests :: requestEvents service memory s.requests) := by
  have sent (ds : List Dispatch) (memory : σ) (t : Session) :
      (ds.foldlM (runRequestOrFault service) (memory, t)).map Prod.snd =
        t.playOrFault (requestEvents service memory ds) := by
    induction ds generalizing memory t with
    | nil => rfl
    | cons d ds ih =>
      have asked : t.playOrFault (requestEvents service memory (d :: ds)) =
          (((t.emit [.findRoute d.payload]).completeRequestOrFault d.number
            (service d.payload memory).1).map Prod.snd).bind
              (·.playOrFault (requestEvents service (service d.payload memory).2 ds)) := rfl
      rw [List.foldlM_cons, runRequestOrFault, asked]
      dsimp only
      cases (t.emit [.findRoute d.payload]).completeRequestOrFault d.number
          (service d.payload memory).1 with
      | error fault => rfl
      | ok outcome => exact ih _ _
  exact sent s.requests memory _

end Session
end Itinerary

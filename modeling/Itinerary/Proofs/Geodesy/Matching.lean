import Itinerary.Proofs.Geodesy
import Mathlib.Order.Lattice

/-! Where along a path a click is put, whatever distance is measured, as long as distances are compared
by a total order: the stops are matched to vertices front to back, which does not depend on the click,
and a click is put behind the stops that the path has reached at the vertex nearest to it. -/
namespace Itinerary.Geodesy
variable {α : Type} [LinearOrder α]

/-- The first of the least values, with its index. -/
def firstMin : List α → Option (Nat × α)
  | [] => none
  | x :: xs =>
    match firstMin xs with
    | some (index, least) => if least < x then some (index + 1, least) else some (0, x)
    | none => some (0, x)

/-- Index of the vertex closest to the target by this distance. -/
def nearestBy (rank : Coordinate → Coordinate → α) (points : List Coordinate) (target : Coordinate) :
    Option Nat :=
  (firstMin (points.map (rank · target))).map Prod.fst

/-- How many stops the path has reached at vertex `limit` by this distance. -/
def passedBy (rank : Coordinate → Coordinate → α) (limit : Nat) (geometry : List Coordinate) :
    Nat → List Coordinate → Option Nat
  | _, [] => some 0
  | start, stop :: stops => do
    let vertex := start + (← nearestBy rank (geometry.drop start) stop)
    if limit < vertex then some 0
    else return (← passedBy rank limit geometry vertex stops) + 1

/-- Route position of a stop added by a click, by this distance. -/
def placeBy (rank : Coordinate → Coordinate → α) (geometry stops : List Coordinate)
    (click : Coordinate) : Option Nat :=
  if stops.length < 2 then none
  else do
    let vertex ← nearestBy rank geometry click
    return max 1 (min (← passedBy rank vertex geometry 0 stops) (stops.length - 1))

private theorem firstLeast_eq (ranks : List Nat) : firstLeast ranks = firstMin ranks := by
  induction ranks with
  | nil => rfl
  | cons rank ranks ih =>
    rw [firstLeast, firstMin, ih]
    cases firstMin ranks <;> rfl

private theorem nearestIndex_eq (points : List Coordinate) (target : Coordinate) :
    nearestIndex points target = nearestBy remoteness points target := by
  rw [nearestIndex, nearestBy, firstLeast_eq]

private theorem reachedBy_eq (limit : Nat) (geometry : List Coordinate) (start : Nat)
    (stops : List Coordinate) :
    reachedBy limit geometry start stops = passedBy remoteness limit geometry start stops := by
  induction stops generalizing start with
  | nil => rfl
  | cons stop stops ih =>
    rw [reachedBy, passedBy, nearestIndex_eq]
    simp only [ih]

/-- The distance on the sphere is one of these distances. -/
private theorem insertIndex_eq (geometry stops : List Coordinate) (click : Coordinate) :
    insertIndex geometry stops click = placeBy remoteness geometry stops click := by
  rw [insertIndex, placeBy, nearestIndex_eq]
  simp only [reachedBy_eq]

private theorem firstMin_spec {xs : List α} {index : Nat} {least : α}
    (h : firstMin xs = some (index, least)) :
    xs[index]? = some least ∧ ∀ i x, xs[i]? = some x → least ≤ x ∧ (i < index → least < x) := by
  induction xs generalizing index least with
  | nil => cases h
  | cons first xs ih =>
    rw [firstMin] at h
    have ahead (below : ∀ (i : Nat) (x : α), xs[i]? = some x → first ≤ x) :
        (first :: xs)[0]? = some first ∧ ∀ (i : Nat) (x : α), (first :: xs)[i]? = some x →
          first ≤ x ∧ (i < 0 → first < x) := by
      refine ⟨rfl, fun i x hx => ⟨?_, fun before => absurd before (Nat.not_lt_zero i)⟩⟩
      cases i with
      | zero => exact le_of_eq (Option.some.inj hx)
      | succ i => exact below i x hx
    split at h
    · rename_i earlier least' found
      obtain ⟨here, below⟩ := ih found
      split at h
      · rename_i less
        cases h
        refine ⟨here, fun i x hx => ?_⟩
        cases i with
        | zero =>
          cases hx
          exact ⟨le_of_lt less, fun _ => less⟩
        | succ i =>
          obtain ⟨le, lt⟩ := below i x hx
          exact ⟨le, fun before => lt (Nat.lt_of_succ_lt_succ before)⟩
      · rename_i no
        cases h
        exact ahead fun i x hx => le_trans (not_lt.mp no) (below i x hx).1
    · rename_i none
      cases h
      cases xs with
      | nil => exact ahead fun i x hx => nomatch hx
      | cons second xs =>
        rw [firstMin] at none
        split at none
        · split at none <;> cases none
        · cases none

private theorem exists_firstMin (first : α) (xs : List α) :
    ∃ index least, firstMin (first :: xs) = some (index, least) := by
  rw [firstMin]
  split
  · split
    · exact ⟨_, _, rfl⟩
    · exact ⟨_, _, rfl⟩
  · exact ⟨_, _, rfl⟩

variable {rank : Coordinate → Coordinate → α} {points geometry stops : List Coordinate}
  {target click : Coordinate} {start vertex limit : Nat} {vertices : List Nat}

/-- Of the vertices from `start` on, this is the first of those that are nearest to the target. -/
structure Nearest (rank : Coordinate → Coordinate → α) (points : List Coordinate) (target : Coordinate)
    (start vertex : Nat) : Prop where
  ge : start ≤ vertex
  least : ∃ here, points[vertex]? = some here ∧ ∀ i p, start ≤ i → points[i]? = some p →
    rank here target ≤ rank p target ∧ (i < vertex → rank here target < rank p target)

private theorem Nearest.inside (h : Nearest rank points target start vertex) : vertex < points.length := by
  obtain ⟨_, placed, _⟩ := h.least
  exact (List.getElem?_eq_some_iff.mp placed).1

/-- There is only one first nearest vertex. -/
theorem Nearest.unique {other : Nat} (h : Nearest rank points target start vertex)
    (k : Nearest rank points target start other) : vertex = other := by
  obtain ⟨here, placed, least⟩ := h.least
  obtain ⟨there, placed', least'⟩ := k.least
  rcases Nat.lt_trichotomy vertex other with before | same | behind
  · have less := (least' vertex here h.ge placed).2 before
    exact absurd (least other there k.ge placed').1 (not_le.mpr less)
  · exact same
  · have less := (least other there k.ge placed').2 behind
    exact absurd (least' vertex here h.ge placed).1 (not_le.mpr less)

private theorem nearest_of_nearestBy {offset : Nat}
    (h : nearestBy rank (points.drop start) target = some offset) :
    Nearest rank points target start (start + offset) := by
  obtain ⟨⟨_, least⟩, found, rfl⟩ := Option.map_eq_some_iff.mp h
  obtain ⟨placed, below⟩ := firstMin_spec found
  rw [List.getElem?_map, List.getElem?_drop] at placed
  obtain ⟨here, there, rfl⟩ := Option.map_eq_some_iff.mp placed
  refine ⟨Nat.le_add_right _ _, here, there, fun i p hi hp => ?_⟩
  obtain ⟨k, rfl⟩ := Nat.exists_eq_add_of_le hi
  have measured : ((points.drop start).map (rank · target))[k]? = some (rank p target) := by
    rw [List.getElem?_map, List.getElem?_drop, hp]
    rfl
  obtain ⟨le, lt⟩ := below k _ measured
  exact ⟨le, fun before => lt (Nat.lt_of_add_lt_add_left before)⟩

private theorem exists_nearestBy (rank : Coordinate → Coordinate → α) (target : Coordinate)
    (h : start < points.length) : ∃ offset, nearestBy rank (points.drop start) target = some offset := by
  cases rest : points.drop start with
  | nil =>
    have none := List.drop_eq_nil_iff.mp rest
    omega
  | cons p others =>
    obtain ⟨index, least, found⟩ := exists_firstMin (rank p target) (others.map (rank · target))
    refine ⟨index, ?_⟩
    rw [nearestBy, List.map_cons, found]
    rfl

private theorem nearestBy_of_nearest (h : Nearest rank points target start vertex) :
    nearestBy rank (points.drop start) target = some (vertex - start) := by
  obtain ⟨offset, found⟩ := exists_nearestBy rank target (Nat.lt_of_le_of_lt h.ge h.inside)
  have same := h.unique (nearest_of_nearestBy found)
  rw [found, same, Nat.add_sub_cancel_left]

private theorem exists_nearest (rank : Coordinate → Coordinate → α) (target : Coordinate)
    (h : start < points.length) : ∃ vertex, Nearest rank points target start vertex := by
  obtain ⟨offset, found⟩ := exists_nearestBy rank target h
  exact ⟨_, nearest_of_nearestBy found⟩

/-- The vertices of the stops, front to back: each is the nearest one from that of the stop before on. -/
inductive Matched (rank : Coordinate → Coordinate → α) (geometry : List Coordinate) :
    Nat → List Coordinate → List Nat → Prop
  | nil (start : Nat) : Matched rank geometry start [] []
  | cons {start vertex : Nat} {stop : Coordinate} {stops : List Coordinate} {vertices : List Nat}
      (near : Nearest rank geometry stop start vertex)
      (rest : Matched rank geometry vertex stops vertices) :
      Matched rank geometry start (stop :: stops) (vertex :: vertices)

/-- The stops can be matched without knowing of a click. -/
private theorem exists_matched (rank : Coordinate → Coordinate → α) (stops : List Coordinate)
    (h : start < geometry.length) : ∃ vertices, Matched rank geometry start stops vertices := by
  induction stops generalizing start with
  | nil => exact ⟨[], .nil start⟩
  | cons stop stops ih =>
    obtain ⟨vertex, near⟩ := exists_nearest rank stop h
    obtain ⟨vertices, rest⟩ := ih near.inside
    exact ⟨vertex :: vertices, .cons near rest⟩

/-- The path never goes back. -/
theorem Matched.ge (h : Matched rank geometry start stops vertices) : ∀ v ∈ vertices, start ≤ v := by
  induction h with
  | nil start => exact fun v hv => absurd hv List.not_mem_nil
  | cons near rest ih =>
    intro v hv
    rcases List.mem_cons.mp hv with rfl | hv
    · exact near.ge
    · exact Nat.le_trans near.ge (ih v hv)

private theorem Matched.unique {others : List Nat} (h : Matched rank geometry start stops vertices)
    (k : Matched rank geometry start stops others) : vertices = others := by
  induction h generalizing others with
  | nil start =>
    cases k
    rfl
  | cons near rest ih =>
    cases k with
    | cons near' rest' =>
      cases near.unique near'
      rw [ih rest']

/-- The stops that the path has reached are those whose vertices are not beyond the limit. The walk
may end at the first one that is, as those behind it are beyond the limit as well. -/
private theorem Matched.passedBy_eq (h : Matched rank geometry start stops vertices) (limit : Nat) :
    passedBy rank limit geometry start stops = some (vertices.countP (· ≤ limit)) := by
  induction h with
  | nil start => rfl
  | @cons start vertex stop stops vertices near rest ih =>
    rw [passedBy, nearestBy_of_nearest near]
    dsimp only [Option.bind_eq_bind, Option.bind_some]
    rw [Nat.add_sub_cancel' near.ge, ih]
    by_cases beyond : limit < vertex
    · have none : (vertex :: vertices).countP (· ≤ limit) = 0 := by
        refine List.countP_eq_zero.mpr fun v hv => ?_
        have later : vertex ≤ v := (List.mem_cons.mp hv).elim (fun he => le_of_eq he.symm) (rest.ge v)
        simpa using Nat.lt_of_lt_of_le beyond later
      rw [if_pos beyond, none]
    · have reached : decide (vertex ≤ limit) = true := decide_eq_true (Nat.le_of_not_lt beyond)
      rw [if_neg beyond, List.countP_cons_of_pos (p := (decide <| · ≤ limit)) reached]
      rfl

/-- A click is put behind the stops that the path has reached at the vertex nearest to it. -/
private theorem Matched.placeBy_eq (h : Matched rank geometry 0 stops vertices) (several : 2 ≤ stops.length)
    (near : Nearest rank geometry click 0 vertex) : placeBy rank geometry stops click =
      some (max 1 (min (vertices.countP (· ≤ vertex)) (stops.length - 1))) := by
  have found : nearestBy rank geometry click = some vertex := nearestBy_of_nearest near
  rw [placeBy, if_neg (Nat.not_lt.mpr several), found]
  dsimp only [Option.bind_eq_bind, Option.bind_some]
  rw [h.passedBy_eq]
  rfl

/-- Whatever distance is measured, a path with vertices and at least two stops has a place for every
click, behind as many stops as are matched to a vertex that is not beyond the one nearest to the click,
but always between the first stop and the last. Which vertices the stops are matched to does not depend
on the click, and of two clicks the one that is nearest to a later vertex is put no further to the
front. The distance on the sphere is a case of this. -/
theorem placeBy_along_path (rank : Coordinate → Coordinate → α) {geometry stops : List Coordinate}
    (path : geometry ≠ []) (several : 2 ≤ stops.length) :
    (∃ vertices, Matched rank geometry 0 stops vertices ∧
      (∀ others, Matched rank geometry 0 stops others → others = vertices) ∧
      ∀ click, ∃ vertex, Nearest rank geometry click 0 vertex ∧ placeBy rank geometry stops click =
        some (max 1 (min (vertices.countP (· ≤ vertex)) (stops.length - 1)))) ∧
    (∀ click other vertex later, Nearest rank geometry click 0 vertex →
      Nearest rank geometry other 0 later → vertex ≤ later → ∃ k l,
        placeBy rank geometry stops click = some k ∧ placeBy rank geometry stops other = some l ∧
          1 ≤ k ∧ k ≤ l ∧ l ≤ stops.length - 1 ∧ (vertex = later → k = l)) ∧
    ∀ click, insertIndex geometry stops click = placeBy remoteness geometry stops click := by
  have inside : 0 < geometry.length := List.length_pos_iff.mpr path
  obtain ⟨vertices, matched⟩ := exists_matched rank stops inside
  refine ⟨⟨vertices, matched, fun others other => other.unique matched, fun click => ?_⟩, ?_,
    insertIndex_eq geometry stops⟩
  · obtain ⟨vertex, near⟩ := exists_nearest rank click inside
    exact ⟨vertex, near, matched.placeBy_eq several near⟩
  · intro click other vertex later near near' forward
    refine ⟨_, _, matched.placeBy_eq several near, matched.placeBy_eq several near', ?_, ?_, ?_, ?_⟩
    · exact Nat.le_max_left _ _
    · have more : vertices.countP (· ≤ vertex) ≤ vertices.countP (· ≤ later) := by
        refine List.countP_mono_left fun v _ reached => ?_
        simp only [decide_eq_true_eq] at reached ⊢
        exact Nat.le_trans reached forward
      omega
    · omega
    · rintro rfl
      rfl

/-- A path due east is measured by longitudes: a click before the stop in its middle is put before that
stop, and a later click behind it. -/
theorem placeBy_due_east :
    let apart : Coordinate → Coordinate → Nat := fun a b => (a.lng - b.lng).abs.toBits.toNat
    let line : List Coordinate := [⟨50, 10⟩, ⟨50, 10.25⟩, ⟨50, 10.5⟩, ⟨50, 10.75⟩, ⟨50, 11⟩]
    let stops : List Coordinate := [⟨50, 10⟩, ⟨50, 10.5⟩, ⟨50, 11⟩]
    line ≠ [] ∧ 2 ≤ stops.length ∧ Nearest apart line ⟨50.5, 10.3⟩ 0 1 ∧
      Nearest apart line ⟨50.5, 10.7⟩ 0 3 ∧ ∃ k l, placeBy apart line stops ⟨50.5, 10.3⟩ = some k ∧
        placeBy apart line stops ⟨50.5, 10.7⟩ = some l ∧ k ≤ l ∧ k = 1 ∧ l = 2 := by
  intro apart line stops
  have path : line ≠ [] := List.cons_ne_nil _ _
  have several : 2 ≤ stops.length := by decide
  have second : nearestBy apart (line.drop 0) ⟨50.5, 10.3⟩ = some 1 := by decide +kernel
  have fourth : nearestBy apart (line.drop 0) ⟨50.5, 10.7⟩ = some 3 := by decide +kernel
  have near : Nearest apart line ⟨50.5, 10.3⟩ 0 (0 + 1) := nearest_of_nearestBy second
  have far : Nearest apart line ⟨50.5, 10.7⟩ 0 (0 + 3) := nearest_of_nearestBy fourth
  obtain ⟨k, l, first, last, _, order, _⟩ :=
    (placeBy_along_path apart path several).2.1 _ _ _ _ near far (by decide)
  refine ⟨path, several, near, far, k, l, first, last, order, ?_, ?_⟩
  · have put : placeBy apart line stops ⟨50.5, 10.3⟩ = some 1 := by decide +kernel
    exact Option.some.inj (first.symm.trans put)
  · have put : placeBy apart line stops ⟨50.5, 10.7⟩ = some 2 := by decide +kernel
    exact Option.some.inj (last.symm.trans put)

end Itinerary.Geodesy

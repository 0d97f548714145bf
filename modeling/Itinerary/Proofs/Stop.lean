import Itinerary.Lookup
import Itinerary.Proofs.Text.Split

/-! A stop's four fields of what became of its text, each of which is set by itself, never contradict
one another or the text. They show one value of a sum type, of which every change of a stop makes
another. -/
namespace Itinerary

/-- Blank text has no comma in it, and so is no literal. -/
theorem Coordinate.parse?_of_allBlank {text : String} (h : Text.allBlank text = true) :
    parse? text = none := by
  have comma : ',' ∉ text.toList := by
    intro hc
    have blank := List.all_eq_true.mp h _ hc
    revert blank
    decide
  rw [parse?, Text.splitFirst_of_not_mem comma]
  rfl

/-- How far a text has been turned into a coordinate: typed as one, found by a lookup (the first
candidate counts), or not. -/
inductive Resolution where
  | unresolved
  | pending
  | literal (c : Coordinate)
  | found (top : Candidate) (others : List Candidate)
  | failed (cause : LookupFailure)

namespace Resolution

def status : Resolution → Status
  | .unresolved => .unresolved
  | .pending => .pending
  | .literal _ | .found _ _ => .resolved
  | .failed _ => .failed

def coordinate : Resolution → Option Coordinate
  | .literal c => some c
  | .found top _ => some top.coordinate
  | _ => none

def candidates : Resolution → List Candidate
  | .found top others => top :: others
  | _ => []

def failure : Resolution → Option LookupFailure
  | .failed cause => some cause
  | _ => none

/-- What typing a text leaves. -/
def ofInput (input : String) : Resolution :=
  match Coordinate.parse? input with
  | some c => .literal c
  | none => .unresolved

/-- What a lookup for the text leaves. -/
def ofResult (input : String) : LookupResult → Resolution
  | .ok (top :: others) => .found top others
  | .ok [] => .failed (.noCandidates input)
  | .error cause => .failed cause

/-- What may be known of a text: a literal is known at once, and only a text that is neither a
literal nor blank is looked up. -/
def Fits (input : String) : Resolution → Prop
  | .literal c => Coordinate.parse? input = some c
  | .unresolved => Coordinate.parse? input = none
  | .pending | .found _ _ | .failed _ =>
    Coordinate.parse? input = none ∧ Text.allBlank input = false

private theorem ofInput_fits (input : String) : (ofInput input).Fits input := by
  rw [ofInput]
  split
  · rename_i c h
    exact h
  · rename_i h
    exact h

private theorem ofResult_fits {input : String}
    (h : Coordinate.parse? input = none ∧ Text.allBlank input = false) (result : LookupResult) :
    (ofResult input result).Fits input := by
  rcases result with cause | _ | ⟨top, others⟩ <;> exact h

private theorem coordinate_isSome_iff (r : Resolution) : r.coordinate.isSome ↔ r.status = .resolved := by
  cases r <;> simp [coordinate, status]

private theorem failure_isSome_iff (r : Resolution) : r.failure.isSome ↔ r.status = .failed := by
  cases r <;> simp [failure, status]

/-- Nothing has been found for a text that is still to be looked up. -/
private theorem candidates_of_idle {r : Resolution} (h : r.status = .unresolved ∨ r.status = .failed) :
    r.candidates = [] := by
  cases r <;> simp_all [status, candidates]

private theorem coordinate_of_head? {r : Resolution} {top : Candidate} (h : r.candidates.head? = some top) :
    r.coordinate = some top.coordinate := by
  cases r <;> simp_all [candidates, coordinate]

theorem ofResult_eq_found {input : String} {result : LookupResult} {top : Candidate}
    {others : List Candidate} (h : ofResult input result = .found top others) :
    result = .ok (top :: others) := by
  rcases result with cause | _ | ⟨first, rest⟩ <;> simp_all [ofResult]

private theorem exists_found {r : Resolution} (h : r.candidates ≠ []) :
    ∃ top others, r = .found top others := by
  cases r <;> simp_all [candidates]

end Resolution

namespace Stop
variable {s : Stop} {input : String}

@[simp] theorem create_id (id : StopId) (input : String) : (create id input).id = id := rfl

/-- A lookup leaves the identity of a stop, its text and its revision. -/
theorem resolveWith_kept (s : Stop) (result : LookupResult) : (s.resolveWith result).id = s.id ∧
    (s.resolveWith result).input = s.input ∧ (s.resolveWith result).revision = s.revision := by
  rcases result with cause | _ | ⟨top, others⟩ <;> exact ⟨rfl, rfl, rfl⟩

@[simp] theorem resolveWith_id (s : Stop) (result : LookupResult) : (s.resolveWith result).id = s.id :=
  (s.resolveWith_kept result).1

@[simp] theorem resolveWith_lookup (s : Stop) (result : LookupResult) :
    (s.resolveWith result).lookup = s.lookup := by
  obtain ⟨id, input, revision⟩ := s.resolveWith_kept result
  rw [lookup, lookup, id, input, revision]

/-- What the four fields say is one value. -/
structure Shows (s : Stop) (r : Resolution) : Prop where
  coordinate : s.coordinate = r.coordinate
  status : s.status = r.status
  candidates : s.candidates = r.candidates
  failure : s.failure = r.failure

theorem create_shows (id : StopId) (input : String) : (create id input).Shows (.ofInput input) := by
  rw [create, applyInput, Resolution.ofInput]
  cases Coordinate.parse? input <;> exact ⟨rfl, rfl, rfl, rfl⟩

theorem setInput_shows (s : Stop) (input : String) : (s.setInput input).Shows (.ofInput input) := by
  rw [setInput, applyInput, Resolution.ofInput]
  cases Coordinate.parse? input <;> exact ⟨rfl, rfl, rfl, rfl⟩

/-- The candidates that are left in place are none. -/
private theorem Shows.markPending {r : Resolution} (h : s.Shows r)
    (idle : s.status = .unresolved ∨ s.status = .failed) : s.markPending.Shows .pending where
  coordinate := rfl
  status := rfl
  candidates := h.candidates.trans (Resolution.candidates_of_idle (h.status ▸ idle))
  failure := rfl

theorem resolveWith_shows (s : Stop) (result : LookupResult) :
    (s.resolveWith result).Shows (.ofResult s.input result) := by
  rcases result with cause | _ | ⟨top, others⟩ <;> exact ⟨rfl, rfl, rfl, rfl⟩

theorem Shows.eq_found {r : Resolution} (h : s.Shows r) {top : Candidate} {others : List Candidate}
    (found : s.Shows (.found top others)) : r = .found top others := by
  have candidates : r.candidates = top :: others := h.candidates.symm.trans found.candidates
  cases r <;> simp_all [Resolution.candidates]

theorem create_status_ne_pending (id : StopId) (input : String) : (create id input).status ≠ .pending := by
  rw [create, applyInput]
  dsimp only
  split <;> simp

theorem setInput_status_ne_pending (s : Stop) (input : String) : (s.setInput input).status ≠ .pending := by
  rw [setInput, applyInput]
  dsimp only
  split <;> simp

theorem resolveWith_status_ne_pending (s : Stop) (result : LookupResult) :
    (s.resolveWith result).status ≠ .pending := by
  rcases result with cause | _ | ⟨top, others⟩ <;> simp [resolveWith, choose, fail]

/-- What is known of the stop may be known of its text. -/
def Sound (s : Stop) : Prop := ∃ r : Resolution, s.Shows r ∧ r.Fits s.input

theorem create_sound (id : StopId) (input : String) : (create id input).Sound :=
  ⟨_, create_shows id input, Resolution.ofInput_fits input⟩

theorem setInput_sound (s : Stop) (input : String) : (s.setInput input).Sound :=
  ⟨_, s.setInput_shows input, Resolution.ofInput_fits input⟩

theorem Sound.coordinate_isSome_iff (h : s.Sound) : s.coordinate.isSome ↔ s.status = .resolved := by
  obtain ⟨r, shows, _⟩ := h
  rw [shows.coordinate, shows.status]
  exact r.coordinate_isSome_iff

/-- What is pending has text to look up. -/
theorem Sound.of_pending (h : s.Sound) (hp : s.status = .pending) :
    Coordinate.parse? s.input = none ∧ Text.allBlank s.input = false := by
  obtain ⟨r, shows, fits⟩ := h
  rw [shows.status] at hp
  cases r <;> first | exact fits | cases hp

theorem resolveWith_sound (h : s.Sound) (hp : s.status = .pending) (result : LookupResult) :
    (s.resolveWith result).Sound := by
  refine ⟨_, s.resolveWith_shows result, ?_⟩
  rw [(s.resolveWith_kept result).2.1]
  exact Resolution.ofResult_fits (h.of_pending hp) result

/-- Nothing is known of blank text: it is neither a literal nor ever looked up. -/
theorem Sound.of_blank (h : s.Sound) (hb : s.isBlank = true) : s.Shows .unresolved := by
  have literal := Coordinate.parse?_of_allBlank hb
  obtain ⟨r, shows, fits⟩ := h
  rw [isBlank] at hb
  cases r <;> simp_all [Resolution.Fits]

/-- A literal is known for what it is. -/
theorem Sound.of_literal (h : s.Sound) {c : Coordinate} (hc : Coordinate.parse? s.input = some c) :
    s.Shows (.literal c) := by
  obtain ⟨r, shows, fits⟩ := h
  cases r <;> simp_all [Resolution.Fits]

/-- A resolved stop whose text is no literal was found by a lookup. -/
theorem Sound.found (h : s.Sound) (hr : s.status = .resolved) (hl : s.isLiteral = false) :
    ∃ top others, s.Shows (.found top others) := by
  obtain ⟨r, shows, fits⟩ := h
  rw [shows.status] at hr
  cases r with
  | found top others => exact ⟨top, others, shows⟩
  | literal c =>
    rw [isLiteral, show Coordinate.parse? s.input = some c from fits] at hl
    cases hl
  | _ => cases hr

/-- A lookup is issued for text that is neither a literal nor blank, as long as it is not resolved
and no lookup is under way. -/
theorem resolve_issued {s : Stop} {l : Lookup} (h : s.resolve = .issued l) :
    l = s.lookup ∧ s.isLiteral = false ∧ s.isBlank = false ∧
      (s.status = .unresolved ∨ s.status = .failed) := by
  rw [resolve] at h
  split at h
  · cases h
  · rename_i hl
    split at h
    · cases h
    · cases h
    all_goals
      rename_i hs
      split at h
      · cases h
      · rename_i hb
        cases h
        exact ⟨rfl, by simpa using hl, by simpa using hb, by simp [hs]⟩

theorem markPending_sound (h : s.Sound) {l : Lookup} (hl : s.resolve = .issued l) :
    s.markPending.Sound := by
  obtain ⟨r, shows, _⟩ := h
  obtain ⟨_, literal, blank, idle⟩ := resolve_issued hl
  exact ⟨.pending, shows.markPending idle, by simpa [isLiteral, Stop.markPending] using literal, blank⟩

theorem awaits_iff (s : Stop) (l : Lookup) :
    s.awaits l = true ↔ s.revision = l.revision ∧ s.status = .pending := by
  simp [awaits]

/-- What the parts of a stop say together: it has a coordinate when it is resolved and a failure when
it has failed; candidates come from a lookup, the first of them counts, and a literal has none; and
only text that is neither blank nor a literal is waited for. -/
structure Coherent (s : Stop) : Prop where
  coordinate_iff : s.coordinate.isSome ↔ s.status = .resolved
  failure_iff : s.failure.isSome ↔ s.status = .failed
  candidates_iff : s.candidates ≠ [] ↔ s.status = .resolved ∧ s.isLiteral = false
  first_counts : ∀ top, s.candidates.head? = some top → s.coordinate = some top.coordinate
  literal : ∀ c, Coordinate.parse? s.input = some c →
    s.status = .resolved ∧ s.coordinate = some c ∧ s.candidates = []
  pending : s.status = .pending → s.isBlank = false ∧ s.isLiteral = false

private theorem Sound.candidates_iff (h : s.Sound) :
    s.candidates ≠ [] ↔ s.status = .resolved ∧ s.isLiteral = false := by
  constructor
  · intro hc
    obtain ⟨r, shows, fits⟩ := h
    rw [shows.candidates] at hc
    obtain ⟨top, others, rfl⟩ := Resolution.exists_found hc
    rw [shows.status, isLiteral, fits.1]
    exact ⟨rfl, rfl⟩
  · rintro ⟨resolved, notLiteral⟩
    obtain ⟨top, others, shows⟩ := h.found resolved notLiteral
    rw [shows.candidates]
    exact List.cons_ne_nil _ _

theorem Sound.coherent (h : s.Sound) : s.Coherent where
  coordinate_iff := h.coordinate_isSome_iff
  failure_iff := by
    obtain ⟨r, shows, _⟩ := h
    rw [shows.failure, shows.status]
    exact r.failure_isSome_iff
  candidates_iff := h.candidates_iff
  first_counts top hc := by
    obtain ⟨r, shows, _⟩ := h
    rw [shows.candidates] at hc
    rw [shows.coordinate]
    exact Resolution.coordinate_of_head? hc
  literal c hc := by
    have shows := h.of_literal hc
    exact ⟨shows.status, shows.coordinate, shows.candidates⟩
  pending hp := by
    obtain ⟨text, notBlank⟩ := h.of_pending hp
    refine ⟨notBlank, ?_⟩
    rw [isLiteral, text]
    rfl

end Stop
end Itinerary

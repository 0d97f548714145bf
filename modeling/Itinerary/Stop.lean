import Itinerary.Coordinate
import Itinerary.Json.Record

/-! Stops: what the user typed, and what became of it. -/
namespace Itinerary

namespace Coordinate

def toJson (c : Coordinate) : Json := .obj [("lat", .ofFloat c.lat), ("lng", .ofFloat c.lng)]

def ofJson? (j : Json) : Option Coordinate := do
  let r ← j.record? ["lat", "lng"]
  return ⟨← r.required 0 Json.float?, ← r.required 1 Json.float?⟩

end Coordinate

/-- Identity of a stop, whatever its place in the route. -/
structure StopId where
  number : Nat
deriving DecidableEq, Repr

namespace StopId

def toJson (id : StopId) : Json := .int id.number

def ofJson? (j : Json) : Option StopId := (j.count? UInt64.size).map StopId.mk

end StopId

/-- One place that a text may stand for. -/
structure Candidate where
  lat : Float
  lng : Float
  label : String

namespace Candidate

def coordinate (c : Candidate) : Coordinate := ⟨c.lat, c.lng⟩

def toJson (c : Candidate) : Json :=
  .obj [("lat", .ofFloat c.lat), ("lng", .ofFloat c.lng), ("label", .str c.label)]

def ofJson? (j : Json) : Option Candidate := do
  let r ← j.record? ["lat", "lng", "label"]
  return ⟨← r.required 0 Json.float?, ← r.required 1 Json.float?, ← r.required 2 Json.str?⟩

end Candidate

/-- A lookup that gave no coordinate. -/
inductive LookupFailure where
  | noCandidates (query : String)
  | transport (message : String)
deriving DecidableEq, Repr

def LookupFailure.message : LookupFailure → String
  | .noCandidates query => s!"no candidates found for '{query}'"
  | .transport message => s!"geocoding failed: {message}"

abbrev LookupResult := Except LookupFailure (List Candidate)

inductive Status where
  | unresolved
  | pending
  | resolved
  | failed
deriving DecidableEq, Repr

namespace Status

def name : Status → String
  | .unresolved => "Unresolved"
  | .pending => "Pending"
  | .resolved => "Resolved"
  | .failed => "Failed"

def toJson (s : Status) : Json := .str s.name

def ofJson? (j : Json) : Option Status :=
  match j.name? with
  | some "Unresolved" => some .unresolved
  | some "Pending" => some .pending
  | some "Resolved" => some .resolved
  | some "Failed" => some .failed
  | _ => none

end Status

/-- A stop of the route. Every edit of its text counts up its revision, by which a lookup's answer
tells whether it is still asked for. What became of the text is in four fields, each of which is set by
itself. -/
structure Stop where
  id : StopId
  input : String
  coordinate : Option Coordinate
  status : Status
  candidates : List Candidate
  failure : Option LookupFailure
  revision : Nat

namespace Stop

/-- Sets the text and drops all that was known of the old one. A coordinate literal needs no lookup. -/
def applyInput (s : Stop) (input : String) : Stop :=
  let parsed := Coordinate.parse? input
  { s with
    input
    coordinate := parsed
    status := if parsed.isSome then .resolved else .unresolved
    candidates := []
    failure := none }

def create (id : StopId) (input : String) : Stop :=
  applyInput ⟨id, "", none, .unresolved, [], none, 0⟩ input

def isResolved (s : Stop) : Bool := s.status == .resolved

def isBlank (s : Stop) : Bool := Text.allBlank s.input

/-- The text is a coordinate. -/
def isLiteral (s : Stop) : Bool := (Coordinate.parse? s.input).isSome

/-- New text, under a new revision. -/
def setInput (s : Stop) (input : String) : Stop :=
  { s with revision := s.revision + 1 }.applyInput input

/-- Pins the stop to a place on the map. -/
def setCoordinate (s : Stop) (c : Coordinate) : Stop := s.setInput c.literal

/-- A lookup is under way. The candidates are left. -/
def markPending (s : Stop) : Stop := { s with status := .pending, coordinate := none, failure := none }

def fail (s : Stop) (cause : LookupFailure) : Stop :=
  { s with coordinate := none, status := .failed, candidates := [], failure := some cause }

/-- Keeps what a lookup found; the first candidate counts. -/
def choose (s : Stop) (candidates : List Candidate) : Stop :=
  match candidates with
  | top :: _ => { s with coordinate := some top.coordinate, status := .resolved, failure := none, candidates }
  | [] => s.fail (.noCandidates s.input)

/-- What a lookup for the text leaves. -/
def resolveWith (s : Stop) : LookupResult → Stop
  | .ok candidates => s.choose candidates
  | .error cause => s.fail cause

/-- The same text again needs no new lookup: it is resolved, or one is under way. -/
def keepsInput (s : Stop) (input : String) : Bool :=
  s.input == input && (s.status == .resolved || s.status == .pending)

/-- What the stop's marker shows when it is opened. -/
def popup (s : Stop) : Option String := s.candidates.head?.map Candidate.label

end Stop
end Itinerary
